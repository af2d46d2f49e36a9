import DurableAgent.Python.Case

/-!
# Unicode classes

What `str.lower` and the class `\w` of a pattern read from the Unicode data of the
interpreter. Only the part outside ASCII is a parameter.
-/

set_option autoImplicit false

namespace DurableAgent.Python

structure UnicodeData where
  lowerOther : Char → List Char
  casedOther : Char → Bool
  caseIgnorableOther : Char → Bool
  wordOther : Char → Bool

namespace UnicodeData

/-- Outside ASCII there are no letters and no case. -/
def ascii : UnicodeData :=
  ⟨fun char => [char], fun _ => false, fun _ => false, fun _ => false⟩

variable (data : UnicodeData)

def isCased (char : Char) : Bool :=
  if char.toNat < 128 then char.isAlpha else data.casedOther char

/-- In ASCII the apostrophe, the full stop, the colon, the circumflex and the grave accent. -/
def isCaseIgnorable (char : Char) : Bool :=
  if char.toNat < 128 then decide (char.toNat ∈ [39, 46, 58, 94, 96])
  else data.caseIgnorableOther char

/-- The class `\w`. -/
def isWord (char : Char) : Bool :=
  if char.toNat < 128 then char.isAlphanum || decide (char = '_') else data.wordOther char

/-- A cased character follows, with case-ignorable ones at most in between. -/
def leadsToCased (chars : List Char) : Bool :=
  (chars.dropWhile data.isCaseIgnorable).head?.any data.isCased

/-- A capital sigma becomes a final one at the end of a word of more than one letter. -/
def caseData : CaseData where
  lowerOther := data.lowerOther
  finalSigma before behind := data.leadsToCased before.reverse && !data.leadsToCased behind

/-- `text.lower()`. -/
def lower (text : String) : String := data.caseData.lower text

/-! ## Texts put together -/

/-- Nothing in front of such a text is lowered differently because of it. -/
def Quiet (tail : List Char) : Prop :=
  ∀ chars, data.leadsToCased (chars ++ tail) = data.leadsToCased chars

theorem Quiet.space (rest : List Char) : data.Quiet (' ' :: rest) := by
  intro chars
  induction chars with
  | nil => rfl
  | cons char chars ih =>
      unfold leadsToCased at ih ⊢
      cases ignored : data.isCaseIgnorable char with
      | true => simpa [List.dropWhile_cons, ignored] using ih
      | false => simp [ignored]

variable {data}

theorem Quiet.of_ignorable {tail : List Char} (quiet : data.Quiet tail) {char : Char}
    (ignored : data.isCaseIgnorable char = true) : data.Quiet (char :: tail) := by
  intro chars
  have shifted : data.leadsToCased (chars ++ char :: tail) = data.leadsToCased (chars ++ tail) := by
    induction chars with
    | nil => simp [leadsToCased, ignored]
    | cons first chars ih =>
        unfold leadsToCased at ih ⊢
        cases other : data.isCaseIgnorable first with
        | true => simpa [List.dropWhile_cons, other] using ih
        | false => simp [other]
  rw [shifted, quiet]

theorem Quiet.nil : data.Quiet [] := fun chars => by rw [List.append_nil]

theorem lowerChar_append {tail : List Char} (quiet : data.Quiet tail) (before : List Char)
    (char : Char) (behind : List Char) :
    data.caseData.lowerChar before char (behind ++ tail) =
      data.caseData.lowerChar before char behind := by
  have final : data.caseData.finalSigma before (behind ++ tail) =
      data.caseData.finalSigma before behind := by simp only [caseData, quiet behind]
  rw [CaseData.lowerChar, CaseData.lowerChar, final]

theorem lowerFrom_append {tail : List Char} (quiet : data.Quiet tail) (before chars : List Char) :
    data.caseData.lowerFrom before (chars ++ tail) =
      data.caseData.lowerFrom before chars ++ data.caseData.lowerFrom (before ++ chars) tail := by
  induction chars generalizing before with
  | nil => simp [CaseData.lowerFrom]
  | cons char chars ih => simp [CaseData.lowerFrom, lowerChar_append quiet, ih]

/-- What stands in front of a space does not matter behind it. -/
theorem lowerFrom_behind_space (before more chars : List Char) :
    data.caseData.lowerFrom (before ++ ' ' :: more) chars =
      data.caseData.lowerFrom more chars := by
  induction chars generalizing more with
  | nil => rfl
  | cons char chars ih =>
      have same : data.caseData.lowerChar (before ++ ' ' :: more) char chars =
          data.caseData.lowerChar more char chars := by
        have quiet := Quiet.space data before.reverse more.reverse
        simp [CaseData.lowerChar, caseData, quiet]
      rw [CaseData.lowerFrom, CaseData.lowerFrom, same, List.append_assoc, List.cons_append, ih]

theorem lowerFrom_ascii (before : List Char) {char : Char} (ascii : char.toNat < 128)
    (behind : List Char) :
    data.caseData.lowerFrom before (char :: behind) =
      char.toLower :: data.caseData.lowerFrom (before ++ [char]) behind := by
  rw [CaseData.lowerFrom, CaseData.lowerChar, if_pos ascii, List.singleton_append]

variable (data)

theorem lower_space (left right : String) :
    data.lower (left ++ " " ++ right) = data.lower left ++ " " ++ data.lower right := by
  rw [← String.toList_inj]
  have parts : (left ++ " " ++ right).toList = left.toList ++ ' ' :: right.toList := by simp
  have behind : data.caseData.lowerFrom (left.toList ++ [' ']) right.toList =
      data.caseData.lowerFrom [] right.toList := lowerFrom_behind_space left.toList [] right.toList
  simp only [lower, CaseData.lower, String.toList_append, String.toList_ofList, parts,
    lowerFrom_append (Quiet.space data _), List.nil_append]
  rw [lowerFrom_ascii _ (by decide), behind]
  simp

theorem lower_point (text : String) : data.lower (text ++ ".") = data.lower text ++ "." := by
  rw [← String.toList_inj]
  have quiet : data.Quiet ['.'] := Quiet.nil.of_ignorable rfl
  have parts : (text ++ ".").toList = text.toList ++ ['.'] := by simp
  simp only [lower, CaseData.lower, String.toList_append, String.toList_ofList, parts,
    lowerFrom_append quiet]
  rw [lowerFrom_ascii _ (by decide)]
  rfl

theorem lower_ascii {text : String}
    (ascii : text.toList.all (fun char => decide (char.toNat < 128)) = true) :
    (data.lower text).toList = text.toList.map Char.toLower := by
  have every : ∀ before chars, (chars : List Char).all (fun char => decide (char.toNat < 128)) =
      true → data.caseData.lowerFrom before chars = chars.map Char.toLower := by
    intro before chars
    induction chars generalizing before with
    | nil => exact fun _ => rfl
    | cons char chars ih =>
        intro all
        simp only [List.all_cons, Bool.and_eq_true, decide_eq_true_eq] at all
        rw [lowerFrom_ascii before all.1, ih _ all.2]
        rfl
  rw [lower, CaseData.lower, String.toList_ofList, every [] _ ascii]

end UnicodeData

end DurableAgent.Python
