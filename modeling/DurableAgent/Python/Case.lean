import DurableAgent.Python.Value

/-!
# Lower case

`str.lower`. The Unicode data of the interpreter, which differ from version to
version, are a parameter.
-/

set_option autoImplicit false

namespace DurableAgent.Python

/-- The lower case of the characters outside ASCII, and whether a capital sigma between
two texts ends a word. -/
structure CaseData where
  lowerOther : Char → List Char
  finalSigma : List Char → List Char → Bool

namespace CaseData

variable (data : CaseData)

def lowerChar (before : List Char) (char : Char) (behind : List Char) : List Char :=
  if char.toNat < 128 then [char.toLower]
  else if char = 'Σ' then
    if data.finalSigma before behind then ['ς'] else ['σ']
  else data.lowerOther char

def lowerFrom (before : List Char) : List Char → List Char
  | [] => []
  | char :: behind =>
      data.lowerChar before char behind ++ lowerFrom (before ++ [char]) behind

/-- `text.lower()`. -/
def lower (text : String) : String := String.ofList (data.lowerFrom [] text.toList)

/-! ## Searching in lower case -/

/-- Both small sigmas as one. -/
def evenSigma (char : Char) : Char := if char = 'ς' then 'σ' else char

/-- The lower case of a character, whatever stands around it, up to the kind of sigma. -/
def plain (char : Char) : List Char := (data.lowerChar [] char []).map evenSigma

theorem evenSigma_of_ascii {char : Char} (ascii : char.toNat < 128) :
    evenSigma char.toLower = char.toLower := by
  have table : ∀ code < 128, (Char.ofNat code).toLower ≠ 'ς' := by decide +kernel
  have other := table char.toNat ascii
  rw [Char.ofNat_toNat] at other
  exact if_neg other

theorem plain_of_ascii {char : Char} (ascii : char.toNat < 128) :
    data.plain char = [char.toLower] := by
  unfold plain lowerChar
  rw [if_pos ascii, List.map_singleton, evenSigma_of_ascii ascii]

/-- The lower case of an ASCII text does not depend on the Unicode data. -/
theorem flatMap_plain_of_ascii {chars : List Char}
    (ascii : chars.all (fun char => decide (char.toNat < 128)) = true) :
    chars.flatMap data.plain = chars.map Char.toLower := by
  induction chars with
  | nil => rfl
  | cons char rest ih =>
      simp only [List.all_cons, Bool.and_eq_true, decide_eq_true_eq] at ascii
      simp only [List.flatMap_cons, plain_of_ascii data ascii.1, ih ascii.2, List.map_cons,
        List.singleton_append]

theorem map_lowerChar (before : List Char) (char : Char) (behind : List Char) :
    (data.lowerChar before char behind).map evenSigma = data.plain char := by
  have sigma : ∀ final : Bool,
      (if final = true then ['ς'] else ['σ']).map evenSigma = ['σ'] := by
    intro final
    cases final with
    | false => rfl
    | true => rfl
  unfold plain lowerChar
  split
  · rfl
  · split
    · exact (sigma _).trans (sigma _).symm
    · rfl

theorem map_lowerFrom (before chars : List Char) :
    (data.lowerFrom before chars).map evenSigma = chars.flatMap data.plain := by
  induction chars generalizing before with
  | nil => rfl
  | cons char behind ih =>
      rw [lowerFrom, List.map_append, map_lowerChar, ih, List.flatMap_cons]

theorem infix_map_evenSigma {phrase : List Char} (round : 'σ' ∉ phrase) (final : 'ς' ∉ phrase)
    (chars : List Char) : phrase <:+: chars.map evenSigma ↔ phrase <:+: chars := by
  constructor
  · intro within
    obtain ⟨original, part, rfl⟩ := List.infix_map_iff.mp within
    have same : original.map evenSigma = original := by
      refine (List.map_congr_left fun char member => ?_).trans (List.map_id original)
      refine if_neg fun ends => round ?_
      subst ends
      exact List.mem_map_of_mem member
    rwa [same]
  · intro within
    have same : phrase.map evenSigma = phrase := by
      refine (List.map_congr_left fun char member => ?_).trans (List.map_id phrase)
      refine if_neg fun ends => final ?_
      rwa [ends] at member
    have mapped := within.map evenSigma
    rwa [same] at mapped

/-- A phrase without sigmas is looked up character by character. -/
theorem occursIn_lower_iff {phrase : String} (round : 'σ' ∉ phrase.toList)
    (final : 'ς' ∉ phrase.toList) (text : String) :
    occursIn phrase (data.lower text) = true ↔
      phrase.toList <:+: text.toList.flatMap data.plain := by
  rw [occursIn, decide_eq_true_iff, lower, String.toList_ofList,
    ← infix_map_evenSigma round final, map_lowerFrom]

end CaseData

end DurableAgent.Python
