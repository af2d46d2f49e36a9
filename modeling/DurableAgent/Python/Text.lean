import Mathlib.Data.List.DropRight

/-!
# Python strings

The methods of `str` that the program calls, and the conversions between
strings and integers.
-/

set_option autoImplicit false

namespace DurableAgent.Python

/-- `str.isspace` of a single character. -/
def isSpace (char : Char) : Bool :=
  let code := char.toNat
  decide ((9 ≤ code ∧ code ≤ 13) ∨ (28 ≤ code ∧ code ≤ 32) ∨ code = 133 ∨ code = 160 ∨
    code = 5760 ∨ (8192 ≤ code ∧ code ≤ 8202) ∨ code = 8232 ∨ code = 8233 ∨ code = 8239 ∨
    code = 8287 ∨ code = 12288)

def strip (text : String) : String :=
  String.ofList ((text.toList.dropWhile isSpace).rdropWhile isSpace)

/-- `text.strip(char)` for a single character. -/
def stripChar (char : Char) (text : String) : String :=
  String.ofList ((text.toList.dropWhile (· == char)).rdropWhile (· == char))

/-- The first character stays where it is no whitespace. -/
theorem strip_head? {text : String} {char : Char} (starts : text.toList.head? = some char)
    (solid : isSpace char = false) : (strip text).toList.head? = some char := by
  obtain ⟨rest, chars⟩ := List.head?_eq_some_iff.mp starts
  have front : text.toList.dropWhile isSpace = char :: rest := by
    rw [chars, List.dropWhile_cons_of_neg (by simp [solid])]
  have nonempty : (char :: rest).rdropWhile isSpace ≠ [] := by
    intro empty
    have all := List.rdropWhile_eq_nil_iff.mp empty char List.mem_cons_self
    rw [solid] at all
    cases all
  obtain ⟨first, others, kept⟩ := List.exists_cons_of_ne_nil nonempty
  have leading := List.rdropWhile_prefix isSpace (l := char :: rest)
  rw [kept] at leading
  rw [strip, String.toList_ofList, front, kept, (List.cons_prefix_cons.mp leading).1]
  rfl

/-! ## Joining and splitting -/

/-- `separator.join(parts)`. -/
def joinOn (separator : Char) (parts : List String) : String :=
  String.ofList ([separator].intercalate (parts.map String.toList))

/-- `text.split(separator)`. -/
def splitOn (separator : Char) (text : String) : List String :=
  (text.toList.splitOn separator).map String.ofList

/-- `text.split(separator, 1)` of a text with the separator. -/
def splitOnce (separator : Char) (text : String) : String × String :=
  (String.ofList (text.toList.takeWhile (· != separator)),
    String.ofList (text.toList.dropWhile (· != separator)).tail)

/-- The newlines of a file as they are read in text mode. -/
def universalNewlines : List Char → List Char
  | [] => []
  | '\r' :: '\n' :: rest => '\n' :: universalNewlines rest
  | '\r' :: rest => '\n' :: universalNewlines rest
  | char :: rest => char :: universalNewlines rest

theorem not_mem_of_mem_splitOn {separator : Char} {chars part : List Char}
    (member : part ∈ chars.splitOn separator) : separator ∉ part := by
  induction chars generalizing part with
  | nil =>
      rw [List.splitOn_nil, List.mem_singleton] at member
      subst member
      exact List.not_mem_nil
  | cons char rest ih =>
      rw [List.splitOn_cons_eq_if_modifyHead] at member
      split at member
      · rcases List.mem_cons.mp member with rfl | later
        · exact List.not_mem_nil
        · exact ih later
      · next different =>
          obtain ⟨first, others, parts⟩ :=
            List.exists_cons_of_ne_nil (List.splitOn_ne_nil separator rest)
          rw [parts, List.modifyHead_cons] at member
          rcases List.mem_cons.mp member with rfl | later
          · rw [List.mem_cons, not_or]
            refine ⟨fun same => different (by simp [same]), ih ?_⟩
            rw [parts]
            exact List.mem_cons_self
          · exact ih (parts ▸ List.mem_cons_of_mem first later)

theorem splitOn_joinOn_iff (separator : Char) (parts : List String) :
    splitOn separator (joinOn separator parts) = parts ↔
      parts ≠ [] ∧ ∀ part ∈ parts, separator ∉ part.toList := by
  constructor
  · intro restored
    refine ⟨?_, fun part member => ?_⟩
    · rintro rfl
      exact absurd (List.map_eq_nil_iff.mp restored) (List.splitOn_ne_nil _ _)
    · rw [← restored] at member
      obtain ⟨chars, split, rfl⟩ := List.mem_map.mp member
      rw [String.toList_ofList]
      exact not_mem_of_mem_splitOn split
  · rintro ⟨nonempty, apart⟩
    rw [splitOn, joinOn, String.toList_ofList, List.splitOn_intercalate, List.map_map]
    · exact (List.map_congr_left fun part _ => String.ofList_toList).trans (List.map_id parts)
    · intro chars member
      obtain ⟨part, belongs, rfl⟩ := List.mem_map.mp member
      exact apart part belongs
    · exact fun none => nonempty (List.map_eq_nil_iff.mp none)

theorem joinOn_eq_empty_iff (separator : Char) (parts : List String) :
    joinOn separator parts = "" ↔ parts = [] ∨ parts = [""] := by
  rw [joinOn, ← String.toList_eq_nil_iff, String.toList_ofList]
  match parts with
  | [] => simp
  | [part] => simp
  | first :: second :: rest => simp [List.intercalate_cons_cons]

theorem joinOn_cons (separator : Char) (part : String) {parts : List String} (more : parts ≠ []) :
    joinOn separator (part :: parts) =
      part ++ String.singleton separator ++ joinOn separator parts := by
  obtain ⟨second, rest, rfl⟩ := List.exists_cons_of_ne_nil more
  rw [← String.toList_inj]
  simp [joinOn, List.intercalate_cons_cons]

/-! ## Replacing -/

def removeFirstFrom (pattern : List Char) : List Char → List Char
  | [] => []
  | char :: rest =>
      if pattern.isPrefixOf (char :: rest) then (char :: rest).drop pattern.length
      else char :: removeFirstFrom pattern rest

/-- `text.replace(pattern, "", 1)`. -/
def removeFirst (pattern text : String) : String :=
  String.ofList (removeFirstFrom pattern.toList text.toList)

theorem removeFirst_append (pattern text : String) : removeFirst pattern (pattern ++ text) = text := by
  have chars : removeFirstFrom pattern.toList (pattern.toList ++ text.toList) = text.toList := by
    unfold removeFirstFrom
    split
    · next empty => exact (List.append_eq_nil_iff.mp empty).2.symm
    · next char rest starts =>
        have leading : pattern.toList.isPrefixOf (char :: rest) = true := by
          rw [← starts, List.isPrefixOf_iff_prefix]
          exact List.prefix_append _ _
        rw [if_pos leading, ← starts, List.drop_left]
  rw [removeFirst, String.toList_append, chars, String.ofList_toList]

/-- `text.split()`. -/
def splitWhitespace (text : String) : List String :=
  ((text.toList.splitOnP isSpace).filter (· ≠ [])).map String.ofList

/-! ## Integers as text -/

/-- Where the decimal digits of each script begin. -/
def decimalZeros : List Nat :=
  [48, 1632, 1776, 1984, 2406, 2534, 2662, 2790, 2918, 3046, 3174, 3302, 3430, 3558, 3664, 3792,
    3872, 4160, 4240, 6112, 6160, 6470, 6608, 6784, 6800, 6992, 7088, 7232, 7248, 42528, 43216,
    43264, 43472, 43504, 43600, 44016, 65296, 66720, 68912, 69734, 69872, 69942, 70096, 70384,
    70736, 70864, 71248, 71360, 71472, 71904, 72016, 72784, 73040, 73120, 92768, 92864, 93008,
    120782, 120792, 120802, 120812, 120822, 123200, 123632, 125264, 130032]

def decimalValue (char : Char) : Option Nat :=
  (decimalZeros.find? fun start => decide (start ≤ char.toNat ∧ char.toNat < start + 10)).map
    fun start => char.toNat - start

/-- The whitespace that may surround a number leaves out the four ASCII separators. -/
def isNumberSpace (char : Char) : Bool :=
  isSpace char && !decide (28 ≤ char.toNat ∧ char.toNat ≤ 31)

/-- `sys.int_info.default_max_str_digits`. -/
def maxStrDigits : Nat := 4300

/-- Decimal digits, with single underscores between them. -/
def unsignedOf (chars : List Char) : Option Nat :=
  let groups := chars.splitOn '_'
  if [] ∈ groups then none
  else do
    let values ← groups.flatten.mapM decimalValue
    if maxStrDigits < values.length then none
    else some (values.foldl (fun number value => 10 * number + value) 0)

/-- `int(text)`, where it raises no `ValueError`. -/
def intOf (text : String) : Option Int :=
  match (text.toList.dropWhile isNumberSpace).rdropWhile isNumberSpace with
  | '-' :: digits => (unsignedOf digits).map fun number => -Int.ofNat number
  | '+' :: digits => (unsignedOf digits).map Int.ofNat
  | digits => (unsignedOf digits).map Int.ofNat

/-- `str(number)`, where it raises no `ValueError`. -/
def intStr (number : Int) : Option String :=
  if maxStrDigits < number.natAbs.repr.length then none
  else some (if number < 0 then "-" ++ number.natAbs.repr else number.natAbs.repr)

theorem intStr_isSome_iff (number : Int) :
    (intStr number).isSome = true ↔ number.natAbs.repr.length ≤ maxStrDigits := by
  rw [intStr]
  split
  · next long => simpa using long
  · next short => simpa using short

private theorem digit_code {char : Char} (digit : char.isDigit = true) :
    48 ≤ char.toNat ∧ char.toNat ≤ 57 :=
  Char.isDigit_iff_toNat.mp digit

theorem decimalValue_of_isDigit {char : Char} (digit : char.isDigit = true) :
    decimalValue char = some (char.toNat - 48) := by
  obtain ⟨low, high⟩ := digit_code digit
  have ascii : decimalZeros.find?
      (fun start => decide (start ≤ char.toNat ∧ char.toNat < start + 10)) = some 48 :=
    List.find?_cons_of_pos (decide_eq_true ⟨low, by omega⟩)
  rw [decimalValue, ascii, Option.map_some]

theorem isNumberSpace_of_isDigit {char : Char} (digit : char.isDigit = true) :
    isNumberSpace char = false := by
  obtain ⟨low, high⟩ := digit_code digit
  have printed : isSpace char = false := decide_eq_false (by omega)
  rw [isNumberSpace, printed, Bool.false_and]

theorem mapM_decimalValue {digits : List Char} (decimal : ∀ char ∈ digits, char.isDigit = true) :
    digits.mapM decimalValue = some (digits.map fun char => char.toNat - 48) := by
  induction digits with
  | nil => rfl
  | cons char rest ih =>
      rw [List.mapM_cons, decimalValue_of_isDigit (decimal char List.mem_cons_self),
        ih fun other member => decimal other (List.mem_cons_of_mem char member)]
      rfl

theorem unsignedOf_digits {digits : List Char} (decimal : ∀ char ∈ digits, char.isDigit = true)
    (nonempty : digits ≠ []) (short : digits.length ≤ maxStrDigits) :
    unsignedOf digits = some (Nat.ofDigitChars 10 digits 0) := by
  have plain : '_' ∉ digits := fun member => by simpa using decimal '_' member
  have group : [] ∉ [digits] := fun member => nonempty (List.mem_singleton.mp member).symm
  have counted : ¬ maxStrDigits < (digits.map fun char => char.toNat - 48).length := by
    rw [List.length_map]
    omega
  simp only [unsignedOf, List.splitOn_eq_singleton plain, if_neg group, List.flatten_singleton,
    mapM_decimalValue decimal, Option.bind_eq_bind, Option.bind_some, if_neg counted,
    List.foldl_map, Nat.ofDigitChars_eq_foldl]
  rfl

theorem trimmed_eq {chars : List Char} (unspaced : ∀ char ∈ chars, isNumberSpace char = false) :
    (chars.dropWhile isNumberSpace).rdropWhile isNumberSpace = chars := by
  have front : chars.dropWhile isNumberSpace = chars :=
    List.dropWhile_eq_self_iff.mpr fun bound => by
      simp [unspaced _ (List.getElem_mem bound)]
  rw [front, List.rdropWhile_eq_self_iff]
  intro nonempty
  simp [unspaced _ (List.getLast_mem nonempty)]

section Digits

variable {text : String} {number : Nat}
  (decimal : ∀ char ∈ text.toList, char.isDigit = true)
  (read : unsignedOf text.toList = some number)

include decimal read

theorem intOf_digits : intOf text = some (number : Int) := by
  rw [intOf, trimmed_eq fun char member => isNumberSpace_of_isDigit (decimal char member)]
  split
  · next digits chars => simpa using decimal '-' (chars ▸ List.mem_cons_self)
  · next digits chars => simpa using decimal '+' (chars ▸ List.mem_cons_self)
  · rw [read]
    rfl

theorem intOf_minus_digits : intOf ("-" ++ text) = some (-(number : Int)) := by
  have chars : ("-" ++ text).toList = '-' :: text.toList := by simp
  rw [intOf, chars, trimmed_eq]
  · simp only [read]
    rfl
  · intro char member
    rcases List.mem_cons.mp member with rfl | digit
    · decide
    · exact isNumberSpace_of_isDigit (decimal char digit)

end Digits

theorem repr_injective {left right : Nat} (same : left.repr = right.repr) : left = right := by
  have digits := congrArg String.toList same
  rw [Nat.toList_repr, Nat.toList_repr] at digits
  calc left = Nat.ofDigitChars 10 (Nat.toDigits 10 left) 0 := Nat.ofDigitChars_ten_toDigits.symm
    _ = Nat.ofDigitChars 10 (Nat.toDigits 10 right) 0 := by rw [digits]
    _ = right := Nat.ofDigitChars_ten_toDigits

theorem isDigit_of_mem_repr {number : Nat} {char : Char} (member : char ∈ number.repr.toList) :
    char.isDigit = true := by
  rw [Nat.toList_repr] at member
  exact Nat.isDigit_of_mem_toDigits (by decide) (by decide) member

theorem unsignedOf_repr {number : Nat} (short : number.repr.length ≤ maxStrDigits) :
    unsignedOf number.repr.toList = some number := by
  rw [unsignedOf_digits fun _ => isDigit_of_mem_repr, Nat.toList_repr,
    Nat.ofDigitChars_ten_toDigits]
  · rw [Nat.toList_repr]
    exact Nat.toDigits_ne_nil
  · rwa [String.length_toList]

theorem intOf_intStr {number : Int} {text : String} (printed : intStr number = some text) :
    intOf text = some number := by
  rw [intStr] at printed
  split at printed
  · cases printed
  · next short =>
      have read := unsignedOf_repr (Nat.le_of_not_lt short)
      rw [Option.some.injEq] at printed
      subst printed
      split
      · next negative =>
          rw [intOf_minus_digits (fun _ => isDigit_of_mem_repr) read]
          congr 1
          omega
      · next positive =>
          rw [intOf_digits (fun _ => isDigit_of_mem_repr) read]
          congr 1
          omega

end DurableAgent.Python
