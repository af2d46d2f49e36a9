import DurableAgent.Python.Text
import DurableAgent.Python.Unicode

/-!
# Tokens

`retrieval/tokenizer.py`. The tokens of a text are those of its parts where a space
stands between them.
-/

set_option autoImplicit false

namespace DurableAgent.Retrieval

open Python

namespace SimpleTokenizer

variable (data : UnicodeData)

/-- What the pattern `[^\w\s\(\),-]` leaves. -/
def isKept (char : Char) : Bool :=
  data.isWord char || isSpace char || decide (char ∈ ['(', ')', ',', '-'])

def cleaned (text : String) : String :=
  String.ofList ((data.lower text).toList.filter (isKept data))

/-- A token, followed by its parts if it is hyphenated. -/
def withParts (token : String) : List String :=
  if token = "" then []
  else if '-' ∈ token.toList then token :: (splitOn '-' token).filter (· ≠ "")
  else [token]

def tokenize (text : String) : List String :=
  if text = "" then [] else (splitWhitespace (cleaned data text)).flatMap withParts

theorem tokenize_eq (text : String) :
    tokenize data text = (splitWhitespace (cleaned data text)).flatMap withParts := by
  by_cases empty : text = ""
  · have nothing : cleaned data "" = "" := rfl
    have none : splitWhitespace "" = [] := rfl
    rw [tokenize, if_pos empty, empty, nothing, none, List.flatMap_nil]
  · rw [tokenize, if_neg empty]

theorem cleaned_space (left right : String) :
    cleaned data (left ++ " " ++ right) = cleaned data left ++ " " ++ cleaned data right := by
  have kept : isKept data ' ' = true := rfl
  rw [← String.toList_inj]
  simp [cleaned, data.lower_space, kept]

theorem splitWhitespace_space (left right : String) :
    splitWhitespace (left ++ " " ++ right) = splitWhitespace left ++ splitWhitespace right := by
  have parts : (left ++ " " ++ right).toList = left.toList ++ ' ' :: right.toList := by simp
  have space : isSpace ' ' = true := rfl
  rw [splitWhitespace, parts, List.splitOnP_append_cons _ _ space, List.filter_append,
    List.map_append]
  rfl

theorem tokenize_space (left right : String) :
    tokenize data (left ++ " " ++ right) = tokenize data left ++ tokenize data right := by
  simp only [tokenize_eq, cleaned_space, splitWhitespace_space, List.flatMap_append]

theorem tokenize_point (text : String) : tokenize data (text ++ ".") = tokenize data text := by
  have dropped : isKept data '.' = false := rfl
  simp [tokenize_eq, cleaned, data.lower_point, dropped]

theorem tokenize_joinOn (parts : List String) :
    tokenize data (joinOn ' ' parts) = parts.flatMap (tokenize data) := by
  induction parts with
  | nil => rfl
  | cons part rest ih =>
      by_cases more : rest = []
      · simp [more, joinOn]
      · have space : String.singleton ' ' = " " := rfl
        rw [joinOn_cons ' ' part more, space, tokenize_space, ih, List.flatMap_cons]

theorem isKept_ascii {char : Char} (ascii : char.toNat < 128) (other : UnicodeData) :
    isKept data char = isKept other char := by
  simp only [isKept, UnicodeData.isWord, if_pos ascii]

theorem toLower_ascii {char : Char} (ascii : char.toNat < 128) : char.toLower.toNat < 128 := by
  have table : ∀ code < 128, (Char.ofNat code).toLower.toNat < 128 := by decide +kernel
  have lowered := table char.toNat ascii
  rwa [Char.ofNat_toNat] at lowered

/-- The tokens of an ASCII text do not depend on the Unicode data. -/
theorem tokenize_ascii {text : String}
    (ascii : text.toList.all (fun char => decide (char.toNat < 128)) = true)
    (other : UnicodeData) : tokenize data text = tokenize other text := by
  have same : cleaned data text = cleaned other text := by
    rw [cleaned, cleaned, data.lower_ascii ascii, other.lower_ascii ascii]
    congr 1
    refine List.filter_congr fun char member => ?_
    obtain ⟨original, within, rfl⟩ := List.mem_map.mp member
    have small := List.all_eq_true.mp ascii original within
    exact isKept_ascii data (toLower_ascii (of_decide_eq_true small)) other
  rw [tokenize_eq, tokenize_eq, same]

end SimpleTokenizer

end DurableAgent.Retrieval
