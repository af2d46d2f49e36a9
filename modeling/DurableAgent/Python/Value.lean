import Mathlib.Data.List.Infix

/-!
# Python values

The values that plans, review payloads and schemas may hold, with the few
operations the program applies to them. Dictionary keys are strings, as in
the JSON these objects arrive from.
-/

set_option autoImplicit false

namespace DurableAgent.Python

/-- A float is represented by its `repr`. -/
inductive Value where
  | none
  | bool (value : Bool)
  | int (value : Int)
  | float (repr : String)
  | str (text : String)
  | list (items : List Value)
  | dict (entries : List (String × Value))

abbrev Dict := List (String × Value)

/-- The exceptions that modelled code can raise, by class. -/
inductive Exception where
  | attributeError
  | typeError
  | validationError
  deriving DecidableEq, Repr

def Dict.get? (dict : Dict) (key : String) : Option Value :=
  (dict.find? fun entry => decide (entry.1 = key)).map Prod.snd

def Dict.keys (dict : Dict) : List String := dict.map Prod.fst

/-- `pattern in text` on strings. -/
def occursIn (pattern text : String) : Bool := decide (pattern.toList <:+: text.toList)

/-- `value == text` for a string `text`. -/
def Value.isStr (value : Value) (text : String) : Bool :=
  match value with
  | .str content => decide (content = text)
  | _ => false

@[simp] theorem Value.isStr_str (content text : String) :
    (Value.str content).isStr text = decide (content = text) := rfl

theorem Value.isStr_iff {value : Value} {text : String} :
    value.isStr text = true ↔ value = .str text := by
  cases value <;> simp [Value.isStr]

theorem Value.isStr_eq_false_iff {value : Value} {text : String} :
    value.isStr text = false ↔ value ≠ .str text := by
  rw [← Bool.not_eq_true, Value.isStr_iff]

/-- Python truth value. -/
def Value.truthy : Value → Bool
  | .none => false
  | .bool value => value
  | .int value => decide (value ≠ 0)
  | .float repr => decide (repr ≠ "0.0" ∧ repr ≠ "-0.0")
  | .str text => decide (text ≠ "")
  | .list items => !items.isEmpty
  | .dict entries => !entries.isEmpty

/-- `key in container` for a string key. -/
def Value.contains (container : Value) (key : String) : Except Exception Bool :=
  match container with
  | .dict entries => .ok (entries.any fun entry => decide (entry.1 = key))
  | .list items => .ok (items.any fun item => item.isStr key)
  | .str text => .ok (occursIn key text)
  | _ => .error .typeError

/-- A value that can be searched for one key can be searched for any. -/
theorem Value.contains_total {container : Value} {key : String} {known : Bool}
    (searched : container.contains key = .ok known) (other : String) :
    ∃ found, container.contains other = .ok found := by
  cases container with
  | dict entries => exact ⟨_, rfl⟩
  | list items => exact ⟨_, rfl⟩
  | str text => exact ⟨_, rfl⟩
  | none | bool | int | float => cases searched

/-- The hashable values, those a dictionary can be asked for. -/
inductive Key where
  | none
  | bool (value : Bool)
  | int (value : Int)
  | float (repr : String)
  | str (text : String)
  deriving DecidableEq, Repr

def Value.toKey : Value → Except Exception Key
  | .none => .ok .none
  | .bool value => .ok (.bool value)
  | .int value => .ok (.int value)
  | .float repr => .ok (.float repr)
  | .str text => .ok (.str text)
  | .list _ => .error .typeError
  | .dict _ => .error .typeError

/-- `str(key)`. -/
def Key.format : Key → String
  | .none => "None"
  | .bool value => if value then "True" else "False"
  | .int value => toString value
  | .float repr => repr
  | .str text => text

end DurableAgent.Python
