import Mathlib.Data.List.Nodup

/-!
# Insertion-ordered dictionaries

Entries in insertion order with pairwise distinct keys. Writing under a key
that is present replaces its value and keeps its position, as assignment to
`d[key]` does.
-/

set_option autoImplicit false

namespace DurableAgent.Library

structure OrderedDict (Key Value : Type) where
  entries : List (Key × Value)
  nodup : (entries.map Prod.fst).Nodup

namespace OrderedDict

variable {Key Value : Type}

def empty : OrderedDict Key Value := ⟨[], List.nodup_nil⟩

def values (dict : OrderedDict Key Value) : List Value := dict.entries.map Prod.snd

def size (dict : OrderedDict Key Value) : Nat := dict.entries.length

@[simp] theorem entries_empty : (empty : OrderedDict Key Value).entries = [] := rfl

@[simp] theorem values_empty : (empty : OrderedDict Key Value).values = [] := rfl

def keys (dict : OrderedDict Key Value) : List Key := dict.entries.map Prod.fst

@[simp] theorem keys_empty : (empty : OrderedDict Key Value).keys = [] := rfl

theorem keys_nodup (dict : OrderedDict Key Value) : dict.keys.Nodup := dict.nodup

theorem mem_keys_iff {dict : OrderedDict Key Value} {key : Key} :
    key ∈ dict.keys ↔ ∃ value, (key, value) ∈ dict.entries := by
  simp [keys]

theorem mem_values_iff {dict : OrderedDict Key Value} {value : Value} :
    value ∈ dict.values ↔ ∃ key, (key, value) ∈ dict.entries := by
  simp [values]

theorem value_unique {dict : OrderedDict Key Value} {key : Key} {left right : Value}
    (leftMember : (key, left) ∈ dict.entries) (rightMember : (key, right) ∈ dict.entries) :
    left = right := by
  have same := List.inj_on_of_nodup_map dict.nodup leftMember rightMember rfl
  exact congrArg Prod.snd same

theorem ext_entries {left right : OrderedDict Key Value} (same : left.entries = right.entries) :
    left = right := by
  cases left
  cases right
  congr

variable [DecidableEq Key]

def get? (dict : OrderedDict Key Value) (key : Key) : Option Value :=
  (dict.entries.find? fun entry => decide (entry.1 = key)).map Prod.snd

@[simp] theorem get?_empty (key : Key) : (empty : OrderedDict Key Value).get? key = none := rfl

theorem get?_eq_some_iff {dict : OrderedDict Key Value} {key : Key} {value : Value} :
    dict.get? key = some value ↔ (key, value) ∈ dict.entries := by
  constructor
  · intro found
    obtain ⟨entry, selected, rfl⟩ := Option.map_eq_some_iff.mp found
    have same : entry.1 = key := by simpa using List.find?_some selected
    exact same ▸ List.mem_of_find?_eq_some selected
  · intro member
    cases selected : dict.entries.find? fun entry => decide (entry.1 = key) with
    | none =>
        have excluded := List.find?_eq_none.mp selected _ member
        simp at excluded
    | some entry =>
        have same : entry.1 = key := by simpa using List.find?_some selected
        have stored : (key, entry.2) ∈ dict.entries :=
          same ▸ List.mem_of_find?_eq_some selected
        simp [get?, selected, value_unique stored member]

private def replaceOrAppend (key : Key) (value : Value) : List (Key × Value) → List (Key × Value)
  | [] => [(key, value)]
  | entry :: rest =>
      if entry.1 = key then (key, value) :: rest else entry :: replaceOrAppend key value rest

private theorem replaceOrAppend_keys (key : Key) (value : Value)
    (entries : List (Key × Value)) :
    (replaceOrAppend key value entries).map Prod.fst =
      if key ∈ entries.map Prod.fst then entries.map Prod.fst
      else entries.map Prod.fst ++ [key] := by
  induction entries with
  | nil => simp [replaceOrAppend]
  | cons entry rest ih =>
      by_cases same : entry.1 = key
      · simp [replaceOrAppend, same]
      · have different : key ≠ entry.1 := fun equal => same equal.symm
        by_cases present : key ∈ rest.map Prod.fst
        · rw [if_pos present] at ih
          simp [replaceOrAppend, same, ih, present]
        · rw [if_neg present] at ih
          have absent : key ∉ (entry :: rest).map Prod.fst := by
            simpa [different] using present
          rw [if_neg absent]
          simp [replaceOrAppend, same, ih]

private theorem mem_replaceOrAppend {key other : Key} {value written : Value}
    {entries : List (Key × Value)} (nodup : (entries.map Prod.fst).Nodup) :
    (other, value) ∈ replaceOrAppend key written entries ↔
      (other = key ∧ value = written) ∨ (other ≠ key ∧ (other, value) ∈ entries) := by
  induction entries with
  | nil =>
      simp only [replaceOrAppend, List.mem_singleton, Prod.mk.injEq, List.not_mem_nil, and_false,
        or_false]
  | cons entry rest ih =>
      rw [List.map_cons, List.nodup_cons] at nodup
      obtain ⟨fresh, restNodup⟩ := nodup
      by_cases same : entry.1 = key
      · have later : ∀ stored, (key, stored) ∉ rest := by
          intro stored member
          exact fresh (same ▸ List.mem_map.mpr ⟨_, member, rfl⟩)
        simp only [replaceOrAppend, if_pos same, List.mem_cons, Prod.mk.injEq]
        constructor
        · rintro (written | member)
          · exact .inl written
          · refine .inr ⟨?_, .inr member⟩
            rintro rfl
            exact later _ member
        · rintro (written | ⟨different, head | member⟩)
          · exact .inl written
          · exact absurd (congrArg Prod.fst head) (fun equal => different (equal.trans same))
          · exact .inr member
      · simp only [replaceOrAppend, if_neg same, List.mem_cons]
        rw [ih restNodup]
        constructor
        · rintro (head | written | ⟨different, member⟩)
          · refine .inr ⟨?_, .inl head⟩
            rintro rfl
            exact same (congrArg Prod.fst head).symm
          · exact .inl written
          · exact .inr ⟨different, .inr member⟩
        · rintro (written | ⟨different, head | member⟩)
          · exact .inr (.inl written)
          · exact .inl head
          · exact .inr (.inr ⟨different, member⟩)

/-- `dict[key] = value`. -/
def insert (dict : OrderedDict Key Value) (key : Key) (value : Value) :
    OrderedDict Key Value where
  entries := replaceOrAppend key value dict.entries
  nodup := by
    rw [replaceOrAppend_keys]
    split
    · exact dict.nodup
    · next absent =>
        rw [List.nodup_append]
        refine ⟨dict.nodup, List.nodup_singleton key, ?_⟩
        rintro stored member added single rfl
        exact absent (by simpa [List.mem_singleton.mp single] using member)

theorem mem_entries_insert {dict : OrderedDict Key Value} {key other : Key}
    {value written : Value} :
    (other, value) ∈ (dict.insert key written).entries ↔
      (other = key ∧ value = written) ∨ (other ≠ key ∧ (other, value) ∈ dict.entries) :=
  mem_replaceOrAppend dict.nodup

theorem mem_values_insert {dict : OrderedDict Key Value} {key : Key} {written value : Value}
    (member : value ∈ (dict.insert key written).values) :
    value = written ∨ value ∈ dict.values := by
  obtain ⟨other, stored⟩ := mem_values_iff.mp member
  rcases mem_entries_insert.mp stored with ⟨_, same⟩ | ⟨_, older⟩
  · exact .inl same
  · exact .inr (mem_values_iff.mpr ⟨other, older⟩)

@[simp] theorem get?_insert_self (dict : OrderedDict Key Value) (key : Key) (value : Value) :
    (dict.insert key value).get? key = some value :=
  get?_eq_some_iff.mpr (mem_entries_insert.mpr (.inl ⟨rfl, rfl⟩))

theorem get?_insert_of_ne (dict : OrderedDict Key Value) {key other : Key}
    (different : other ≠ key) (value : Value) :
    (dict.insert key value).get? other = dict.get? other := by
  apply Option.ext
  intro stored
  rw [get?_eq_some_iff, get?_eq_some_iff, mem_entries_insert]
  constructor
  · rintro (⟨same, _⟩ | ⟨_, member⟩)
    · exact absurd same different
    · exact member
  · intro member
    exact .inr ⟨different, member⟩

theorem get?_insert (dict : OrderedDict Key Value) (key other : Key) (value : Value) :
    (dict.insert key value).get? other = if other = key then some value else dict.get? other := by
  split
  · next same => rw [same, get?_insert_self]
  · next different => exact get?_insert_of_ne dict different value

theorem keys_insert (dict : OrderedDict Key Value) (key : Key) (value : Value) :
    (dict.insert key value).keys = if key ∈ dict.keys then dict.keys else dict.keys ++ [key] :=
  replaceOrAppend_keys key value dict.entries

theorem get?_isSome_iff {dict : OrderedDict Key Value} {key : Key} :
    (dict.get? key).isSome = true ↔ key ∈ dict.keys := by
  rw [Option.isSome_iff_exists, mem_keys_iff]
  exact exists_congr fun _ => get?_eq_some_iff

theorem get?_eq_none_iff {dict : OrderedDict Key Value} {key : Key} :
    dict.get? key = none ↔ key ∉ dict.keys := by
  rw [← get?_isSome_iff, Bool.not_eq_true, Option.isSome_eq_false_iff, Option.isNone_iff_eq_none]

instance [DecidableEq Value] : DecidableEq (OrderedDict Key Value) := fun left right =>
  decidable_of_iff (left.entries = right.entries) ⟨ext_entries, congrArg entries⟩

/-- A dictionary is given by the order of its keys and by what it stores under them. -/
theorem ext_get? {left right : OrderedDict Key Value} (keys : left.keys = right.keys)
    (stored : ∀ key, left.get? key = right.get? key) : left = right := by
  have entries : left.entries = right.entries := by
    have lengths := congrArg List.length keys
    simp only [OrderedDict.keys, List.length_map] at lengths
    refine List.ext_getElem lengths fun index inLeft inRight => ?_
    have key : left.entries[index].1 = right.entries[index].1 := by
      have same := congrArg (fun list => list[index]?) keys
      simpa [OrderedDict.keys, inLeft, inRight] using same
    have first : left.get? left.entries[index].1 = some left.entries[index].2 :=
      get?_eq_some_iff.mpr (List.getElem_mem inLeft)
    have second : right.get? right.entries[index].1 = some right.entries[index].2 :=
      get?_eq_some_iff.mpr (List.getElem_mem inRight)
    rw [← key, ← stored, first] at second
    exact Prod.ext key (Option.some.inj second)
  exact ext_entries entries

/-- Mutation in place of the value stored under a key; no effect without one. -/
def modify (dict : OrderedDict Key Value) (key : Key) (change : Value → Value) :
    OrderedDict Key Value :=
  match dict.get? key with
  | some value => dict.insert key (change value)
  | none => dict

theorem get?_modify (dict : OrderedDict Key Value) (key other : Key)
    (change : Value → Value) :
    (dict.modify key change).get? other =
      if other = key then (dict.get? other).map change else dict.get? other := by
  unfold modify
  split
  · next value found =>
      by_cases same : other = key
      · subst other
        simp [found]
      · rw [get?_insert_of_ne dict same, if_neg same]
  · next missing =>
      split
      · next same => simp [same, missing]
      · rfl

theorem keys_modify (dict : OrderedDict Key Value) (key : Key) (change : Value → Value) :
    (dict.modify key change).keys = dict.keys := by
  unfold modify
  split
  · next value found =>
      have known : key ∈ dict.keys := get?_isSome_iff.mp (by simp [found])
      rw [keys_insert, if_pos known]
  · rfl

/-- A change that leaves the stored value as it is leaves the dictionary as it is. -/
theorem modify_of_fixed {dict : OrderedDict Key Value} {key : Key} {change : Value → Value}
    (fixed : ∀ value, dict.get? key = some value → change value = value) :
    dict.modify key change = dict := by
  refine ext_get? (keys_modify dict key change) ?_
  intro other
  rw [get?_modify]
  split
  · next same =>
      subst same
      cases found : dict.get? other with
      | none => rfl
      | some value => simp [fixed value found]
  · rfl

/-- `dict.setdefault(key, value)`: what is stored stays. -/
def setDefault (dict : OrderedDict Key Value) (key : Key) (value : Value) :
    OrderedDict Key Value :=
  match dict.get? key with
  | some _ => dict
  | none => dict.insert key value

theorem get?_setDefault (dict : OrderedDict Key Value) (key other : Key) (value : Value) :
    (dict.setDefault key value).get? other =
      if other = key then some ((dict.get? key).getD value) else dict.get? other := by
  unfold setDefault
  split
  · next stored found =>
      split
      · next same => simp [same, found]
      · rfl
  · next missing => simp [get?_insert, missing]

/-- `dict.pop(key, None)`. -/
def erase (dict : OrderedDict Key Value) (key : Key) : OrderedDict Key Value where
  entries := dict.entries.filter fun entry => decide (entry.1 ≠ key)
  nodup := (List.filter_sublist.map _).nodup dict.nodup

theorem mem_entries_erase {dict : OrderedDict Key Value} {key other : Key} {value : Value} :
    (other, value) ∈ (dict.erase key).entries ↔ other ≠ key ∧ (other, value) ∈ dict.entries := by
  simp [erase, and_comm]

theorem get?_erase_of_ne (dict : OrderedDict Key Value) {key other : Key}
    (different : other ≠ key) : (dict.erase key).get? other = dict.get? other := by
  apply Option.ext
  intro stored
  rw [get?_eq_some_iff, get?_eq_some_iff, mem_entries_erase]
  exact and_iff_right different

end OrderedDict

end DurableAgent.Library
