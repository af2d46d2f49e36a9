import Mathlib.Data.List.Nodup

/-!
# Tables with two unique columns

Rows with a primary key and a second unique key. An insertion under a key
that is present merges into the row there and leaves both of its keys alone;
otherwise an insertion fails if its primary key is taken.
-/

set_option autoImplicit false

namespace DurableAgent.Library

/-- How rows are identified, and how one that is present takes up another. -/
structure TableSchema (Row Id Key : Type) where
  identify : Row → Id
  locate : Row → Key
  merge : Row → Row → Row
  identify_merge : ∀ old row, identify (merge old row) = identify old
  locate_merge : ∀ old row, locate (merge old row) = locate old

@[ext] structure UniqueTable {Row Id Key : Type} (schema : TableSchema Row Id Key) where
  rows : List Row
  idsDistinct : (rows.map schema.identify).Nodup
  keysDistinct : (rows.map schema.locate).Nodup

namespace UniqueTable

variable {Row Id Key : Type} {schema : TableSchema Row Id Key}

def empty : UniqueTable schema := ⟨[], List.nodup_nil, List.nodup_nil⟩

def Holds (table : UniqueTable schema) (id : Id) : Prop :=
  ∃ row ∈ table.rows, schema.identify row = id

instance [DecidableEq Id] (table : UniqueTable schema) (id : Id) :
    Decidable (table.Holds id) :=
  inferInstanceAs (Decidable (∃ row ∈ table.rows, schema.identify row = id))

theorem row_unique {table : UniqueTable schema} {left right : Row} (leftMember : left ∈ table.rows)
    (rightMember : right ∈ table.rows) (same : schema.locate left = schema.locate right) :
    left = right :=
  List.inj_on_of_nodup_map table.keysDistinct leftMember rightMember same

theorem row_unique_id {table : UniqueTable schema} {left right : Row}
    (leftMember : left ∈ table.rows) (rightMember : right ∈ table.rows)
    (same : schema.identify left = schema.identify right) : left = right :=
  List.inj_on_of_nodup_map table.idsDistinct leftMember rightMember same

/-- The rows whose key satisfies a predicate. -/
def restrict (table : UniqueTable schema) (within : Key → Bool) : UniqueTable schema where
  rows := table.rows.filter fun row => within (schema.locate row)
  idsDistinct := table.idsDistinct.sublist (List.filter_sublist.map _)
  keysDistinct := table.keysDistinct.sublist (List.filter_sublist.map _)

@[simp] theorem mem_restrict {table : UniqueTable schema} {within : Key → Bool} {row : Row} :
    row ∈ (table.restrict within).rows ↔
      row ∈ table.rows ∧ within (schema.locate row) = true := by
  simp [restrict]

variable [DecidableEq Key]

def find? (table : UniqueTable schema) (key : Key) : Option Row :=
  table.rows.find? fun row => decide (schema.locate row = key)

theorem find?_eq_some_iff {table : UniqueTable schema} {key : Key} {row : Row} :
    table.find? key = some row ↔ row ∈ table.rows ∧ schema.locate row = key := by
  constructor
  · intro found
    exact ⟨List.mem_of_find?_eq_some found, by simpa using List.find?_some found⟩
  · rintro ⟨member, located⟩
    cases selected : table.find? key with
    | none =>
        have excluded := List.find?_eq_none.mp selected row member
        simp [located] at excluded
    | some other =>
        have same : schema.locate other = key := by simpa using List.find?_some selected
        rw [row_unique (List.mem_of_find?_eq_some selected) member (same.trans located.symm)]

theorem find?_eq_none_iff {table : UniqueTable schema} {key : Key} :
    table.find? key = none ↔ ∀ row ∈ table.rows, schema.locate row ≠ key := by
  simp [find?]

theorem find?_restrict (table : UniqueTable schema) {within : Key → Bool} {key : Key}
    (inside : within key = true) : (table.restrict within).find? key = table.find? key := by
  cases found : table.find? key with
  | none =>
      rw [find?_eq_none_iff] at found ⊢
      exact fun row member => found row (mem_restrict.mp member).1
  | some row =>
      rw [find?_eq_some_iff] at found ⊢
      obtain ⟨member, rfl⟩ := found
      exact ⟨mem_restrict.mpr ⟨member, inside⟩, rfl⟩

/-- A row of the table after an insertion under a key that is present. -/
def mergeAt (schema : TableSchema Row Id Key) (row old : Row) : Row :=
  if schema.locate old = schema.locate row then schema.merge old row else old

@[simp] theorem identify_mergeAt (row old : Row) :
    schema.identify (mergeAt schema row old) = schema.identify old := by
  unfold mergeAt
  split
  · exact schema.identify_merge old row
  · rfl

@[simp] theorem locate_mergeAt (row old : Row) :
    schema.locate (mergeAt schema row old) = schema.locate old := by
  unfold mergeAt
  split
  · exact schema.locate_merge old row
  · rfl

def mergeRow (table : UniqueTable schema) (row : Row) : UniqueTable schema where
  rows := table.rows.map (mergeAt schema row)
  idsDistinct := by simpa [Function.comp_def] using table.idsDistinct
  keysDistinct := by simpa [Function.comp_def] using table.keysDistinct

def appendRow (table : UniqueTable schema) (row : Row)
    (absent : table.find? (schema.locate row) = none)
    (free : ¬ table.Holds (schema.identify row)) : UniqueTable schema where
  rows := table.rows ++ [row]
  idsDistinct := by
    rw [List.map_append]
    refine table.idsDistinct.append (List.nodup_singleton _) ?_
    simp only [List.map_cons, List.map_nil, List.disjoint_singleton]
    intro taken
    exact free (List.mem_map.mp taken)
  keysDistinct := by
    rw [List.map_append]
    refine table.keysDistinct.append (List.nodup_singleton _) ?_
    simp only [List.map_cons, List.map_nil, List.disjoint_singleton]
    intro present
    obtain ⟨old, member, located⟩ := List.mem_map.mp present
    exact find?_eq_none_iff.mp absent old member located

theorem find?_mergeRow (table : UniqueTable schema) (row : Row) (key : Key) :
    (table.mergeRow row).find? key = (table.find? key).map (mergeAt schema row) := by
  simp only [find?, mergeRow, List.find?_map, Function.comp_def, locate_mergeAt]

theorem find?_appendRow {table : UniqueTable schema} {row : Row}
    (absent : table.find? (schema.locate row) = none)
    (free : ¬ table.Holds (schema.identify row)) (key : Key) :
    (table.appendRow row absent free).find? key =
      if schema.locate row = key then some row else table.find? key := by
  split
  · next located =>
      exact find?_eq_some_iff.mpr ⟨List.mem_append_right _ (List.mem_singleton_self row), located⟩
  · next elsewhere => simp [find?, appendRow, List.find?_append, elsewhere]

theorem restrict_mergeRow (table : UniqueTable schema) (row : Row) (within : Key → Bool) :
    (table.mergeRow row).restrict within = (table.restrict within).mergeRow row := by
  ext1
  simp only [restrict, mergeRow, List.filter_map, Function.comp_def, locate_mergeAt]

theorem mergeRow_of_absent {table : UniqueTable schema} {row : Row}
    (absent : table.find? (schema.locate row) = none) : table.mergeRow row = table := by
  ext1
  have unmerged : ∀ old ∈ table.rows, mergeAt schema row old = id old := fun old member =>
    if_neg (find?_eq_none_iff.mp absent old member)
  exact (List.map_congr_left unmerged).trans (List.map_id table.rows)

theorem restrict_appendRow {table : UniqueTable schema} {row : Row}
    (absent : table.find? (schema.locate row) = none)
    (free : ¬ table.Holds (schema.identify row)) (within : Key → Bool) :
    ((table.appendRow row absent free).restrict within).rows =
      if within (schema.locate row) then (table.restrict within).rows ++ [row]
      else (table.restrict within).rows := by
  split
  · next inside => simp [restrict, appendRow, List.filter_append, inside]
  · next outside => simp [restrict, appendRow, List.filter_append, outside]

variable [DecidableEq Id]

/-- Inserts a row, or merges it into the one with its key. -/
def upsert (table : UniqueTable schema) (row : Row) : Option (UniqueTable schema) :=
  if absent : table.find? (schema.locate row) = none then
    if taken : table.Holds (schema.identify row) then none
    else some (table.appendRow row absent taken)
  else some (table.mergeRow row)

theorem upsert_of_present {table : UniqueTable schema} {row : Row}
    (present : table.find? (schema.locate row) ≠ none) :
    table.upsert row = some (table.mergeRow row) :=
  dif_neg present

theorem upsert_of_taken {table : UniqueTable schema} {row : Row}
    (absent : table.find? (schema.locate row) = none)
    (taken : table.Holds (schema.identify row)) : table.upsert row = none := by
  rw [upsert, dif_pos absent, dif_pos taken]

theorem upsert_of_free {table : UniqueTable schema} {row : Row}
    (absent : table.find? (schema.locate row) = none)
    (free : ¬ table.Holds (schema.identify row)) :
    table.upsert row = some (table.appendRow row absent free) := by
  rw [upsert, dif_pos absent, dif_neg free]

theorem upsert_eq_none_iff {table : UniqueTable schema} {row : Row} :
    table.upsert row = none ↔
      table.find? (schema.locate row) = none ∧ table.Holds (schema.identify row) := by
  constructor
  · intro failed
    by_cases absent : table.find? (schema.locate row) = none
    · by_cases taken : table.Holds (schema.identify row)
      · exact ⟨absent, taken⟩
      · rw [upsert_of_free absent taken] at failed
        cases failed
    · rw [upsert_of_present absent] at failed
      cases failed
  · rintro ⟨absent, taken⟩
    exact upsert_of_taken absent taken

/-- Everything an insertion that succeeds can do. -/
theorem upsert_eq_some {table next : UniqueTable schema} {row : Row}
    (inserted : table.upsert row = some next) :
    (table.find? (schema.locate row) ≠ none ∧ next = table.mergeRow row) ∨
      ∃ absent free, next = table.appendRow row absent free := by
  by_cases absent : table.find? (schema.locate row) = none
  · by_cases taken : table.Holds (schema.identify row)
    · rw [upsert_of_taken absent taken] at inserted
      cases inserted
    · rw [upsert_of_free absent taken] at inserted
      exact .inr ⟨absent, taken, (Option.some.inj inserted).symm⟩
  · rw [upsert_of_present absent] at inserted
    exact .inl ⟨absent, (Option.some.inj inserted).symm⟩

/-! ## Reading after an insertion -/

theorem find?_upsert {table next : UniqueTable schema} {row : Row}
    (inserted : table.upsert row = some next) (key : Key) :
    next.find? key =
      if schema.locate row = key then
        some ((table.find? key).elim row fun old => schema.merge old row)
      else table.find? key := by
  obtain ⟨present, rfl⟩ | ⟨absent, free, rfl⟩ := upsert_eq_some inserted
  · rw [find?_mergeRow]
    cases found : table.find? key with
    | none =>
        rw [if_neg, Option.map_none]
        rintro rfl
        exact present found
    | some old =>
        obtain ⟨-, rfl⟩ := find?_eq_some_iff.mp found
        rw [Option.map_some, mergeAt, Option.elim_some]
        by_cases same : schema.locate old = schema.locate row
        · rw [if_pos same, if_pos same.symm]
        · rw [if_neg same, if_neg fun equal => same equal.symm]
  · rw [find?_appendRow]
    split
    · next located => rw [← located, absent, Option.elim_none]
    · rfl

/-! ## Restricting to some of the keys -/

theorem restrict_upsert_outside {table next : UniqueTable schema} {row : Row}
    {within : Key → Bool} (outside : within (schema.locate row) = false)
    (inserted : table.upsert row = some next) : next.restrict within = table.restrict within := by
  obtain ⟨-, rfl⟩ | ⟨absent, free, rfl⟩ := upsert_eq_some inserted
  · rw [restrict_mergeRow]
    refine mergeRow_of_absent (find?_eq_none_iff.mpr fun old member same => ?_)
    rw [mem_restrict, same, outside] at member
    cases member.2
  · ext1
    rw [restrict_appendRow, if_neg (by simp [outside])]

/-- An insertion under one of the keys, unless its primary key is taken elsewhere. -/
theorem restrict_upsert_inside {table : UniqueTable schema} {row : Row} {within : Key → Bool}
    (inside : within (schema.locate row) = true)
    (apart : table.find? (schema.locate row) = none → table.Holds (schema.identify row) →
      (table.restrict within).Holds (schema.identify row)) :
    (table.upsert row).map (fun next => next.restrict within) =
      (table.restrict within).upsert row := by
  have found := find?_restrict table inside
  by_cases absent : table.find? (schema.locate row) = none
  · rw [absent] at found
    by_cases taken : table.Holds (schema.identify row)
    · rw [upsert_of_taken absent taken, upsert_of_taken found (apart absent taken)]
      rfl
    · have free : ¬ (table.restrict within).Holds (schema.identify row) := by
        rintro ⟨old, member, identified⟩
        exact taken ⟨old, (mem_restrict.mp member).1, identified⟩
      rw [upsert_of_free absent taken, upsert_of_free found free, Option.map_some]
      congr 1
      ext1
      rw [restrict_appendRow, if_pos inside]
      rfl
  · rw [upsert_of_present absent, upsert_of_present (by rwa [found]), Option.map_some,
      restrict_mergeRow]

end UniqueTable

end DurableAgent.Library
