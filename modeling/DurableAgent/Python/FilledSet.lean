import Mathlib.Data.List.Nodup
import Mathlib.Data.List.Perm.Subperm

/-!
# Python sets

A set keeps no order of its members, but the order in which it is iterated may depend on the
order in which they were added.
-/

set_option autoImplicit false

namespace DurableAgent.Python

/-- The members of a set in the order in which they were first added. -/
structure FilledSet (α : Type) where
  added : List α
  nodup : added.Nodup
  deriving DecidableEq

namespace FilledSet

variable {α : Type}

instance : Membership α (FilledSet α) where
  mem set item := item ∈ set.added

instance : EmptyCollection (FilledSet α) where
  emptyCollection := ⟨[], List.nodup_nil⟩

@[simp]
theorem notMem_empty (item : α) : item ∉ (∅ : FilledSet α) := List.not_mem_nil

theorem eq_empty_iff {set : FilledSet α} : set = ∅ ↔ ∀ item, item ∉ set := by
  constructor
  · rintro rfl
    exact notMem_empty
  · intro none
    obtain ⟨added, nodup⟩ := set
    have empty : added = [] := List.eq_nil_iff_forall_not_mem.mpr none
    subst empty
    rfl

theorem ne_empty_of_mem {set : FilledSet α} {item : α} (member : item ∈ set) : set ≠ ∅ :=
  fun empty => eq_empty_iff.mp empty item member

def card (set : FilledSet α) : Nat := set.added.length

theorem card_le {left right : FilledSet α} (subset : ∀ item ∈ left, item ∈ right) :
    left.card ≤ right.card :=
  (List.subperm_of_subset left.nodup subset).length_le

theorem card_lt {left right : FilledSet α} (subset : ∀ item ∈ left, item ∈ right) {item : α}
    (member : item ∈ right) (fresh : item ∉ left) : left.card < right.card := by
  have grown : (item :: left.added).Nodup := List.nodup_cons.mpr ⟨fresh, left.nodup⟩
  exact (List.subperm_of_subset grown (List.cons_subset.mpr ⟨member, subset⟩)).length_le

variable [DecidableEq α]

instance (item : α) (set : FilledSet α) : Decidable (item ∈ set) :=
  inferInstanceAs (Decidable (item ∈ set.added))

def add (set : FilledSet α) (item : α) : FilledSet α :=
  if known : item ∈ set.added then set
  else ⟨set.added ++ [item], List.concat_eq_append ▸ set.nodup.concat known⟩

theorem add_of_mem {set : FilledSet α} {item : α} (member : item ∈ set) : set.add item = set :=
  dif_pos member

theorem added_add {set : FilledSet α} {item : α} (fresh : item ∉ set) :
    (set.add item).added = set.added ++ [item] := by
  have absent : item ∉ set.added := fresh
  rw [add, dif_neg absent]

theorem mem_add {set : FilledSet α} {item other : α} :
    other ∈ set.add item ↔ other = item ∨ other ∈ set := by
  by_cases known : item ∈ set
  · rw [add_of_mem known]
    exact (or_iff_right_of_imp fun same => same ▸ known).symm
  · have members : other ∈ set.add item ↔ other ∈ set.added ++ [item] := by
      rw [← added_add known]
      rfl
    rw [members, List.mem_append, List.mem_singleton, or_comm]
    rfl

theorem add_add (set : FilledSet α) (item : α) : (set.add item).add item = set.add item :=
  add_of_mem (mem_add.mpr (.inl rfl))

/-- A set with the items of a list added. -/
def fill (set : FilledSet α) (items : List α) : FilledSet α := items.foldl add set

theorem mem_fill {set : FilledSet α} {items : List α} {item : α} :
    item ∈ set.fill items ↔ item ∈ set ∨ item ∈ items := by
  unfold fill
  induction items generalizing set with
  | nil => simp
  | cons head rest ih =>
      rw [List.foldl_cons, ih, mem_add, List.mem_cons]
      grind

theorem added_fill {set : FilledSet α} {items : List α} (distinct : (set.added ++ items).Nodup) :
    (set.fill items).added = set.added ++ items := by
  unfold fill
  induction items generalizing set with
  | nil => simp
  | cons head rest ih =>
      have fresh : head ∉ set := fun member =>
        List.disjoint_of_nodup_append distinct member List.mem_cons_self
      have grown : (set.add head).added ++ rest = set.added ++ head :: rest := by
        rw [added_add fresh, List.append_assoc, List.singleton_append]
      rw [List.foldl_cons, ih (grown ▸ distinct), grown]

end FilledSet

end DurableAgent.Python
