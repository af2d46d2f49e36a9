import DurableAgent.Context.Accounts

/-!
# What pruning removes

The second rule of the pruner removes the items of lowest priority, down to a
limit on their number; it removes nothing at all where the protected items alone
reach the limit.
-/

set_option autoImplicit false

namespace DurableAgent.Context

open ContextAssembler (isSystem)

namespace ContextPruner

/-- What the first rule leaves. -/
def survivors (maxAge stalePriorityThreshold : Int) (items : List ContextItem) :
    List ContextItem :=
  items.filter fun item => !stale maxAge stalePriorityThreshold item

/-- The number of items that no rule removes for their priority. -/
def protectedCount (items : List ContextItem) : Nat := items.countP isSystem

/-- The second rule leaves the items of highest priority, so many as the limit or the
protected items allow. -/
structure CutsByPriority (limit : Nat) (retained kept : List ContextItem) : Prop where
  bounded : limit < retained.length → kept.length ≤ max limit (protectedCount kept)
  removed : ∃ removed, (kept ++ removed).Perm retained ∧
    (∀ item ∈ removed, item.priority < 100) ∧
    ∀ item ∈ kept, ∀ other ∈ removed, other.priority ≤ item.priority

/-- What `prune` promises. -/
structure Prunes (maxAge stalePriorityThreshold : Int) (limit : Nat) (items : List ContextItem)
    (result : List ContextItem × Nat) : Prop where
  cuts : CutsByPriority limit (survivors maxAge stalePriorityThreshold items) result.1
  counts : ∃ missing, (result.1 ++ missing).Perm items ∧ missing.length = result.2

section Cutting

variable {retained : List ContextItem}

theorem filter_high_append_low {items : List ContextItem} (sorted : Descending items) :
    items.filter isSystem ++ items.filter (fun item => !isSystem item) = items := by
  induction items with
  | nil => rfl
  | cons item rest ih =>
      obtain ⟨above, later⟩ := List.pairwise_cons.mp sorted
      cases high : isSystem item with
      | true => simp [high, ih later]
      | false =>
          have low : ∀ other ∈ rest, isSystem other = false := by
            intro other member
            have less := above other member
            simp only [isSystem, decide_eq_false_iff_not] at high ⊢
            omega
          have none : rest.filter isSystem = [] := by
            simpa [List.filter_eq_nil_iff] using low
          have all : rest.filter (fun item => !isSystem item) = rest := by
            simpa [List.filter_eq_self] using low
          simp [high, none, all]

theorem cutLowPriority_of_few {limit : Nat} (few : retained.length ≤ limit) :
    cutLowPriority limit retained = (retained, 0) := by
  unfold cutLowPriority
  rw [if_neg (by omega)]

theorem protectedCount_perm {items others : List ContextItem} (same : items.Perm others) :
    protectedCount items = protectedCount others := same.countP_eq _

theorem protected_length (items : List ContextItem) :
    (items.filter isSystem).length = protectedCount items := List.countP_eq_length_filter.symm

/-- Where more items are left than the limit allows, the first of them are kept, unless
the protected ones alone reach the limit. -/
theorem cutLowPriority_of_many {limit : Nat} (many : limit < retained.length) :
    (cutLowPriority limit retained).1 =
      if protectedCount retained < limit then (sortByPriority retained).take limit
      else sortByPriority retained := by
  have sorted := sortByPriority_descending retained
  have parts := filter_high_append_low sorted
  have count := protectedCount_perm (sortByPriority_perm retained)
  have high := protected_length (sortByPriority retained)
  rw [count] at high
  unfold cutLowPriority
  rw [if_pos (by exact_mod_cast many)]
  dsimp only
  have system : (sortByPriority retained).filter (fun item => decide (100 ≤ item.priority)) =
      (sortByPriority retained).filter isSystem := rfl
  have others : (sortByPriority retained).filter (fun item => decide (item.priority < 100)) =
      (sortByPriority retained).filter fun item => !isSystem item := filter_low _
  rw [others, system, high]
  by_cases room : protectedCount retained < limit
  · rw [if_pos room, if_pos (by omega)]
    have cut : (limit - protectedCount retained : Int).toNat = limit - protectedCount retained := by
      omega
    have kept : (sortByPriority retained).filter isSystem ++
        ((sortByPriority retained).filter fun item => !isSystem item).take
          (limit - protectedCount retained) = (sortByPriority retained).take limit := by
      have whole : ((sortByPriority retained).filter isSystem).take limit =
          (sortByPriority retained).filter isSystem := List.take_of_length_le (by omega)
      conv => rhs; rw [← parts]
      rw [List.take_append, high, whole]
    rw [cut, kept]
    exact List.Pairwise.insertionSort_eq (sorted.sublist (List.take_sublist _ _))
  · rw [if_neg room, if_neg (by omega), parts]
    exact List.Pairwise.insertionSort_eq sorted

/-- What the limit takes off a sorted list, where it leaves room for the protected items. -/
theorem removed_of_room {sorted : List ContextItem} {limit : Nat} (descending : Descending sorted)
    (room : protectedCount sorted ≤ limit) :
    (∀ item ∈ sorted.drop limit, item.priority < 100) ∧
      ∀ item ∈ sorted.take limit, ∀ other ∈ sorted.drop limit, other.priority ≤ item.priority := by
  constructor
  · have high := protected_length sorted
    have parts := filter_high_append_low descending
    have behind : sorted.drop limit =
        (sorted.filter fun item => !isSystem item).drop (limit - protectedCount sorted) := by
      conv => lhs; rw [← parts]
      rw [List.drop_append, high, List.drop_of_length_le (by omega), List.nil_append]
    intro item member
    rw [behind] at member
    have low := (List.mem_filter.mp (List.mem_of_mem_drop member)).2
    simpa [isSystem] using low
  · have split : Descending (sorted.take limit ++ sorted.drop limit) := by
      rwa [List.take_append_drop]
    exact (List.pairwise_append.mp split).2.2

theorem cutLowPriority_removed (limit : Nat) (retained : List ContextItem) :
    ∃ removed, ((cutLowPriority limit retained).1 ++ removed).Perm retained ∧
      (∀ item ∈ removed, item.priority < 100) ∧
      ∀ item ∈ (cutLowPriority limit retained).1, ∀ other ∈ removed,
        other.priority ≤ item.priority := by
  by_cases many : limit < retained.length
  · rw [cutLowPriority_of_many many]
    by_cases room : protectedCount retained < limit
    · rw [if_pos room]
      have count := protectedCount_perm (sortByPriority_perm retained)
      obtain ⟨low, ordered⟩ := removed_of_room (sortByPriority_descending retained)
        (show protectedCount (sortByPriority retained) ≤ limit by omega)
      refine ⟨(sortByPriority retained).drop limit, ?_, low, ordered⟩
      rw [List.take_append_drop]
      exact sortByPriority_perm retained
    · rw [if_neg room]
      exact ⟨[], by simpa using sortByPriority_perm retained, by simp, by simp⟩
  · rw [cutLowPriority_of_few (by omega)]
    exact ⟨[], by simp, by simp, by simp⟩

theorem cutsByPriority_iff (limit : Nat) (retained : List ContextItem) :
    CutsByPriority limit retained (cutLowPriority limit retained).1 ↔
      (limit < retained.length →
        protectedCount retained < limit ∨ ∀ item ∈ retained, 100 ≤ item.priority) := by
  have all : protectedCount retained = retained.length ↔ ∀ item ∈ retained, 100 ≤ item.priority := by
    unfold protectedCount
    rw [List.countP_eq_length]
    simp [isSystem]
  have most : protectedCount retained ≤ retained.length := List.countP_le_length
  rw [← all]
  constructor
  · intro cuts many
    have bounded := cuts.bounded many
    rw [cutLowPriority_of_many many] at bounded
    by_cases room : protectedCount retained < limit
    · exact .inl room
    · rw [if_neg room, protectedCount_perm (sortByPriority_perm retained),
        (sortByPriority_perm retained).length_eq] at bounded
      omega
  · intro allowed
    refine ⟨?_, cutLowPriority_removed limit retained⟩
    intro many
    rw [cutLowPriority_of_many many]
    split
    · rw [List.length_take]
      omega
    · rw [(sortByPriority_perm retained).length_eq,
        protectedCount_perm (sortByPriority_perm retained)]
      have full := allowed many
      omega

end Cutting

/-- What the two rules remove is counted, whatever the second one is allowed to leave. -/
theorem prune_counts (maxAge stalePriorityThreshold limit : Int) (items : List ContextItem) :
    ∃ missing, ((prune items maxAge stalePriorityThreshold limit).1 ++ missing).Perm items ∧
      missing.length = (prune items maxAge stalePriorityThreshold limit).2 := by
  obtain ⟨cut, perm, count, _⟩ := cutLowPriority_partition limit
    (survivors maxAge stalePriorityThreshold items)
  have parts := List.filter_append_perm (fun item => !stale maxAge stalePriorityThreshold item)
    items
  refine ⟨cut ++ items.filter fun item => !!stale maxAge stalePriorityThreshold item, ?_, ?_⟩
  · rw [← List.append_assoc]
    exact (perm.append_right _).trans parts
  · rw [List.length_append, count, ← List.countP_eq_length_filter, Nat.add_comm]
    simp only [Bool.not_not]
    rfl

/-- Of items that are not stale and few of which are protected, the first ones are left. -/
theorem sort_prune {maxAge stalePriorityThreshold : Int} {limit : Nat} {items : List ContextItem}
    (fresh : ∀ item ∈ items, stale maxAge stalePriorityThreshold item = false)
    (room : protectedCount items < limit) :
    sortByPriority (prune items maxAge stalePriorityThreshold limit).1 =
      (sortByPriority items).take limit := by
  have all : survivors maxAge stalePriorityThreshold items = items := by
    unfold survivors
    rw [List.filter_eq_self]
    intro item member
    simp [fresh item member]
  have pruned : (prune items maxAge stalePriorityThreshold limit).1 =
      (cutLowPriority limit (survivors maxAge stalePriorityThreshold items)).1 := rfl
  have sorted := sortByPriority_descending items
  rw [pruned, all]
  by_cases many : limit < items.length
  · rw [cutLowPriority_of_many many, if_pos room]
    exact List.Pairwise.insertionSort_eq (sorted.sublist (List.take_sublist _ _))
  · rw [cutLowPriority_of_few (by omega), List.take_of_length_le]
    rw [(sortByPriority_perm items).length_eq]
    omega

/-- Pruning keeps its promise exactly if no more items survive the first rule than the
limit allows, or fewer than that are protected, or all of them are. -/
theorem prune_prunes_iff (maxAge stalePriorityThreshold : Int) (limit : Nat)
    (items : List ContextItem) :
    Prunes maxAge stalePriorityThreshold limit items
        (prune items maxAge stalePriorityThreshold limit) ↔
      (limit < (survivors maxAge stalePriorityThreshold items).length →
        protectedCount (survivors maxAge stalePriorityThreshold items) < limit ∨
          ∀ item ∈ survivors maxAge stalePriorityThreshold items, 100 ≤ item.priority) := by
  rw [← cutsByPriority_iff]
  exact ⟨fun prunes => prunes.cuts,
    fun cuts => ⟨cuts, prune_counts maxAge stalePriorityThreshold limit items⟩⟩

/-- With a protected item for every place, the others are all left beside them. -/
theorem protected_items_lift_limit :
    ¬ ∀ (limit : Nat) (items : List ContextItem),
      Prunes 10 60 limit items (prune items 10 60 limit) := by
  intro always
  let item (content : String) (priority : Int) : ContextItem :=
    ⟨content, "tool_result", content, priority, "system_trusted", 0⟩
  have bounded := (always 1 [item "rule" 100, item "note" 10]).cuts.bounded (by decide)
  exact absurd bounded (by decide)

end ContextPruner

end DurableAgent.Context
