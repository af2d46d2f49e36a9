import DurableAgent.Context.Accounts

/-!
# The token budget

The truncation takes the items in the order of their priority and skips what does
not fit. Only items of priority 100 may exceed the budget, and these come first; but
an item that repeats the text of an earlier one never gets there.
-/

set_option autoImplicit false

namespace DurableAgent.Context

open Python (strip)

namespace ContextAssembler

section Truncation

variable {maxTokens : Int} {truncated : Truncated}

theorem truncate_concat (maxTokens : Int) (items : List ContextItem) (item : ContextItem) :
    truncate maxTokens (items ++ [item]) = (truncate maxTokens items).add maxTokens item := by
  unfold truncate
  rw [List.foldl_append]
  rfl

/-- What one turn of the truncation can do. -/
theorem add_cases (maxTokens : Int) (truncated : Truncated) (item : ContextItem) :
    (truncated.add maxTokens item = truncated.retain item ∧
        (100 ≤ item.priority ∨
          (truncated.currentTokens : Int) + estimateTokens item.content ≤ maxTokens)) ∨
      (truncated.add maxTokens item = truncated.drop item ∧ item.priority < 100 ∧
        maxTokens < (truncated.currentTokens : Int) + estimateTokens item.content) := by
  unfold Truncated.add
  split
  · next beyond =>
      split
      · next high => exact .inl ⟨rfl, .inl high⟩
      · next low => exact .inr ⟨rfl, by omega, by omega⟩
  · next within => exact .inl ⟨rfl, .inr (by omega)⟩

theorem retained_sublist (maxTokens : Int) (items : List ContextItem) :
    (truncate maxTokens items).retainedItems.Sublist items := by
  induction items using List.reverseRecOn with
  | nil => exact .refl _
  | append_singleton items item ih =>
      rw [truncate_concat]
      rcases add_cases maxTokens (truncate maxTokens items) item with ⟨added, _⟩ | ⟨added, _⟩
      · rw [added]
        exact ih.append (.refl _)
      · rw [added]
        exact ih.trans (List.sublist_append_left _ _)

/-- What is retained or dropped stays so. -/
theorem truncate_grows (maxTokens : Int) (items later : List ContextItem) :
    (truncate maxTokens items).retainedItems <+:
        (truncate maxTokens (items ++ later)).retainedItems ∧
      (truncate maxTokens items).droppedItems <+:
        (truncate maxTokens (items ++ later)).droppedItems := by
  induction later using List.reverseRecOn with
  | nil => simp
  | append_singleton later item ih =>
      rw [← List.append_assoc, truncate_concat]
      rcases add_cases maxTokens (truncate maxTokens (items ++ later)) item with
        ⟨added, _⟩ | ⟨added, _⟩
      · rw [added]
        exact ⟨ih.1.trans (List.prefix_append _ _), ih.2⟩
      · rw [added]
        exact ⟨ih.1, ih.2.trans (List.prefix_append _ _)⟩

/-- An item is retained exactly if it is protected or fits beside those before it. -/
theorem mem_truncate_iff {maxTokens : Int} {items later : List ContextItem} {item : ContextItem}
    (distinct : (items ++ item :: later).Nodup) :
    item ∈ (truncate maxTokens (items ++ item :: later)).retainedItems ↔
      100 ≤ item.priority ∨
        ((truncate maxTokens items).currentTokens : Int) + estimateTokens item.content ≤
          maxTokens := by
  have grows := truncate_grows maxTokens (items ++ [item]) later
  rw [List.append_assoc, List.singleton_append, truncate_concat] at grows
  rcases add_cases maxTokens (truncate maxTokens items) item with ⟨added, fits⟩ | ⟨added, low, beyond⟩
  · rw [added] at grows
    exact iff_of_true (grows.1.subset (List.mem_append_right _ (List.mem_singleton_self item))) fits
  · rw [added] at grows
    have dropped := grows.2.subset (List.mem_append_right _ (List.mem_singleton_self item))
    have apart := (truncate_truncates maxTokens (items ++ item :: later)).perm.nodup_iff.mpr distinct
    refine iff_of_false (fun retained => ?_) (by omega)
    exact (List.nodup_append.mp apart).2.2 item retained item dropped rfl

/-- The budget is respected so far unless only items of priority 100 are retained, and
it has no room for what was dropped. -/
structure Budgeted (maxTokens : Int) (truncated : Truncated) : Prop where
  within : (∃ item ∈ truncated.retainedItems, item.priority < 100) →
    (truncated.currentTokens : Int) ≤ maxTokens
  unfit : ∀ item ∈ truncated.droppedItems,
    maxTokens < (truncated.currentTokens : Int) + estimateTokens item.content

/-- The next item has at most the priority of those before it. -/
theorem Budgeted.add {item : ContextItem} (budgeted : Budgeted maxTokens truncated)
    (sorted : ∀ other ∈ truncated.retainedItems, item.priority ≤ other.priority) :
    Budgeted maxTokens (truncated.add maxTokens item) := by
  rcases add_cases maxTokens truncated item with ⟨added, allowed⟩ | ⟨added, _, beyond⟩
  · rw [added]
    constructor
    · rintro ⟨other, member, low⟩
      have last : item.priority < 100 := by
        rcases List.mem_append.mp member with earlier | same
        · exact lt_of_le_of_lt (sorted other earlier) low
        · rwa [← List.mem_singleton.mp same]
      simp only [Truncated.retain]
      omega
    · intro other dropped
      have unfit := budgeted.unfit other dropped
      simp only [Truncated.retain]
      omega
  · rw [added]
    refine ⟨budgeted.within, List.forall_mem_append.mpr ⟨budgeted.unfit, ?_⟩⟩
    simpa [Truncated.drop] using beyond

theorem truncate_budgeted {maxTokens : Int} {items : List ContextItem}
    (sorted : Descending items) : Budgeted maxTokens (truncate maxTokens items) := by
  induction items using List.reverseRecOn with
  | nil => exact ⟨by simp [truncate], by simp [truncate]⟩
  | append_singleton items item ih =>
      obtain ⟨before, _, behind⟩ := List.pairwise_append.mp sorted
      rw [truncate_concat]
      apply (ih before).add
      intro other member
      exact behind other ((retained_sublist maxTokens items).subset member) item
        (List.mem_singleton_self item)

end Truncation

theorem mem_reorder {items : List ContextItem} {item : ContextItem} :
    item ∈ reorderForPositionalBias items ↔ item ∈ items := by
  by_cases long : 2 < items.length
  · rw [(reorder_parts long).mem_iff]
    simp only [List.mem_append, List.mem_filter]
    cases isSystem item <;> cases isUser item <;> simp
  · unfold reorderForPositionalBias
    rw [if_pos (by omega)]

theorem mem_assemble_items {assembler : ContextAssembler} {rawItems : List ContextItem}
    {item : ContextItem} :
    item ∈ (assembler.assemble rawItems).1.items ↔
      item ∈ (assembler.selected rawItems).retainedItems := by
  rw [assemble_items]
  split
  · exact mem_reorder
  · rfl

/-- The bundle keeps to the budget, and what it drops would not fit. -/
structure KeepsBudget (maxTokens : Int) (bundle : ContextBundle) : Prop where
  within : (∃ item ∈ bundle.items, item.priority < 100) →
    (bundle.totalEstimatedTokens : Int) ≤ maxTokens
  dropped : ∀ item ∈ bundle.droppedItems, item.priority < 100 ∧
    maxTokens < (bundle.totalEstimatedTokens : Int) + estimateTokens item.content

theorem assemble_keepsBudget (assembler : ContextAssembler) (rawItems : List ContextItem) :
    KeepsBudget assembler.maxTokens (assembler.assemble rawItems).1 := by
  have budgeted : Budgeted assembler.maxTokens (assembler.selected rawItems) :=
    truncate_budgeted (sortByPriority_descending _)
  have low : ∀ item ∈ (assembler.selected rawItems).droppedItems, item.priority < 100 :=
    (truncate_truncates assembler.maxTokens _).low
  constructor
  · rintro ⟨item, member, below⟩
    exact budgeted.within ⟨item, mem_assemble_items.mp member, below⟩
  · intro item dropped
    exact ⟨low item dropped, budgeted.unfit item dropped⟩

end ContextAssembler

namespace ContextDeduplicator

/-- The items that carry the same text but for the whitespace around it. -/
def sameText (content : String) (item : ContextItem) : Bool :=
  decide (strip item.content = strip content)

theorem mem_deduplicateFrom_iff {seenContent : List String} {items : List ContextItem}
    {item : ContextItem} :
    item ∈ deduplicateFrom seenContent items ↔
      strip item.content ∉ seenContent ∧ items.find? (sameText item.content) = some item := by
  induction items generalizing seenContent with
  | nil => simp [deduplicateFrom]
  | cons first rest ih =>
      rw [deduplicateFrom]
      by_cases same : strip first.content = strip item.content
      · have matching : sameText item.content first = true := decide_eq_true same
        rw [List.find?_cons_of_pos matching, same]
        split
        · next seen => simp [ih, seen]
        · next unseen => simp [ih, unseen, eq_comm]
      · have differing : ¬ sameText item.content first = true := by simpa [sameText] using same
        rw [List.find?_cons_of_neg differing]
        have other : item ≠ first := fun equal => same (by rw [equal])
        split
        · exact ih
        · simp [ih, other, Ne.symm same]

/-- Of the items with one text, the first is kept. -/
theorem mem_deduplicate_iff {items : List ContextItem} {item : ContextItem} :
    item ∈ deduplicate items ↔ items.find? (sameText item.content) = some item := by
  simp [deduplicate, mem_deduplicateFrom_iff]

theorem sameText_congr {content other : String} (same : strip content = strip other) :
    sameText content = sameText other := by
  unfold sameText
  rw [same]

end ContextDeduplicator

namespace ContextAssembler

open ContextDeduplicator

/-- Every protected text stays in the context under an item that is protected. -/
def KeepsProtected (rawItems : List ContextItem) (bundle : ContextBundle) : Prop :=
  ∀ item ∈ rawItems, 100 ≤ item.priority →
    ∃ kept ∈ bundle.items, 100 ≤ kept.priority ∧ strip kept.content = strip item.content

/-- Protected texts stay exactly if each comes first under an item that is protected. -/
theorem assemble_keepsProtected_iff (assembler : ContextAssembler)
    (rawItems : List ContextItem) :
    KeepsProtected rawItems (assembler.assemble rawItems).1 ↔
      ∀ item ∈ rawItems, 100 ≤ item.priority →
        ∀ first, rawItems.find? (sameText item.content) = some first → 100 ≤ first.priority := by
  have partition := selected_partition assembler rawItems
  constructor
  · intro keeps item member high first found
    obtain ⟨kept, retained, protect, same⟩ := keeps item member high
    have unique := mem_deduplicate_iff.mp (partition.subset (mem_assemble_items.mp retained))
    rw [sameText_congr same, found] at unique
    cases unique
    exact protect
  · intro leading item member high
    cases found : rawItems.find? (sameText item.content) with
    | none =>
        have differing := List.find?_eq_none.mp found item member
        exact absurd (decide_eq_true rfl) differing
    | some first =>
        have protect := leading item member high first found
        have same : strip first.content = strip item.content := by
          simpa [sameText] using List.find?_some found
        have unique : first ∈ deduplicate rawItems := by
          rw [mem_deduplicate_iff, sameText_congr same]
          exact found
        exact ⟨first, mem_assemble_items.mpr (partition.keeps unique protect), protect, same⟩

/-- A user message with the text of a later instruction takes its place. -/
theorem repeated_instruction_lost :
    ¬ ∀ (assembler : ContextAssembler) (rawItems : List ContextItem),
      KeepsProtected rawItems (assembler.assemble rawItems).1 := by
  intro always
  let assembler : ContextAssembler := { utilization := fun _ _ => ⟨"0.002", false⟩ }
  let message : ContextItem := ⟨"user", "user_message", "Keep safe.", 95, "user_supplied", 0⟩
  let rule : ContextItem := ⟨"sys", "system_instruction", "Keep safe.", 100, "system_trusted", 0⟩
  obtain ⟨kept, retained, protect, _⟩ := always assembler [message, rule] rule (by simp)
    (by decide)
  have items : (assembler.assemble [message, rule]).1.items = [message] := by decide +kernel
  rw [items, List.mem_singleton] at retained
  rw [retained] at protect
  exact absurd protect (by decide)

end ContextAssembler

end DurableAgent.Context
