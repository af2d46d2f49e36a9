import DurableAgent.Context.Budget
import DurableAgent.Library.Valley

/-!
# Positions in the context

The reordering keeps the system instructions and the user messages in front and
deals the other items into two falling lists, one behind the other. The second starts
again near the top, in the middle of the context.
-/

set_option autoImplicit false

namespace DurableAgent.Context

open Library

namespace ContextAssembler

/-- Every other item goes to the end of the first part and to the end of the second. -/
theorem alternate_deal {leading first : List ContextItem} {idx : Nat}
    (size : first.length = (idx + 1) / 2) (second rest : List ContextItem) :
    alternate leading.length idx rest (leading ++ first ++ second) =
      if idx % 2 = 0 then leading ++ (first ++ (deal rest).1) ++ (second ++ (deal rest).2)
      else leading ++ (first ++ (deal rest).2) ++ (second ++ (deal rest).1) := by
  induction rest generalizing idx first second with
  | nil => simp [alternate]
  | cons item rest ih =>
      rw [alternate, deal_cons]
      by_cases even : idx % 2 = 0
      · have inserted : insertAt (leading ++ first ++ second) (leading.length + idx / 2) item =
            leading ++ (first ++ [item]) ++ second := by
          have place : leading.length + idx / 2 = (leading ++ first).length := by
            rw [List.length_append]
            omega
          unfold insertAt
          rw [place, List.take_left, List.drop_left]
          simp
        have odd : ¬ (idx + 1) % 2 = 0 := by omega
        rw [if_pos even, if_pos even, inserted, ih (by simp; omega), if_neg odd]
        simp
      · have odd : (idx + 1) % 2 = 0 := by omega
        rw [if_neg even, if_neg even, List.append_assoc (leading ++ first), ih (by omega),
          if_pos odd]
        simp

/-- The items that are neither system instructions nor user messages. -/
def middle (items : List ContextItem) : List ContextItem :=
  items.filter fun item => !isSystem item && !isUser item

theorem reorder_eq {items : List ContextItem} (long : 2 < items.length) :
    reorderForPositionalBias items =
      (items.filter isSystem ++ items.filter isUser) ++
        ((deal (middle items)).1 ++ (deal (middle items)).2) := by
  have dealt : alternate (items.filter isSystem ++ items.filter isUser).length 0 (middle items)
      (items.filter isSystem ++ items.filter isUser ++ [] ++ []) = _ :=
    alternate_deal rfl [] (middle items)
  simp only [List.append_nil, List.nil_append] at dealt
  unfold reorderForPositionalBias
  rw [if_neg (by omega)]
  have whole : alternate ((items.filter isSystem).length + (items.filter isUser).length) 0
      (middle items) (items.filter isSystem ++ items.filter isUser) =
        (items.filter isSystem ++ items.filter isUser) ++
          ((deal (middle items)).1 ++ (deal (middle items)).2) := by
    rw [← List.length_append, dealt, if_pos trivial, List.append_assoc]
  rw [← whole, middle, ← filter_rest]
  rfl

theorem middle_reorder {items : List ContextItem} (long : 2 < items.length) :
    middle (reorderForPositionalBias items) = (deal (middle items)).1 ++ (deal (middle items)).2 := by
  rw [reorder_eq long]
  have system : middle (items.filter isSystem) = [] := by
    simp +contextual [middle, List.filter_filter]
  have user : middle (items.filter isUser) = [] := by
    simp +contextual [middle, List.filter_filter]
  have all : ∀ {part : List ContextItem}, part.Sublist (middle items) → middle part = part := by
    intro part within
    unfold middle
    rw [List.filter_eq_self]
    intro item member
    exact (List.mem_filter.mp (within.subset member)).2
  obtain ⟨left, right⟩ := deal_sublist (middle items)
  have split : ∀ left right, middle (left ++ right) = middle left ++ middle right :=
    fun _ _ => List.filter_append ..
  rw [split, split, split, system, user, all left, all right, List.nil_append, List.nil_append]

/-- The retained items stand in the order of the sort, before they are reordered. -/
theorem selected_descending (assembler : ContextAssembler) (rawItems : List ContextItem) :
    Descending (assembler.selected rawItems).retainedItems :=
  (sortByPriority_descending _).sublist (retained_sublist assembler.maxTokens _)

/-- The only protected item leads the context. -/
theorem assemble_leads (assembler : ContextAssembler) {rawItems : List ContextItem}
    {leader : ContextItem} (unique : leader ∈ ContextDeduplicator.deduplicate rawItems)
    (protect : 100 ≤ leader.priority)
    (alone : ∀ item ∈ rawItems, 100 ≤ item.priority → item = leader)
    (kind : leader.kind ≠ "user_message") :
    ∃ rest, (assembler.assemble rawItems).1.items = leader :: rest ∧ leader ∉ rest ∧
      ∀ item ∈ rest, item ∈ rawItems := by
  have partition := selected_partition assembler rawItems
  have distinct := partition.nodup (ContextDeduplicator.deduplicate_nodup rawItems)
  have raw : ∀ item ∈ (assembler.selected rawItems).retainedItems, item ∈ rawItems := by
    intro item member
    exact (ContextDeduplicator.deduplicateFrom_spec [] rawItems).1.subset (partition.subset member)
  have retained := partition.keeps unique protect
  have sorted := selected_descending assembler rawItems
  have led : ∃ rest, (assembler.selected rawItems).retainedItems = leader :: rest := by
    cases items : (assembler.selected rawItems).retainedItems with
    | nil => simp [items] at retained
    | cons first rest =>
        rw [items] at retained sorted raw
        rcases List.mem_cons.mp retained with rfl | later
        · exact ⟨rest, rfl⟩
        · have higher := (List.pairwise_cons.mp sorted).1 leader later
          have same := alone first (raw first List.mem_cons_self) (by omega)
          exact ⟨rest, by rw [same]⟩
  have permuted : (assembler.assemble rawItems).1.items.Perm
      (assembler.selected rawItems).retainedItems := by
    rw [assemble_items]
    split
    · apply reorder_perm
      intro item member high
      rwa [alone item (raw item member) high]
    · exact .refl _
  have ordered : ∃ rest, (assembler.assemble rawItems).1.items = leader :: rest := by
    obtain ⟨rest, items⟩ := led
    rw [assemble_items]
    split
    · next many =>
        have system : isSystem leader = true := decide_eq_true protect
        rw [reorder_eq (by omega), items, List.filter_cons_of_pos system]
        exact ⟨_, rfl⟩
    · exact ⟨rest, items⟩
  obtain ⟨rest, items⟩ := ordered
  rw [items] at permuted
  refine ⟨rest, items, (List.nodup_cons.mp (permuted.nodup_iff.mpr distinct)).1, ?_⟩
  intro item member
  exact raw item (permuted.mem_iff.mp (List.mem_cons_of_mem leader member))

def priorities (items : List ContextItem) : List Int := items.map ContextItem.priority

/-- The weak items are in the middle exactly if at most one has a priority above some level
and none a priority below it, or one of an odd number. -/
theorem weak_in_middle_iff (assembler : ContextAssembler) (rawItems : List ContextItem) :
    (8 < (assembler.selected rawItems).retainedItems.length →
        LowInMiddle (priorities (middle (assembler.assemble rawItems).1.items))) ↔
      (8 < (assembler.selected rawItems).retainedItems.length →
        Level (priorities (middle (assembler.selected rawItems).retainedItems))) := by
  refine forall_congr' fun many => ?_
  rw [assemble_items, if_pos many, middle_reorder (by omega)]
  have falls : Falling (priorities (middle (assembler.selected rawItems).retainedItems)) :=
    List.pairwise_map.mpr ((selected_descending assembler rawItems).sublist List.filter_sublist)
  rw [← lowInMiddle_deal_iff falls]
  unfold priorities
  rw [deal_map, List.map_append]

/-- Of nine items with different priorities the second strongest stands next to the
weakest, and the second weakest at the end. -/
theorem strong_item_in_middle :
    ¬ ∀ (assembler : ContextAssembler) (rawItems : List ContextItem),
      8 < (assembler.selected rawItems).retainedItems.length →
        LowInMiddle (priorities (middle (assembler.assemble rawItems).1.items)) := by
  intro always
  let assembler : ContextAssembler := { utilization := fun _ _ => ⟨"0.009", false⟩ }
  let rawItems : List ContextItem :=
    [("a", 9), ("b", 8), ("c", 7), ("d", 6), ("e", 5), ("f", 4), ("g", 3), ("h", 2), ("i", 1)].map
      fun part => ⟨part.1, "tool_result", part.1, part.2, "system_trusted", 0⟩
  have weak := always assembler rawItems (by decide +kernel)
  have order : priorities (middle (assembler.assemble rawItems).1.items) =
      [9, 7, 5, 3, 1, 8, 6, 4, 2] := by decide +kernel
  rw [order] at weak
  have peak : 8 ≤ 1 ∨ 8 ≤ 2 := by
    have within : ([1, 8, 2] : List Int).Sublist [9, 7, 5, 3, 1, 8, 6, 4, 2] := by decide
    exact_mod_cast weak.valley.no_peak within
  exact absurd peak (by decide)

end ContextAssembler

end DurableAgent.Context
