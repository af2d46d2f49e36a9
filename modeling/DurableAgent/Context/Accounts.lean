import DurableAgent.Context.Assembler
import Mathlib.Data.List.Count

/-!
# The accounts of an assembled context

Every stage of the assembler keeps the items apart that it removes and those that it
keeps; only the reordering can count an item twice.
-/

set_option autoImplicit false

namespace DurableAgent.Context

open Python (strip)

def estimatedTokens : List ContextItem → Nat
  | [] => 0
  | item :: rest => estimateTokens item.content + estimatedTokens rest

theorem estimatedTokens_append (items others : List ContextItem) :
    estimatedTokens (items ++ others) = estimatedTokens items + estimatedTokens others := by
  induction items with
  | nil => simp [estimatedTokens]
  | cons item rest ih => simp [estimatedTokens, ih, Nat.add_assoc]

theorem estimatedTokens_perm {items others : List ContextItem} (same : items.Perm others) :
    estimatedTokens items = estimatedTokens others := by
  induction same with
  | nil => rfl
  | cons item _ ih => simp [estimatedTokens, ih]
  | swap first second rest => simp [estimatedTokens, Nat.add_left_comm]
  | trans _ _ ihFirst ihSecond => exact ihFirst.trans ihSecond

theorem sortByPriority_perm (items : List ContextItem) : (sortByPriority items).Perm items :=
  List.perm_insertionSort _ items

theorem filter_low (items : List ContextItem) :
    (items.filter fun item => decide (item.priority < 100)) =
      items.filter fun item => !decide (100 ≤ item.priority) := by
  apply List.filter_congr
  intro item _
  rw [← decide_not, decide_eq_decide]
  omega

/-- In the order of the sort. -/
def Descending (items : List ContextItem) : Prop :=
  items.Pairwise fun first second => second.priority ≤ first.priority

theorem sortByPriority_descending (items : List ContextItem) :
    Descending (sortByPriority items) := by
  have total : Std.Total fun first second : ContextItem => second.priority ≤ first.priority :=
    ⟨fun first second => le_total second.priority first.priority⟩
  have transitive : IsTrans ContextItem fun first second => second.priority ≤ first.priority :=
    ⟨fun _ _ _ later earlier => le_trans earlier later⟩
  exact List.pairwise_insertionSort _ items

namespace ContextDeduplicator

theorem deduplicateFrom_spec (seenContent : List String) (items : List ContextItem) :
    (deduplicateFrom seenContent items).Sublist items ∧
      (∀ item ∈ deduplicateFrom seenContent items, strip item.content ∉ seenContent) ∧
      ((deduplicateFrom seenContent items).map fun item => strip item.content).Nodup := by
  induction items generalizing seenContent with
  | nil => exact ⟨.slnil, by simp [deduplicateFrom], by simp [deduplicateFrom]⟩
  | cons item rest ih =>
      rw [deduplicateFrom]
      split
      · obtain ⟨sublist, fresh, distinct⟩ := ih seenContent
        exact ⟨sublist.cons item, fresh, distinct⟩
      · next unseen =>
          obtain ⟨sublist, fresh, distinct⟩ := ih (strip item.content :: seenContent)
          refine ⟨sublist.cons_cons item, ?_, ?_⟩
          · intro other member
            rcases List.mem_cons.mp member with rfl | later
            · exact unseen
            · exact fun seen => fresh other later (List.mem_cons_of_mem _ seen)
          · rw [List.map_cons, List.nodup_cons]
            refine ⟨?_, distinct⟩
            intro again
            obtain ⟨other, member, same⟩ := List.mem_map.mp again
            exact fresh other member (by simp [same])

theorem deduplicate_nodup (items : List ContextItem) : (deduplicate items).Nodup :=
  (deduplicateFrom_spec [] items).2.2.of_map

end ContextDeduplicator

/-- A stage keeps some items and removes the others, none of them of priority 100. -/
def Partition (items kept : List ContextItem) (cut : Nat) : Prop :=
  ∃ removed, (kept ++ removed).Perm items ∧ removed.length = cut ∧
    ∀ item ∈ removed, item.priority < 100

namespace Partition

variable {items kept selected : List ContextItem} {cut further : Nat}

theorem refl (items : List ContextItem) : Partition items items 0 :=
  ⟨[], by simp, rfl, by simp⟩

theorem trans (first : Partition items kept cut) (second : Partition kept selected further) :
    Partition items selected (cut + further) := by
  obtain ⟨removed, perm, count, low⟩ := first
  obtain ⟨others, rest, more, lower⟩ := second
  refine ⟨others ++ removed, ?_, ?_, List.forall_mem_append.mpr ⟨lower, low⟩⟩
  · rw [← List.append_assoc]
    exact (rest.append_right removed).trans perm
  · rw [List.length_append, count, more, Nat.add_comm]

theorem length (partition : Partition items kept cut) : items.length = cut + kept.length := by
  obtain ⟨removed, perm, count, _⟩ := partition
  rw [← perm.length_eq, List.length_append, count, Nat.add_comm]

theorem keeps (partition : Partition items kept cut) {item : ContextItem} (member : item ∈ items)
    (high : 100 ≤ item.priority) : item ∈ kept := by
  obtain ⟨removed, perm, _, low⟩ := partition
  rcases List.mem_append.mp (perm.mem_iff.mpr member) with stays | goes
  · exact stays
  · exact absurd (low item goes) (by omega)

theorem subset (partition : Partition items kept cut) {item : ContextItem}
    (member : item ∈ kept) : item ∈ items := by
  obtain ⟨removed, perm, _, _⟩ := partition
  exact perm.mem_iff.mp (List.mem_append_left _ member)

theorem nodup (partition : Partition items kept cut) (distinct : items.Nodup) : kept.Nodup := by
  obtain ⟨removed, perm, _, _⟩ := partition
  exact (List.nodup_append.mp (perm.nodup_iff.mpr distinct)).1

theorem filter (select : ContextItem → Bool)
    (low : ∀ item ∈ items, select item = false → item.priority < 100) :
    Partition items (items.filter select) (items.countP fun item => !select item) := by
  refine ⟨items.filter fun item => !select item, List.filter_append_perm select items,
    (List.countP_eq_length_filter).symm, ?_⟩
  intro item member
  obtain ⟨included, out⟩ := List.mem_filter.mp member
  exact low item included (by simpa using out)

end Partition

namespace ContextPruner

theorem cutLowPriority_partition (limit : Int) (retained : List ContextItem) :
    Partition retained (cutLowPriority limit retained).1 (cutLowPriority limit retained).2 := by
  unfold cutLowPriority
  split
  · dsimp only
    let sorted := sortByPriority retained
    let mustKeep := sorted.filter fun item => decide (100 ≤ item.priority)
    let rest := sorted.filter fun item => decide (item.priority < 100)
    have split : (mustKeep ++ rest).Perm sorted := by
      have parts := List.filter_append_perm (fun item : ContextItem => decide (100 ≤ item.priority))
        sorted
      rwa [← filter_low] at parts
    have cut : ∀ kept removed, rest = kept ++ removed →
        Partition retained (sortByPriority (mustKeep ++ kept))
          (sorted.length - mustKeep.length - kept.length) := by
      intro kept removed parted
      rw [parted, ← List.append_assoc] at split
      have lengths := split.length_eq
      simp only [List.length_append] at lengths
      refine ⟨removed, ?_, by omega, ?_⟩
      · exact ((sortByPriority_perm _).append_right removed).trans
          (split.trans (sortByPriority_perm retained))
      · intro item member
        have within : item ∈ rest := by
          rw [parted]
          exact List.mem_append_right _ member
        simpa using (List.mem_filter.mp within).2
    split
    · exact cut _ _ (List.take_append_drop _ rest).symm
    · exact cut rest [] (List.append_nil rest).symm
  · exact .refl retained

theorem prune_partition (items : List ContextItem) (maxAge stalePriorityThreshold limit : Int)
    (low : stalePriorityThreshold ≤ 100) :
    Partition items (prune items maxAge stalePriorityThreshold limit).1
      (prune items maxAge stalePriorityThreshold limit).2 := by
  have young : ∀ item ∈ items, (!stale maxAge stalePriorityThreshold item) = false →
      item.priority < 100 := by
    intro item _ old
    have bound : item.priority < stalePriorityThreshold := by
      simp [stale] at old
      exact old.2
    omega
  have fresh := Partition.filter _ young
  simp only [Bool.not_not] at fresh
  exact fresh.trans (cutLowPriority_partition limit _)

end ContextPruner

namespace ContextAssembler

/-- The items that are retained and dropped so far, with the tokens of the former. -/
structure Truncates (processed : List ContextItem) (truncated : Truncated) : Prop where
  perm : (truncated.retainedItems ++ truncated.droppedItems).Perm processed
  tokens : truncated.currentTokens = estimatedTokens truncated.retainedItems
  low : ∀ item ∈ truncated.droppedItems, item.priority < 100

theorem Truncates.add {processed : List ContextItem} {truncated : Truncated}
    (truncates : Truncates processed truncated) (maxTokens : Int) (item : ContextItem) :
    Truncates (processed ++ [item]) (truncated.add maxTokens item) := by
  have retained : Truncates (processed ++ [item]) (truncated.retain item) := by
    refine ⟨?_, ?_, truncates.low⟩
    · unfold Truncated.retain
      rw [List.append_assoc]
      have moved : ([item] ++ truncated.droppedItems).Perm (truncated.droppedItems ++ [item]) :=
        List.perm_append_comm
      have grown := (moved.append_left truncated.retainedItems)
      rw [← List.append_assoc truncated.retainedItems truncated.droppedItems] at grown
      exact grown.trans (truncates.perm.append_right [item])
    · simp [Truncated.retain, truncates.tokens, estimatedTokens_append, estimatedTokens]
  unfold Truncated.add
  split
  · split
    · exact retained
    · next low =>
        refine ⟨?_, truncates.tokens, ?_⟩
        · unfold Truncated.drop
          rw [← List.append_assoc]
          exact truncates.perm.append_right [item]
        · exact List.forall_mem_append.mpr ⟨truncates.low, by simpa using low⟩
  · exact retained

theorem truncate_truncates (maxTokens : Int) (sortedItems : List ContextItem) :
    Truncates sortedItems (truncate maxTokens sortedItems) := by
  have from_ : ∀ items processed truncated, Truncates processed truncated →
      Truncates (processed ++ items) (items.foldl (Truncated.add maxTokens) truncated) := by
    intro items
    induction items with
    | nil =>
        intro processed truncated truncates
        simpa using truncates
    | cons item rest ih =>
        intro processed truncated truncates
        have next := ih _ _ (truncates.add maxTokens item)
        rwa [List.append_assoc] at next
  exact from_ sortedItems [] {} ⟨.refl _, rfl, by simp⟩

/-- Everything that reaches the reordering, and what has been removed before. -/
theorem selected_partition (assembler : ContextAssembler) (rawItems : List ContextItem) :
    Partition (ContextDeduplicator.deduplicate rawItems)
      (assembler.selected rawItems).retainedItems
      ((ContextPruner.prune (ContextDeduplicator.deduplicate rawItems)).2 +
        (assembler.selected rawItems).droppedItems.length) := by
  have pruned := ContextPruner.prune_partition (ContextDeduplicator.deduplicate rawItems) 10 60 20
    (by decide)
  have truncates := truncate_truncates assembler.maxTokens
    (sortByPriority (ContextPruner.prune (ContextDeduplicator.deduplicate rawItems)).1)
  exact pruned.trans ⟨_, truncates.perm.trans (sortByPriority_perm _), rfl, truncates.low⟩

theorem insertAt_perm (items : List ContextItem) (index : Nat) (item : ContextItem) :
    (insertAt items index item).Perm (items ++ [item]) := by
  unfold insertAt
  have moved : (items.take index ++ item :: items.drop index).Perm
      (item :: (items.take index ++ items.drop index)) := List.perm_middle
  rw [List.take_append_drop] at moved
  exact moved.trans (List.perm_append_singleton item items).symm

theorem alternate_perm (front idx : Nat) (rest result : List ContextItem) :
    (alternate front idx rest result).Perm (result ++ rest) := by
  induction rest generalizing idx result with
  | nil => simp [alternate]
  | cons item rest ih =>
      rw [alternate]
      have added : (if idx % 2 = 0 then insertAt result (front + idx / 2) item
          else result ++ [item]).Perm (result ++ [item]) := by
        split
        · exact insertAt_perm result (front + idx / 2) item
        · exact .refl _
      have grown := (ih (idx + 1) _).trans (added.append_right rest)
      rwa [List.append_assoc] at grown

section Reordering

variable {items : List ContextItem}

/-- The items that the reordering takes as system instructions and as user messages. -/
def isSystem (item : ContextItem) : Bool := decide (100 ≤ item.priority)

def isUser (item : ContextItem) : Bool := decide (item.kind = "user_message")

theorem filter_rest (items : List ContextItem) :
    (items.filter fun item => decide (item ∉ items.filter isSystem ∧
      item ∉ items.filter isUser)) = items.filter fun item => !isSystem item && !isUser item := by
  apply List.filter_congr
  intro item member
  simp [member]

theorem reorder_parts (long : 2 < items.length) :
    (reorderForPositionalBias items).Perm ((items.filter isSystem ++ items.filter isUser) ++
      items.filter fun item => !isSystem item && !isUser item) := by
  unfold reorderForPositionalBias
  rw [if_neg (by omega)]
  exact (alternate_perm _ 0 _ _).trans (List.Perm.of_eq (congrArg _ (filter_rest items)))

theorem reorder_perm (apart : ∀ item ∈ items, 100 ≤ item.priority → item.kind ≠ "user_message") :
    (reorderForPositionalBias items).Perm items := by
  by_cases long : 2 < items.length
  · have outer := List.filter_append_perm isSystem items
    have inner := List.filter_append_perm isUser (items.filter fun item => !isSystem item)
    have user : (items.filter fun item => !isSystem item).filter isUser = items.filter isUser := by
      rw [List.filter_filter]
      apply List.filter_congr
      intro item member
      have one := apart item member
      simp only [isUser, isSystem]
      by_cases high : 100 ≤ item.priority <;> simp_all
    have rest : (items.filter fun item => !isSystem item).filter (fun item => !isUser item) =
        items.filter fun item => !isSystem item && !isUser item := by
      rw [List.filter_filter]
      apply List.filter_congr
      intro item _
      exact Bool.and_comm _ _
    rw [user, rest] at inner
    have whole := (inner.append_left (items.filter isSystem)).trans outer
    rw [← List.append_assoc] at whole
    exact (reorder_parts long).trans whole
  · unfold reorderForPositionalBias
    rw [if_pos (by omega)]

/-- An item of both classes is placed twice. -/
theorem reorder_not_nodup (long : 2 < items.length) {item : ContextItem} (member : item ∈ items)
    (high : 100 ≤ item.priority) (user : item.kind = "user_message") :
    ¬ (reorderForPositionalBias items).Nodup := by
  rw [(reorder_parts long).nodup_iff]
  intro distinct
  have first : item ∈ items.filter isSystem := by
    simp [member, isSystem, high]
  have second : item ∈ items.filter isUser := by
    simp [member, isUser, user]
  have within := (List.nodup_append.mp distinct).1
  exact (List.nodup_append.mp within).2.2 item first item second rfl

end Reordering

/-- No item occurs twice, and the counters agree with one another. -/
structure Balanced (bundle : ContextBundle) (report : ContextBudgetReport) : Prop where
  distinct : bundle.items.Nodup
  accounts : report.itemsAfterDedup =
    report.itemsPruned + report.itemsDroppedByBudget + report.itemsRetained
  retained : report.itemsRetained = bundle.items.length
  tokens : bundle.totalEstimatedTokens = estimatedTokens bundle.items

theorem assemble_items (assembler : ContextAssembler) (rawItems : List ContextItem) :
    (assembler.assemble rawItems).1.items =
      if 8 < (assembler.selected rawItems).retainedItems.length then
        reorderForPositionalBias (assembler.selected rawItems).retainedItems
      else (assembler.selected rawItems).retainedItems := by
  by_cases many : 8 < (assembler.selected rawItems).retainedItems.length
  · rw [if_pos many]
    exact if_pos (decide_eq_true many)
  · rw [if_neg many]
    exact if_neg fun active => many (of_decide_eq_true active)

theorem balanced_of_perm {assembler : ContextAssembler} {rawItems : List ContextItem}
    (same : (assembler.assemble rawItems).1.items.Perm
      (assembler.selected rawItems).retainedItems) :
    Balanced (assembler.assemble rawItems).1 (assembler.assemble rawItems).2 where
  distinct := by
    rw [same.nodup_iff]
    exact (selected_partition assembler rawItems).nodup
      (ContextDeduplicator.deduplicate_nodup rawItems)
  accounts := by
    have count := (selected_partition assembler rawItems).length
    rw [← same.length_eq] at count
    exact count
  retained := rfl
  tokens := by
    rw [estimatedTokens_perm same]
    exact (truncate_truncates assembler.maxTokens _).tokens

/-- The accounts of an assembled context balance exactly if at most eight items are
retained or no deduplicated user message has a priority of 100 or more. -/
theorem assemble_balanced_iff (assembler : ContextAssembler) (rawItems : List ContextItem) :
    Balanced (assembler.assemble rawItems).1 (assembler.assemble rawItems).2 ↔
      (8 < (assembler.selected rawItems).retainedItems.length →
        ∀ item ∈ ContextDeduplicator.deduplicate rawItems,
          100 ≤ item.priority → item.kind ≠ "user_message") := by
  have partition := selected_partition assembler rawItems
  have items := assemble_items assembler rawItems
  constructor
  · intro balanced many item member high user
    have distinct := balanced.distinct
    rw [items, if_pos many] at distinct
    exact reorder_not_nodup (by omega) (partition.keeps member high) high user distinct
  · intro apart
    apply balanced_of_perm
    rw [items]
    split
    · next many =>
        exact reorder_perm fun item member => apart many item (partition.subset member)
    · exact .refl _

/-- Nine items of which one is a user message of priority 100 are returned as ten. -/
theorem privileged_user_message_duplicated :
    ¬ ∀ (assembler : ContextAssembler) (rawItems : List ContextItem),
      Balanced (assembler.assemble rawItems).1 (assembler.assemble rawItems).2 := by
  intro always
  let assembler : ContextAssembler := { utilization := fun _ _ => ⟨"0.009", false⟩ }
  let item (kind content : String) (priority : Int) : ContextItem :=
    ⟨content, kind, content, priority, "user_supplied", 0⟩
  let rawItems := item "user_message" "task" 100 ::
    ["a", "b", "c", "d", "e", "f", "g", "h"].map fun content => item "tool_result" content 40
  have balanced := always assembler rawItems
  have unbalanced : (assembler.assemble rawItems).2.itemsAfterDedup ≠
      (assembler.assemble rawItems).2.itemsPruned +
        (assembler.assemble rawItems).2.itemsDroppedByBudget +
        (assembler.assemble rawItems).2.itemsRetained := by decide +kernel
  exact unbalanced balanced.accounts

end ContextAssembler

end DurableAgent.Context
