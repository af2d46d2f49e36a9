import DurableAgent.Context.Models
import DurableAgent.Python.Text
import Mathlib.Data.List.Sort

/-!
# Assembling a context

`context/dedup.py`, `context/pruner.py`, `context/budget.py` and
`context/assembler.py`. The one use of floating point, the utilization of the
budget, is a parameter of the assembler.
-/

set_option autoImplicit false

namespace DurableAgent.Context

open Python (strip)

deriving instance DecidableEq for ContextItem

namespace ContextDeduplicator

def deduplicateFrom (seenContent : List String) : List ContextItem → List ContextItem
  | [] => []
  | item :: rest =>
      let normalizedContent := strip item.content
      if normalizedContent ∈ seenContent then deduplicateFrom seenContent rest
      else item :: deduplicateFrom (normalizedContent :: seenContent) rest

def deduplicate (items : List ContextItem) : List ContextItem := deduplicateFrom [] items

end ContextDeduplicator

/-- By descending priority, as a stable sort leaves them. -/
def sortByPriority (items : List ContextItem) : List ContextItem :=
  items.insertionSort fun first second => second.priority ≤ first.priority

namespace ContextPruner

/-- The first rule. -/
def stale (maxAge stalePriorityThreshold : Int) (item : ContextItem) : Bool :=
  decide (maxAge < item.ageInSteps ∧ item.priority < stalePriorityThreshold)

/-- The second rule, with the number of items that it removes. -/
def cutLowPriority (maxItemsBeforeLowPriorityCut : Int) (retained : List ContextItem) :
    List ContextItem × Nat :=
  if maxItemsBeforeLowPriorityCut < retained.length then
    let sorted := sortByPriority retained
    let mustKeep := sorted.filter fun item => decide (100 ≤ item.priority)
    let rest := sorted.filter fun item => decide (item.priority < 100)
    let extraCut := maxItemsBeforeLowPriorityCut - mustKeep.length
    let kept := if 0 < extraCut then rest.take extraCut.toNat else rest
    (sortByPriority (mustKeep ++ kept), sorted.length - mustKeep.length - kept.length)
  else (retained, 0)

def prune (items : List ContextItem) (maxAge : Int := 10) (stalePriorityThreshold : Int := 60)
    (maxItemsBeforeLowPriorityCut : Int := 20) : List ContextItem × Nat :=
  let retained := items.filter fun item => !stale maxAge stalePriorityThreshold item
  let (kept, cut) := cutLowPriority maxItemsBeforeLowPriorityCut retained
  (kept, (items.countP (stale maxAge stalePriorityThreshold)) + cut)

end ContextPruner

def estimateTokens (content : String) : Nat :=
  if content = "" then 1 else max 1 (content.length / 4)

/-- The quotient of the tokens and the budget, rounded to three digits, and whether it
exceeds 0.9. -/
structure Utilization where
  ratio : String
  high : Bool

structure ContextAssembler where
  maxTokens : Int := 1000
  utilization : Nat → Int → Utilization

namespace ContextAssembler

structure Truncated where
  retainedItems : List ContextItem := []
  droppedItems : List ContextItem := []
  currentTokens : Nat := 0

namespace Truncated

def retain (truncated : Truncated) (item : ContextItem) : Truncated :=
  { truncated with
    retainedItems := truncated.retainedItems ++ [item]
    currentTokens := truncated.currentTokens + estimateTokens item.content }

def drop (truncated : Truncated) (item : ContextItem) : Truncated :=
  { truncated with droppedItems := truncated.droppedItems ++ [item] }

/-- One turn of the truncation by token budget. -/
def add (maxTokens : Int) (truncated : Truncated) (item : ContextItem) : Truncated :=
  if maxTokens < ((truncated.currentTokens + estimateTokens item.content : Nat) : Int) then
    if 100 ≤ item.priority then truncated.retain item else truncated.drop item
  else truncated.retain item

end Truncated

def truncate (maxTokens : Int) (sortedItems : List ContextItem) : Truncated :=
  sortedItems.foldl (Truncated.add maxTokens) {}

/-- `list.insert`, for an index in the list. -/
def insertAt (items : List ContextItem) (index : Nat) (item : ContextItem) : List ContextItem :=
  items.take index ++ item :: items.drop index

/-- The rest of the items from this index on, in front and at the back by turns. -/
def alternate (front : Nat) : Nat → List ContextItem → List ContextItem → List ContextItem
  | _, [], result => result
  | idx, item :: rest, result =>
      alternate front (idx + 1) rest
        (if idx % 2 = 0 then insertAt result (front + idx / 2) item else result ++ [item])

def reorderForPositionalBias (items : List ContextItem) : List ContextItem :=
  if items.length ≤ 2 then items
  else
    let system := items.filter fun item => decide (100 ≤ item.priority)
    let user := items.filter fun item => decide (item.kind = "user_message")
    let rest := items.filter fun item => decide (item ∉ system ∧ item ∉ user)
    alternate (system.length + user.length) 0 rest (system ++ user)

variable (assembler : ContextAssembler)

/-- What passes the first four stages. -/
def selected (rawItems : List ContextItem) : Truncated :=
  truncate assembler.maxTokens
    (sortByPriority (ContextPruner.prune (ContextDeduplicator.deduplicate rawItems)).1)

def assemble (rawItems : List ContextItem) : ContextBundle × ContextBudgetReport :=
  let deduped := ContextDeduplicator.deduplicate rawItems
  let (pruned, prunedCount) := ContextPruner.prune deduped
  let truncated := truncate assembler.maxTokens (sortByPriority pruned)
  let lostInMiddle := decide (8 < truncated.retainedItems.length)
  let retainedItems :=
    if lostInMiddle then reorderForPositionalBias truncated.retainedItems
    else truncated.retainedItems
  let utilization := assembler.utilization truncated.currentTokens assembler.maxTokens
  ({ items := retainedItems
     totalEstimatedTokens := truncated.currentTokens
     maxTokens := assembler.maxTokens
     droppedItems := truncated.droppedItems },
   { totalItemsSubmitted := rawItems.length
     itemsAfterDedup := deduped.length
     itemsPruned := prunedCount
     itemsDroppedByBudget := truncated.droppedItems.length
     itemsRetained := retainedItems.length
     estimatedTokensUsed := truncated.currentTokens
     maxTokens := assembler.maxTokens
     utilizationRatio := utilization.ratio
     lostInMiddleWarning := utilization.high && lostInMiddle })

end ContextAssembler

end DurableAgent.Context
