import DurableAgent.Python.Value

/-!
# Context items and bundles

`context/models.py`, as far as the runtime fills and reads it.
-/

set_option autoImplicit false

namespace DurableAgent.Context

structure ContextItem where
  itemId : String
  kind : String
  content : String
  priority : Int
  trustLevel : String
  ageInSteps : Int := 0

structure ContextBundle where
  items : List ContextItem
  totalEstimatedTokens : Nat
  maxTokens : Int
  droppedItems : List ContextItem := []

/-- The utilization ratio is kept as its `repr`. -/
structure ContextBudgetReport where
  totalItemsSubmitted : Nat
  itemsAfterDedup : Nat
  itemsPruned : Nat
  itemsDroppedByBudget : Nat
  itemsRetained : Nat
  estimatedTokensUsed : Nat
  maxTokens : Int
  utilizationRatio : String
  lostInMiddleWarning : Bool := false

end DurableAgent.Context
