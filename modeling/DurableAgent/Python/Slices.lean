import Mathlib.Data.List.Basic

/-!
# Python slices

Bounds of a slice count from the end where they are negative, and are clipped.
-/

set_option autoImplicit false

namespace DurableAgent.Python

variable {α : Type}

def sliceBound (length : Nat) (bound : Int) : Nat :=
  if bound < 0 then (bound + length).toNat else bound.toNat

/-- `items[start:stop]`. -/
def slice (items : List α) (start stop : Int) : List α :=
  (items.take (sliceBound items.length stop)).drop (sliceBound items.length start)

/-- `items[:stop]`. -/
def sliceTo (items : List α) (stop : Int) : List α := items.take (sliceBound items.length stop)

@[simp] theorem sliceBound_natCast (length bound : Nat) : sliceBound length bound = bound :=
  if_neg (by omega)

theorem slice_natCast (items : List α) (start stop : Nat) :
    slice items start stop = (items.take stop).drop start := by
  simp [slice]

theorem sliceTo_natCast (items : List α) (stop : Nat) : sliceTo items stop = items.take stop := by
  simp [sliceTo]

theorem mem_of_mem_sliceTo {items : List α} {stop : Int} {item : α}
    (member : item ∈ sliceTo items stop) : item ∈ items :=
  List.mem_of_mem_take member

theorem sliceTo_map {β : Type} (f : α → β) (items : List α) (stop : Int) :
    sliceTo (items.map f) stop = (sliceTo items stop).map f := by
  simp [sliceTo, List.map_take]

end DurableAgent.Python
