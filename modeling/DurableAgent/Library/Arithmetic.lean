import Mathlib.Algebra.Field.Basic
import Mathlib.Algebra.BigOperators.Group.List.Basic
import Mathlib.Data.Rat.Cast.OfScientific

/-!
# Arithmetic

The operations on numbers without any laws, since they may round. A field has them exact.
-/

set_option autoImplicit false

namespace DurableAgent.Library

structure Operations (R : Type) extends Zero R, One R, Add R, Sub R, Mul R, Div R, NatCast R,
    IntCast R, OfScientific R, Pow R Nat

class Arithmetic (R : Type) where
  operations : Operations R
  /-- The built-in `sum`. -/
  sum : List R → R

section Instances

-- the operations of a field are found before those of its arithmetic
variable {R : Type} [arithmetic : Arithmetic R]

instance (priority := low) Arithmetic.toZero : Zero R := arithmetic.operations.toZero

instance (priority := low) Arithmetic.toOne : One R := arithmetic.operations.toOne

instance (priority := low) Arithmetic.toAdd : Add R := arithmetic.operations.toAdd

instance (priority := low) Arithmetic.toSub : Sub R := arithmetic.operations.toSub

instance (priority := low) Arithmetic.toMul : Mul R := arithmetic.operations.toMul

instance (priority := low) Arithmetic.toDiv : Div R := arithmetic.operations.toDiv

instance (priority := low) Arithmetic.toNatCast : NatCast R := arithmetic.operations.toNatCast

instance (priority := low) Arithmetic.toIntCast : IntCast R := arithmetic.operations.toIntCast

instance (priority := low) Arithmetic.toOfScientific : OfScientific R :=
  arithmetic.operations.toOfScientific

instance (priority := low) Arithmetic.toPow : Pow R Nat := arithmetic.operations.toPow

end Instances

instance {R : Type} [Field R] : Arithmetic R where
  operations := {}
  sum := List.sum

@[simp]
theorem Arithmetic.sum_eq {R : Type} [Field R] (amounts : List R) :
    Arithmetic.sum amounts = amounts.sum := rfl

/-- The sum as a loop builds it up from zero. -/
def runningSum {R : Type} [Zero R] [Add R] (amounts : List R) : R :=
  amounts.foldl (fun sum amount => sum + amount) 0

theorem runningSum_concat {R : Type} [Zero R] [Add R] (amounts : List R) (amount : R) :
    runningSum (amounts ++ [amount]) = runningSum amounts + amount :=
  List.foldl_concat ..

theorem runningSum_eq_sum {R : Type} [AddMonoid R] (amounts : List R) :
    runningSum amounts = amounts.sum :=
  List.sum_eq_foldl.symm

/-- What adds nothing may be left out. -/
theorem runningSum_filter {Item R : Type} [AddMonoid R] {kept : Item → Bool} {amount : Item → R}
    {items : List Item} (nothing : ∀ item, kept item = false → amount item = 0) :
    runningSum ((items.filter kept).map amount) = (items.map amount).sum := by
  rw [runningSum_eq_sum]
  induction items with
  | nil => rfl
  | cons item rest ih =>
      rw [List.filter_cons, List.map_cons, List.sum_cons, ← ih]
      split
      · rfl
      · next left => rw [nothing item (Bool.eq_false_iff.mpr left), zero_add]

end DurableAgent.Library
