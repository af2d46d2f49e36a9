import Mathlib.Algebra.Order.Floor.Ring
import Mathlib.Algebra.Order.Field.Basic
import Mathlib.Tactic.Linarith

/-!
# Rounding

To the nearest multiple of a power of ten, ties to the even one. Numbers without a floor
bring a rounding of their own.
-/

set_option autoImplicit false

namespace DurableAgent.Library

class Rounding (R : Type) where
  /-- The built-in `round` with a number of digits. -/
  round : Nat → R → R

variable {R : Type} [Field R] [LinearOrder R] [FloorRing R]

def roundHalfEven (value : R) : Int :=
  if Int.fract value < 1 / 2 then ⌊value⌋
  else if 1 / 2 < Int.fract value then ⌊value⌋ + 1
  else if ⌊value⌋ % 2 = 0 then ⌊value⌋ else ⌊value⌋ + 1

/-- `round(value, digits)`. -/
def roundTo (digits : Nat) (value : R) : R := roundHalfEven (value * 10 ^ digits) / 10 ^ digits

instance : Rounding R where
  round := roundTo

@[simp]
theorem round_eq_roundTo (digits : Nat) (value : R) :
    Rounding.round digits value = roundTo digits value := rfl

theorem floor_le_roundHalfEven (value : R) : ⌊value⌋ ≤ roundHalfEven value := by
  unfold roundHalfEven
  split_ifs <;> omega

theorem roundHalfEven_le_succ (value : R) : roundHalfEven value ≤ ⌊value⌋ + 1 := by
  unfold roundHalfEven
  split_ifs <;> omega

variable [IsStrictOrderedRing R]

theorem roundHalfEven_mono {low high : R} (below : low ≤ high) :
    roundHalfEven low ≤ roundHalfEven high := by
  rcases (Int.floor_mono below).lt_or_eq with less | same
  · exact (roundHalfEven_le_succ low).trans (less.trans_le (floor_le_roundHalfEven high))
  · have rests : Int.fract low ≤ Int.fract high := by
      rw [Int.fract, Int.fract, same]
      exact sub_le_sub_right below _
    unfold roundHalfEven
    rw [same]
    split_ifs <;> first | omega | (exfalso; linarith)

theorem roundTo_mono (digits : Nat) : Monotone (roundTo digits : R → R) := by
  intro low high below
  have scale : (0 : R) < 10 ^ digits := by positivity
  refine div_le_div_of_nonneg_right ?_ scale.le
  exact Int.cast_le.mpr (roundHalfEven_mono (mul_le_mul_of_nonneg_right below scale.le))

/-- A whole number is its own rounding. -/
theorem roundTo_intCast (digits : Nat) (value : Int) : roundTo digits (value : R) = value := by
  have scale : (0 : R) < 10 ^ digits := by positivity
  have whole : (value : R) * 10 ^ digits = ((value * 10 ^ digits : Int) : R) := by simp
  have same : roundHalfEven ((value * 10 ^ digits : Int) : R) = value * 10 ^ digits := by
    unfold roundHalfEven
    rw [Int.fract_intCast, if_pos one_half_pos, Int.floor_intCast]
  rw [roundTo, whole, same, ← whole]
  exact mul_div_cancel_right₀ _ scale.ne'

end DurableAgent.Library
