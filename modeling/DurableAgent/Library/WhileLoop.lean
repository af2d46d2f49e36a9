/-!
# While loops

The meaning of a while loop as a relation between the state before it and the
state after it, and a bounded execution that computes it whenever a measure
decreases with every turn that the loop goes on after.
-/

set_option autoImplicit false

namespace DurableAgent.Library

variable {State : Type}

/-- The loop that turns `body` while `running` ends in the second state. -/
inductive Exits (running : State → Bool) (body : State → State) : State → State → Prop where
  | stop {state} : running state = false → Exits running body state state
  | turn {state final} :
      running state = true → Exits running body (body state) final →
      Exits running body state final

/-- At most so many turns of the loop. -/
def repeatWhile (running : State → Bool) (body : State → State) : Nat → State → State
  | 0, state => state
  | turns + 1, state =>
      if running state then repeatWhile running body turns (body state) else state

section

variable {running : State → Bool} {body : State → State}

theorem repeatWhile_of_stopped {state : State} (stopped : running state = false) (turns : Nat) :
    repeatWhile running body turns state = state := by
  cases turns with
  | zero => rfl
  | succ turns => simp [repeatWhile, stopped]

theorem exits_of_repeatWhile {turns : Nat} {state : State}
    (stopped : running (repeatWhile running body turns state) = false) :
    Exits running body state (repeatWhile running body turns state) := by
  induction turns generalizing state with
  | zero => exact .stop stopped
  | succ turns ih =>
      cases active : running state with
      | false =>
          rw [repeatWhile_of_stopped active]
          exact .stop active
      | true =>
          rw [repeatWhile, if_pos active] at stopped ⊢
          exact .turn active (ih stopped)

/-- With more turns than the measure allows, the loop comes to its end. -/
theorem repeatWhile_exits (measure : State → Nat)
    (decreases : ∀ state, running state = true → running (body state) = true →
      measure (body state) < measure state)
    {turns : Nat} {state : State} (enough : measure state < turns) :
    Exits running body state (repeatWhile running body turns state) := by
  induction turns generalizing state with
  | zero => exact absurd enough (Nat.not_lt_zero _)
  | succ turns ih =>
      cases active : running state with
      | false =>
          rw [repeatWhile_of_stopped active]
          exact .stop active
      | true =>
          rw [repeatWhile, if_pos active]
          cases further : running (body state) with
          | false =>
              rw [repeatWhile_of_stopped further]
              exact .turn active (.stop further)
          | true =>
              have less := decreases state active further
              exact .turn active (ih (by omega))

namespace Exits

variable {state final : State}

theorem stopped (exits : Exits running body state final) : running final = false := by
  induction exits with
  | stop ended => exact ended
  | turn _ _ ih => exact ih

/-- The invariant rule: what every turn keeps holds at the end. -/
theorem invariant {holds : State → Prop} (exits : Exits running body state final)
    (kept : ∀ before, running before = true → holds before → holds (body before))
    (base : holds state) : holds final := by
  induction exits with
  | stop _ => exact base
  | turn active _ ih => exact ih (kept _ active base)

/-- A loop that ends has one final state, which enough turns compute. -/
theorem repeatWhile (exits : Exits running body state final) :
    ∃ needed, ∀ turns, needed ≤ turns → repeatWhile running body turns state = final := by
  induction exits with
  | stop ended => exact ⟨0, fun turns _ => repeatWhile_of_stopped ended turns⟩
  | turn active _ ih =>
      obtain ⟨needed, computed⟩ := ih
      refine ⟨needed + 1, fun turns enough => ?_⟩
      obtain ⟨further, rfl⟩ := Nat.exists_eq_add_of_le enough
      rw [show needed + 1 + further = (needed + further) + 1 by omega, Library.repeatWhile,
        if_pos active]
      exact computed _ (Nat.le_add_right _ _)

theorem unique {other : State} (exits : Exits running body state final)
    (exitsToo : Exits running body state other) : final = other := by
  obtain ⟨needed, computed⟩ := exits.repeatWhile
  obtain ⟨neededToo, computedToo⟩ := exitsToo.repeatWhile
  rw [← computed (needed + neededToo) (by omega), ← computedToo (needed + neededToo) (by omega)]

end Exits

end

end DurableAgent.Library
