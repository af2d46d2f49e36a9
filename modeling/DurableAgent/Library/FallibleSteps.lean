import Mathlib.Data.List.Basic

/-!
# Series of fallible steps

A step may end with an exception, which ends the series.
-/

set_option autoImplicit false

namespace DurableAgent.Library

variable {Item Result Error State : Type} {f : Item → Except Error Result}

theorem mapM_ok {g : Item → Result} {items : List Item}
    (each : ∀ item ∈ items, f item = .ok (g item)) : items.mapM f = .ok (items.map g) := by
  induction items with
  | nil => rfl
  | cons item rest ih =>
      have first := each item List.mem_cons_self
      have others := ih fun other member => each other (List.mem_cons_of_mem item member)
      rw [List.mapM_cons, first, others]
      rfl

/-- No step of a series that succeeds has failed. -/
theorem step_ok_of_mapM_ok {items : List Item} {results : List Result}
    (succeeded : items.mapM f = .ok results) {item : Item} (member : item ∈ items) :
    ∃ result, f item = .ok result := by
  induction items generalizing results with
  | nil => cases member
  | cons head rest ih =>
      rw [List.mapM_cons] at succeeded
      cases first : f head with
      | error error =>
          rw [first] at succeeded
          cases succeeded
      | ok result =>
          rcases List.mem_cons.mp member with rfl | later
          · exact ⟨result, first⟩
          · cases others : rest.mapM f with
            | error error =>
                rw [first, others] at succeeded
                cases succeeded
            | ok further => exact ih others later

/-- Where a step can fail in one way only, a failing step decides the outcome. -/
theorem mapM_error {items : List Item} {error : Error}
    (each : ∀ item ∈ items, (∃ result, f item = .ok result) ∨ f item = .error error)
    {failing : Item} (member : failing ∈ items) (fails : f failing = .error error) :
    items.mapM f = .error error := by
  induction items with
  | nil => cases member
  | cons item rest ih =>
      rw [List.mapM_cons]
      rcases each item List.mem_cons_self with ⟨result, first⟩ | first
      · rcases List.mem_cons.mp member with rfl | later
        · rw [fails] at first
          cases first
        · rw [first, ih (fun other among => each other (List.mem_cons_of_mem item among)) later]
          rfl
      · rw [first]
        rfl

/-- A loop that updates its state with computed results computes them first. -/
theorem foldlM_eq_mapM (f : Item → Except Error Result) (step : State → Result → State)
    (state : State) (items : List Item) :
    items.foldlM (fun state item => return step state (← f item)) state =
      (items.mapM f).map fun results => results.foldl step state := by
  induction items generalizing state with
  | nil => rfl
  | cons item rest ih =>
      rw [List.foldlM_cons, List.mapM_cons]
      cases first : f item with
      | error error => rfl
      | ok result =>
          refine (ih (step state result)).trans ?_
          cases rest.mapM f with
          | error error => rfl
          | ok results => rfl

end DurableAgent.Library
