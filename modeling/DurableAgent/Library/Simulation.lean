import DurableAgent.Library.TransitionSystem
import Mathlib.Data.List.Forall2

/-!
# Components of a system

Some transitions of a system are steps of a component, and the others do not disturb what
the system shows of it. Every run of the system then carries a run of the component.
-/

set_option autoImplicit false

namespace DurableAgent.Library

variable {State Label Part Action : Type}

/-- Which transitions are steps of the component, and which of its states a state shows. -/
structure Component (State Label Part Action : Type) where
  own : Transition State Label → Option Action
  shows : State → Part → Prop

namespace Component

variable (component : Component State Label Part Action)

def owns (transition : Transition State Label) : Bool := (component.own transition).isSome

/-- The transition of the system is this step of the component. -/
structure Takes (transition : Transition State Label) (taken : Transition Part Action) :
    Prop where
  own : component.own transition = some taken.label
  source : component.shows transition.source taken.source
  target : component.shows transition.target taken.target

/-- What the permitted transitions of the system do to the component. -/
structure Simulates (step : State → Label → Option State)
    (partStep : Part → Action → Option Part) (permitted : Transition State Label → Prop)
    (allowed : Transition Part Action → Prop) : Prop where
  moves : ∀ state label next part action, component.shows state part →
    step state label = some next → permitted ⟨state, label, next⟩ →
    component.own ⟨state, label, next⟩ = some action →
    ∃ after, partStep part action = some after ∧ component.shows next after ∧
      allowed ⟨part, action, after⟩
  rests : ∀ state label next part, component.shows state part →
    step state label = some next → permitted ⟨state, label, next⟩ →
    component.own ⟨state, label, next⟩ = none → component.shows next part

end Component

variable {component : Component State Label Part Action}
  {step : State → Label → Option State} {partStep : Part → Action → Option Part}
  {permitted : Transition State Label → Prop} {allowed : Transition Part Action → Prop}
  {start final : State} {partStart : Part} {history : List (Transition State Label)}

/-- The steps that a component takes in a run of the system are a run of its own. -/
theorem Run.project (simulates : component.Simulates step partStep permitted allowed)
    (base : component.shows start partStart) (run : Run step start history final)
    (all : ∀ transition ∈ history, permitted transition) :
    ∃ taken part, Run partStep partStart taken part ∧ component.shows final part ∧
      (∀ transition ∈ taken, allowed transition) ∧
      List.Forall₂ component.Takes (history.filter component.owns) taken := by
  induction run with
  | nil => exact ⟨[], partStart, .nil, base, by simp, .nil⟩
  | @snoc history state label next previous stepped ih =>
      obtain ⟨taken, part, ran, shown, within, matched⟩ :=
        ih fun transition member => all transition (List.mem_append_left _ member)
      have permits := all ⟨state, label, next⟩ (by simp)
      rw [List.filter_append]
      cases owned : component.own ⟨state, label, next⟩ with
      | none =>
          have rest := simulates.rests state label next part shown stepped permits owned
          refine ⟨taken, part, ran, rest, within, ?_⟩
          simpa [Component.owns, owned] using matched
      | some action =>
          obtain ⟨after, moved, follows, allows⟩ :=
            simulates.moves state label next part action shown stepped permits owned
          refine ⟨taken ++ [⟨part, action, after⟩], after, .snoc ran moved, follows, ?_, ?_⟩
          · intro transition member
            rcases List.mem_append.mp member with old | new
            · exact within transition old
            · rw [List.mem_singleton.mp new]
              exact allows
          · have single : List.Forall₂ component.Takes
                (List.filter component.owns [⟨state, label, next⟩])
                [⟨part, action, after⟩] := by
              simpa [Component.owns, owned] using
                (⟨owned, shown, follows⟩ : component.Takes ⟨state, label, next⟩ _)
            exact List.rel_append matched single

/-- A member of a list has a counterpart in a list that is related to it. -/
theorem counterpart_of_mem {α β : Type} {related : α → β → Prop} {left : List α} {right : List β}
    (matched : List.Forall₂ related left right) {item : α} (member : item ∈ left) :
    ∃ counterpart ∈ right, related item counterpart := by
  induction matched with
  | nil => cases member
  | @cons first second _ _ relates _ ih =>
      rcases List.mem_cons.mp member with rfl | later
      · exact ⟨second, List.mem_cons_self, relates⟩
      · obtain ⟨counterpart, listed, corresponds⟩ := ih later
        exact ⟨counterpart, List.mem_cons_of_mem _ listed, corresponds⟩

/-- What a component did before one of its steps, the system did before it. -/
theorem Component.taken_split {taken earlier later : List (Transition Part Action)}
    {moment : Transition Part Action}
    (matched : List.Forall₂ component.Takes (history.filter component.owns) taken)
    (splits : taken = earlier ++ moment :: later) :
    ∃ before transition after, history = before ++ transition :: after ∧
      component.Takes transition moment ∧
      List.Forall₂ component.Takes (before.filter component.owns) earlier ∧
      List.Forall₂ component.Takes (after.filter component.owns) later := by
  subst splits
  obtain ⟨front, rest, parts, matchedFront, matchedRest⟩ :
      ∃ front rest, history.filter component.owns = front ++ rest ∧
        List.Forall₂ component.Takes front earlier ∧
        List.Forall₂ component.Takes rest (moment :: later) :=
    ⟨_, _, (List.take_append_drop earlier.length _).symm, List.forall₂_take_append _ _ _ matched,
      List.forall₂_drop_append _ _ _ matched⟩
  obtain ⟨before, remaining, rfl, rfl, sameRest⟩ := List.filter_eq_append_iff.mp parts
  cases matchedRest with
  | @cons transition _ tail _ takes matchedTail =>
      obtain ⟨silent, after, rfl, quiet, owned, sameTail⟩ := List.filter_eq_cons_iff.mp sameRest
      refine ⟨before ++ silent, transition, after, by simp, takes, ?_, ?_⟩
      · have nothing : silent.filter component.owns = [] :=
          List.filter_eq_nil_iff.mpr quiet
        rw [List.filter_append, nothing, List.append_nil]
        exact matchedFront
      · rw [sameTail]
        exact matchedTail

end DurableAgent.Library
