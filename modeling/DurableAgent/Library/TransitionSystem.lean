import Mathlib.Data.List.Basic

/-!
# Labelled transition systems

A partial step function `State → Label → Option State` carries its whole
nondeterminism in the label. A run keeps every transition it took, so that a
property of the past is a property of the list and needs no ghost state.
-/

set_option autoImplicit false

namespace DurableAgent.Library

variable {State Label : Type}

structure Transition (State Label : Type) where
  source : State
  label : Label
  target : State

inductive Run (step : State → Label → Option State) (start : State) :
    List (Transition State Label) → State → Prop where
  | nil : Run step start [] start
  | snoc {history state label next} :
      Run step start history state → step state label = some next →
      Run step start (history ++ [⟨state, label, next⟩]) next

namespace Run

variable {step : State → Label → Option State} {start final : State}
  {history : List (Transition State Label)}

/-- The induction rule for runs: a property of the past and the present that
holds at the start and is kept by every permitted transition. -/
theorem invariant (permitted : Transition State Label → Prop)
    (holds : List (Transition State Label) → State → Prop)
    (base : holds [] start)
    (kept : ∀ history state label next, Run step start history state →
      holds history state → step state label = some next →
      permitted ⟨state, label, next⟩ → holds (history ++ [⟨state, label, next⟩]) next)
    (run : Run step start history final)
    (all : ∀ transition ∈ history, permitted transition) : holds history final := by
  induction run with
  | nil => exact base
  | snoc previous stepped ih =>
      have earlier := ih fun transition member => all transition (List.mem_append_left _ member)
      exact kept _ _ _ _ previous earlier stepped (all _ (by simp))

/-- The same rule for a property of the present alone. -/
theorem preserves (permitted : Transition State Label → Prop) (holds : State → Prop)
    (base : holds start)
    (kept : ∀ state label next, holds state → step state label = some next →
      permitted ⟨state, label, next⟩ → holds next)
    (run : Run step start history final)
    (all : ∀ transition ∈ history, permitted transition) : holds final :=
  invariant permitted (fun _ state => holds state) base
    (fun _ state label next _ held stepped allowed => kept state label next held stepped allowed)
    run all

theorem append {middle : State} {later : List (Transition State Label)}
    (first : Run step start history middle) (second : Run step middle later final) :
    Run step start (history ++ later) final := by
  induction second with
  | nil => simpa using first
  | snoc _ stepped ih =>
      rw [← List.append_assoc]
      exact .snoc ih stepped

theorem split {earlier later : List (Transition State Label)}
    (run : Run step start (earlier ++ later) final) :
    ∃ middle, Run step start earlier middle ∧ Run step middle later final := by
  generalize whole : earlier ++ later = history at run
  induction run generalizing later with
  | nil =>
      obtain ⟨rfl, rfl⟩ := List.append_eq_nil_iff.mp whole
      exact ⟨start, .nil, .nil⟩
  | @snoc history state label next previous stepped ih =>
      rcases List.eq_nil_or_concat later with rfl | ⟨front, last, rfl⟩
      · rw [List.append_nil] at whole
        subst whole
        exact ⟨next, .snoc previous stepped, .nil⟩
      · rw [List.concat_eq_append, ← List.append_assoc] at whole
        obtain ⟨same, single⟩ := List.append_inj' whole rfl
        obtain ⟨middle, first, second⟩ := ih same
        cases single
        rw [List.concat_eq_append]
        exact ⟨middle, first, .snoc second stepped⟩

theorem cons_inv {transition : Transition State Label}
    {later : List (Transition State Label)}
    (run : Run step start (transition :: later) final) :
    start = transition.source ∧ step transition.source transition.label = some transition.target ∧
      Run step transition.target later final := by
  have whole : Run step start ([transition] ++ later) final := run
  obtain ⟨middle, first, second⟩ := split whole
  generalize single : [transition] = history at first
  cases first with
  | nil => cases single
  | @snoc front state label _ previous stepped =>
      rw [← List.nil_append [transition]] at single
      obtain ⟨nothing, same⟩ := List.append_inj' single rfl
      subst nothing
      cases same
      generalize empty : ([] : List (Transition State Label)) = none at previous
      cases previous with
      | nil => exact ⟨rfl, stepped, second⟩
      | snoc => simp at empty

theorem around {earlier later : List (Transition State Label)}
    {transition : Transition State Label}
    (run : Run step start (earlier ++ transition :: later) final) :
    Run step start earlier transition.source ∧
      step transition.source transition.label = some transition.target ∧
      Run step transition.target later final := by
  obtain ⟨middle, first, second⟩ := split run
  obtain ⟨rfl, stepped, rest⟩ := cons_inv second
  exact ⟨first, stepped, rest⟩

theorem stepped_of_mem {transition : Transition State Label}
    (run : Run step start history final) (member : transition ∈ history) :
    step transition.source transition.label = some transition.target := by
  obtain ⟨earlier, later, rfl⟩ := List.append_of_mem member
  exact (around run).2.1

/-- A nonempty run ends in the target of its last transition. -/
theorem final_eq {transition : Transition State Label}
    (run : Run step start (history ++ [transition]) final) : final = transition.target := by
  obtain ⟨_, _, rest⟩ := around run
  generalize empty : ([] : List (Transition State Label)) = none at rest
  cases rest with
  | nil => rfl
  | snoc => simp at empty

/-- A run of a system whose labels are resolved into those of another. -/
theorem relabel {Command : Type} (resolve : State → Command → Label)
    {commands : List (Transition State Command)}
    (run : Run (fun state command => step state (resolve state command)) start commands final) :
    Run step start
      (commands.map fun taken => ⟨taken.source, resolve taken.source taken.label, taken.target⟩)
      final := by
  induction run with
  | nil => exact .nil
  | snoc _ stepped ih =>
      rw [List.map_append]
      exact .snoc ih stepped

end Run

/-- The run that a list of labels drives, when every label is enabled. -/
def execute (step : State → Label → Option State) (start : State) :
    List Label → Option (List (Transition State Label) × State)
  | [] => some ([], start)
  | label :: rest =>
      match step start label with
      | none => none
      | some next =>
          (execute step next rest).map fun outcome =>
            (⟨start, label, next⟩ :: outcome.1, outcome.2)

theorem execute_cons {step : State → Label → Option State} {start : State} {label : Label}
    {rest : List Label} {outcome : List (Transition State Label) × State}
    (executed : execute step start (label :: rest) = some outcome) :
    ∃ next tail, step start label = some next ∧ execute step next rest = some tail ∧
      outcome = (⟨start, label, next⟩ :: tail.1, tail.2) := by
  simp only [execute] at executed
  cases stepped : step start label with
  | none => simp [stepped] at executed
  | some next =>
      simp only [stepped] at executed
      obtain ⟨tail, ran, same⟩ := Option.map_eq_some_iff.mp executed
      exact ⟨next, tail, rfl, ran, same.symm⟩

theorem execute_run {step : State → Label → Option State} {start : State}
    {labels : List Label} {outcome : List (Transition State Label) × State}
    (executed : execute step start labels = some outcome) :
    Run step start outcome.1 outcome.2 := by
  induction labels generalizing start outcome with
  | nil =>
      cases executed
      exact .nil
  | cons label rest ih =>
      obtain ⟨next, tail, stepped, ran, rfl⟩ := execute_cons executed
      have single : Run step start ([] ++ [⟨start, label, next⟩]) next := .snoc .nil stepped
      exact single.append (ih ran)

theorem execute_labels {step : State → Label → Option State} {start : State}
    {labels : List Label} {outcome : List (Transition State Label) × State}
    (executed : execute step start labels = some outcome) :
    outcome.1.map (·.label) = labels := by
  induction labels generalizing start outcome with
  | nil =>
      cases executed
      rfl
  | cons label rest ih =>
      obtain ⟨next, tail, _, ran, rfl⟩ := execute_cons executed
      rw [List.map_cons, ih ran]

/-- A list of labels that drives the system through a given observation of the
transitions it took and of the state it reached. -/
theorem execute_observed {Observation : Type} (step : State → Label → Option State)
    (start : State) (labels : List Label)
    (observe : List (Transition State Label) × State → Observation) (observation : Observation)
    (driven : (execute step start labels).map observe = some observation) :
    ∃ history final, Run step start history final ∧ history.map (·.label) = labels ∧
      observe (history, final) = observation := by
  obtain ⟨outcome, executed, observed⟩ := Option.map_eq_some_iff.mp driven
  exact ⟨outcome.1, outcome.2, execute_run executed, execute_labels executed, observed⟩

/-- However the permitted labels are chosen, execution from the state stops
after finitely many transitions, and where it stops the goal holds. -/
inductive Settles (step : State → Label → Option State) (permitted : State → Label → Prop)
    (stopped : State → Prop) (goal : List (Transition State Label) → State → Prop) :
    List (Transition State Label) → State → Prop where
  | stop {history state} :
      stopped state → goal history state → Settles step permitted stopped goal history state
  | move {history state} :
      ¬ stopped state →
      (∃ label next, permitted state label ∧ step state label = some next) →
      (∀ label next, permitted state label → step state label = some next →
        Settles step permitted stopped goal (history ++ [⟨state, label, next⟩]) next) →
      Settles step permitted stopped goal history state

namespace Settles

variable {step : State → Label → Option State} {permitted : State → Label → Prop}
  {stopped : State → Prop} {goal other : List (Transition State Label) → State → Prop}
  {history : List (Transition State Label)} {state : State}

theorem mono (implies : ∀ history state, goal history state → other history state)
    (settles : Settles step permitted stopped goal history state) :
    Settles step permitted stopped other history state := by
  induction settles with
  | stop halted reached => exact .stop halted (implies _ _ reached)
  | move active enabled _ ih => exact .move active enabled ih

theorem halted (settles : Settles step permitted stopped goal history state) :
    Settles step permitted stopped (fun history state => goal history state ∧ stopped state)
      history state := by
  induction settles with
  | stop rests reached => exact .stop rests ⟨reached, rests⟩
  | move active enabled _ ih => exact .move active enabled ih

/-- What every permitted transition keeps on the way holds at the end. -/
theorem keeps {holds : List (Transition State Label) → State → Prop}
    (settles : Settles step permitted stopped goal history state) (base : holds history state)
    (kept : ∀ history state label next, holds history state → ¬ stopped state →
      permitted state label → step state label = some next →
      holds (history ++ [⟨state, label, next⟩]) next) :
    Settles step permitted stopped (fun history state => goal history state ∧ holds history state)
      history state := by
  induction settles with
  | stop halted reached => exact .stop halted ⟨reached, base⟩
  | move active enabled _ ih =>
      refine .move active enabled ?_
      intro label next allowed stepped
      exact ih label next allowed stepped (kept _ _ _ _ base active allowed stepped)

theorem both (left : Settles step permitted stopped goal history state)
    (right : Settles step permitted stopped other history state) :
    Settles step permitted stopped (fun history state => goal history state ∧ other history state)
      history state := by
  induction left with
  | stop halted reached =>
      cases right with
      | stop _ also => exact .stop halted ⟨reached, also⟩
      | move active => exact absurd halted active
  | move active enabled _ ih =>
      cases right with
      | stop halted => exact absurd halted active
      | move _ _ rest =>
          refine .move active enabled ?_
          intro label next allowed stepped
          exact ih label next allowed stepped (rest label next allowed stepped)

theorem reaches (settles : Settles step permitted stopped goal history state) :
    ∃ history state, goal history state := by
  induction settles with
  | stop _ reached => exact ⟨_, _, reached⟩
  | move _ enabled _ ih =>
      obtain ⟨label, next, allowed, stepped⟩ := enabled
      exact ih label next allowed stepped

/-- Two goals that both must be reached are reached together somewhere. -/
theorem agree (left : Settles step permitted stopped goal history state)
    (right : Settles step permitted stopped other history state) :
    ∃ history state, goal history state ∧ other history state :=
  (left.both right).reaches

/-- Every run along permitted labels that has come to a stop meets the goal. -/
theorem sound {later : List (Transition State Label)} {final : State}
    (settles : Settles step permitted stopped goal history state)
    (run : Run step state later final)
    (allowed : ∀ transition ∈ later, permitted transition.source transition.label)
    (active : ∀ transition ∈ later, ¬ stopped transition.source)
    (halted : stopped final) : goal (history ++ later) final := by
  induction later generalizing history state with
  | nil =>
      generalize empty : ([] : List (Transition State Label)) = none at run
      cases run with
      | nil =>
          cases settles with
          | stop _ reached => simpa using reached
          | move running => exact absurd halted running
      | snoc => simp at empty
  | cons transition later ih =>
      obtain ⟨rfl, stepped, rest⟩ := run.cons_inv
      cases settles with
      | stop ended => exact absurd ended (active transition (by simp))
      | move _ _ continues =>
          have next := continues _ _ (allowed transition (by simp)) stepped
          have reached := ih next rest
            (fun later member => allowed later (by simp [member]))
            (fun later member => active later (by simp [member]))
          simpa using reached

end Settles

end DurableAgent.Library
