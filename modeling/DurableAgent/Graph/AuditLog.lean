import DurableAgent.Graph.Thread

/-!
# The audit log

Every completed execution of a node appends one trace event, numbered by the
length of the log before it. Calls, interrupts, errors and crashes append none.
-/

set_option autoImplicit false

namespace DurableAgent.Graph

open Jobs Library Python

def completedNode (host : Host) (transition : ThreadTransition) : Option Node :=
  match transition.source.position, transition.label with
  | .executing node review, .node store clock =>
      match node.execute host transition.source.values review store clock with
      | .updated _ _ => some node
      | .interrupted | .raised _ => none
  | _, _ => none

/-- The log has the completed executions of the history, in their order, and
numbers its events by their positions. -/
structure Logged (host : Host) (history : List ThreadTransition) (events : List TraceEvent) :
    Prop where
  nodes : events.map (·.node) = history.filterMap (completedNode host)
  indexed : ∀ index (event : TraceEvent), events[index]? = some event → event.step = index

/-- What one transition appends to the log. -/
inductive Appends (host : Host) (transition : ThreadTransition) : Prop where
  | nothing : completedNode host transition = none →
      transition.target.values.traceEvents = transition.source.values.traceEvents →
      Appends host transition
  | one (event : TraceEvent) : completedNode host transition = some event.node →
      event.step = transition.source.values.traceEvents.length →
      transition.target.values.traceEvents =
        transition.source.values.traceEvents ++ [event] →
      Appends host transition

section Log

variable {host : Host} {threadId : String} {start middle thread next : Thread}
  {history earlier later : List ThreadTransition}

private theorem advance_appends {node : Node} {review : Option Dict} (store : SQLiteJobStore)
    (clock : Nat) (executing : thread.position = .executing node review) :
    Appends host ⟨thread, .node store clock, thread.advance host node review store clock⟩ := by
  have executed := node.execute_cases host thread.values review store clock
  cases outcome : node.execute host thread.values review store clock with
  | updated update changed =>
      rw [outcome] at executed
      obtain ⟨event, traced, recorder, numbered⟩ := executed.traced
      refine .one event ?_ numbered ?_
      · simp [completedNode, executing, outcome, recorder]
      · simp [Thread.advance, outcome, Thread.proceed, MacroAgentState.apply, traced, reduced,
          reduceAppend]
  | interrupted =>
      apply Appends.nothing
      · simp [completedNode, executing, outcome]
      · simp [Thread.advance, outcome]
  | raised exception =>
      apply Appends.nothing
      · simp [completedNode, executing, outcome]
      · simp [Thread.advance, outcome]

theorem step_appends {action : ThreadAction}
    (stepped : thread.step host threadId action = some next) :
    Appends host ⟨thread, action, next⟩ := by
  have silent : (∀ store clock, action ≠ .node store clock) →
      completedNode host ⟨thread, action, next⟩ = none := by
    intro other
    unfold completedNode
    split
    · next label => exact absurd label (other _ _)
    · rfl
  cases Thread.step_cases stepped with
  | runWorkflow runId userQuery settled => exact .nothing (silent (by simp)) rfl
  | resumeWorkflow review paused => exact .nothing (silent (by simp)) rfl
  | node node review store clock executing => exact advance_appends store clock executing
  | others store settled => exact .nothing (silent (by simp)) rfl
  | crash node review store clock executing => exact .nothing (silent (by simp)) rfl

theorem Logged.step {transition : ThreadTransition}
    (logged : Logged host history transition.source.values.traceEvents)
    (appends : Appends host transition) :
    Logged host (history ++ [transition]) transition.target.values.traceEvents := by
  cases appends with
  | nothing silent same =>
      rw [same]
      refine ⟨?_, logged.indexed⟩
      simp [List.filterMap_append, silent, logged.nodes]
  | one event completes numbered extended =>
      rw [extended]
      constructor
      · simp [List.filterMap_append, completes, logged.nodes]
      · intro index other found
        rw [List.getElem?_append] at found
        split at found
        · exact logged.indexed index other found
        · next beyond =>
            rw [List.getElem?_singleton] at found
            split at found
            · cases found
              omega
            · cases found

theorem run_logged (blank : start.values.traceEvents = [])
    (run : Run (Thread.step host threadId) start history thread) :
    Logged host history thread.values.traceEvents := by
  induction run with
  | nil =>
      rw [blank]
      exact ⟨rfl, by simp⟩
  | snoc _ stepped ih => exact ih.step (step_appends stepped)

theorem run_extends (run : Run (Thread.step host threadId) start history thread) :
    start.values.traceEvents <+: thread.values.traceEvents := by
  induction run with
  | nil => exact List.prefix_refl _
  | snoc _ stepped ih =>
      cases step_appends stepped with
      | nothing _ same => exact same ▸ ih
      | one event _ _ extended =>
          rw [extended]
          exact ih.trans (List.prefix_append _ _)

/-- On a thread that starts with an empty log, the log of every reachable state
has exactly one event for each completed node execution, event `i` is numbered
`i`, and the log of every earlier state is a prefix of it. -/
theorem auditLog_append_only (blank : start.values.traceEvents = [])
    (before : Run (Thread.step host threadId) start earlier middle)
    (after : Run (Thread.step host threadId) middle later thread) :
    Logged host (earlier ++ later) thread.values.traceEvents ∧
      middle.values.traceEvents <+: thread.values.traceEvents :=
  ⟨run_logged blank (before.append after), run_extends after⟩

end Log

/-- A request is paused and resumed; the interrupted execution of
`human_approval` leaves no event, the repeated one leaves one. -/
theorem auditLog_append_only_across_pause :
    ∃ earlier middle later thread,
      Run (Thread.step Host.ascii "t") Thread.initial earlier middle ∧
      Run (Thread.step Host.ascii "t") middle later thread ∧
      middle.values.traceEvents.length = 2 ∧ thread.values.traceEvents.length = 4 ∧
      Logged Host.ascii (earlier ++ later) thread.values.traceEvents ∧
      middle.values.traceEvents <+: thread.values.traceEvents := by
  obtain ⟨history, thread, run, labels, observed⟩ :=
    execute_observed (Thread.step Host.ascii "t") Thread.initial
      [.runWorkflow "r" "Diagnose CPI trends", .node .empty 0, .node .empty 0, .node .empty 0,
        .resumeWorkflow [("action", .str "approved")], .node .empty 0, .node .empty 0]
      (fun outcome => ((outcome.1.drop 4).head?.map fun taken =>
        taken.source.values.traceEvents.length, outcome.2.values.traceEvents.length))
      (some 2, 4) (by decide +kernel)
  obtain ⟨paused, grown⟩ := Prod.mk.inj observed
  obtain ⟨resumption, first, two⟩ := Option.map_eq_some_iff.mp paused
  have whole : history = history.take 4 ++ history.drop 4 := (List.take_append_drop 4 history).symm
  rw [whole] at run
  obtain ⟨middle, before, after⟩ := run.split
  have logs := auditLog_append_only rfl before after
  refine ⟨_, middle, _, thread, before, after, ?_, grown, logs⟩
  obtain ⟨rest, resumes⟩ := List.head?_eq_some_iff.mp first
  rw [resumes] at after
  rw [after.cons_inv.1, two]

end DurableAgent.Graph
