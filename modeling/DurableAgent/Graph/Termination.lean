import DurableAgent.Graph.Calls

/-!
# Termination of calls

Whatever the store holds and becomes, a call comes to an end: every cycle of
the graph passes through the router, with two more trace events than before.
-/

set_option autoImplicit false

namespace DurableAgent.Graph

open Capability Jobs Library Python

section Bounds

variable {host : Host} {threadId : String} {allowed : Thread → SQLiteJobStore → Prop}
  {goal : List ThreadTransition → Thread → Prop} {history : List ThreadTransition}

theorem advance_steps_le (thread : Thread) (host : Host) (node : Node) (review : Option Dict)
    (store : SQLiteJobStore) (clock : Nat) :
    (thread.advance host node review store clock).values.steps ≤ thread.values.steps + 1 := by
  rcases thread.advance_values host node review store clock with
    ⟨update, changed, executed, outcome⟩ | outcome
  · obtain ⟨event, traced, _⟩ := executed.traced
    rw [outcome]
    exact Nat.le_of_eq (thread.values.steps_apply traced)
  · rw [outcome]
    exact Nat.le_succ _

/-- A node whose execution leaves the thread settled ends the call. -/
theorem Ends.last {thread : Thread} {node : Node} {review : Option Dict}
    (possible : ∀ thread, ∃ store, allowed thread store)
    (executing : thread.position = .executing node review)
    (settles : ∀ store clock, (thread.advance host node review store clock).Settled) :
    Ends host threadId allowed (fun _ final => final.values.steps ≤ thread.values.steps + 1)
      history thread := by
  refine Ends.node executing (possible thread) ?_
  intro store clock _
  exact Ends.settled (settles store clock) (advance_steps_le thread host node review store clock)

/-- After a job node comes the end, an error, the router or `finalize`. -/
private theorem job_ends (thread : Thread) {node : Node} {review : Option Dict}
    (possible : ∀ thread, ∃ store, allowed thread store)
    (executing : thread.position = .executing node review)
    (jobNode : node = .submitMcpJob ∨ node = .pollJobStatus)
    (stops : ∀ history final, final.values.steps ≤ thread.values.steps + 1 → goal history final)
    (routes : ∀ history following values store,
      following = .assembleContext ∨ following = .finalize →
      values.steps = thread.values.steps + 1 →
      Ends host threadId allowed goal history ⟨values, .executing following none, store⟩) :
    Ends host threadId allowed goal history thread := by
  refine Ends.node executing (possible thread) ?_
  intro store clock _
  have bound := advance_steps_le thread host node review store clock
  rcases thread.advance_cases host node review store clock with
    ⟨update, changed, executed, outcome⟩ | ⟨executed, outcome⟩ | ⟨exception, _, outcome⟩
  · rw [outcome] at bound ⊢
    obtain ⟨event, traced, _⟩ := executed.traced
    have advanced := thread.values.steps_apply traced
    cases leads : successor node (thread.values.apply update) with
    | none =>
        rw [Thread.proceed_end leads] at bound ⊢
        exact Ends.settled (Thread.settled_atEnd _ _) (stops _ _ bound)
    | some following =>
        rw [Thread.proceed_to leads]
        refine routes _ following _ _ ?_ advanced
        rcases jobNode with rfl | rfl
        · simp only [successor] at leads
          split at leads <;> simp_all
        · simp only [successor] at leads
          split at leads <;> simp_all
  · rcases jobNode with rfl | rfl <;> cases executed
  · rw [outcome] at bound ⊢
    exact Ends.settled (Thread.settled_raised _ _ _) (stops _ _ bound)

private theorem finalize_ends {thread : Thread} {review : Option Dict}
    (possible : ∀ thread, ∃ store, allowed thread store)
    (executing : thread.position = .executing .finalize review) :
    Ends host threadId allowed (fun _ final => final.values.steps ≤ thread.values.steps + 1)
      history thread :=
  Ends.last possible executing fun _ _ => Thread.settled_atEnd _ _

/-- Below the limit every branch of the router ends, if the router ends from
whatever state the job nodes bring it. -/
private theorem branch_ends {values : MacroAgentState} {store : SQLiteJobStore}
    (possible : ∀ thread, ∃ store, allowed thread store)
    (again : ∀ history following store, values.steps < stepLimit →
      following.steps = values.steps + 1 →
      Ends host threadId allowed
        (fun _ final => final.values.steps ≤ max (values.steps + 2) (stepLimit + 1))
        history ⟨following, .executing .assembleContext none, store⟩) :
    Ends host threadId allowed
      (fun _ final => final.values.steps ≤ max values.steps (stepLimit + 1))
      history ⟨values, (decideNextAction values).position, store⟩ := by
  have within : decideNextAction values ≠ .maxStepsHit → values.steps < stepLimit := by
    intro routed
    by_contra limit
    exact routed (decideNextAction_of_limit (Nat.not_lt.mp limit))
  have onwards : ∀ history following after store, values.steps < stepLimit →
      following = Node.assembleContext ∨ following = .finalize →
      after.steps = values.steps + 1 →
      Ends host threadId allowed
        (fun _ final => final.values.steps ≤ max values.steps (stepLimit + 1))
        history ⟨after, .executing following none, store⟩ := by
    intro history following after store below either advanced
    rcases either with rfl | rfl
    · refine (again history after store below advanced).mono ?_
      intro later final bound
      omega
    · refine (finalize_ends possible rfl).mono ?_
      intro later final bound
      dsimp only at bound
      omega
  cases routed : decideNextAction values with
  | maxStepsHit => exact Ends.settled (Thread.settled_atEnd _ _) (Nat.le_max_left _ _)
  | humanApproval =>
      have below := within (by simp [routed])
      refine (Ends.last possible rfl fun _ _ => Thread.settled_interrupted _ _).mono ?_
      intro later final bound
      dsimp only at bound
      omega
  | finalize =>
      have below := within (by simp [routed])
      refine (finalize_ends possible rfl).mono ?_
      intro later final bound
      dsimp only at bound
      omega
  | submitMcpJob =>
      have below := within (by simp [routed])
      refine job_ends ⟨values, .executing .submitMcpJob none, store⟩ possible rfl (.inl rfl) ?_
        fun history following after store => onwards history following after store below
      intro later final bound
      dsimp only at bound
      omega
  | pollJobStatus =>
      have below := within (by simp [routed])
      refine job_ends ⟨values, .executing .pollJobStatus none, store⟩ possible rfl (.inr rfl) ?_
        fun history following after store => onwards history following after store below
      intro later final bound
      dsimp only at bound
      omega

/-- From `assemble_context` on, a call adds at most one event above the limit. -/
theorem assemble_ends (rounds : Nat) (thread : Thread) {review : Option Dict}
    (possible : ∀ thread, ∃ store, allowed thread store)
    (executing : thread.position = .executing .assembleContext review)
    (remaining : stepLimit ≤ thread.values.steps + 1 + rounds) :
    Ends host threadId allowed
      (fun _ final => final.values.steps ≤ max (thread.values.steps + 1) (stepLimit + 1))
      history thread := by
  induction rounds generalizing history thread review with
  | zero =>
      refine Ends.assemble executing (possible thread) ?_
      intro store clock _
      rw [Thread.proceed_routed rfl, ← assembled_steps thread.values]
      refine branch_ends possible ?_
      intro history following store within
      rw [assembled_steps] at within
      omega
  | succ rounds ih =>
      refine Ends.assemble executing (possible thread) ?_
      intro store clock _
      rw [Thread.proceed_routed rfl, ← assembled_steps thread.values]
      refine branch_ends possible ?_
      intro history following store within advanced
      refine (ih ⟨following, _, store⟩ rfl ?_).mono ?_
      · rw [assembled_steps] at advanced
        dsimp only
        omega
      · intro later final bound
        dsimp only at bound
        omega

/-- Every accepted resume call ends, whatever others do to the store. -/
theorem resume_terminates {thread : Thread}
    (possible : ∀ thread, ∃ store, allowed thread store)
    (paused : thread.position = .interrupted) (review : Dict) :
    CallEnds host threadId allowed
      (fun _ final => final.values.steps ≤ max (thread.values.steps + 2) (stepLimit + 1))
      thread (.resumeWorkflow review) := by
  refine ⟨_, Thread.step_resumeWorkflow paused review, Ends.node rfl (possible _) ?_⟩
  intro store clock _
  cases answered : host.answer review with
  | none =>
      refine Ends.settled (Thread.settled_interrupted _ _) ?_
      exact (Nat.le_add_right _ 2).trans (Nat.le_max_left _ _)
  | some answer =>
      let decided : Thread := ⟨thread.values.apply (humanApprovalNode thread.values answer),
        .executing .assembleContext none, store⟩
      have steps : decided.values.steps = thread.values.steps + 1 :=
        MacroAgentState.steps_apply _ rfl
      refine (assemble_ends stepLimit decided possible rfl (by omega)).mono ?_
      intro later final bound
      rw [steps] at bound
      exact bound

/-- Every accepted run call ends, whatever others do to the store. -/
theorem run_terminates {thread : Thread}
    (possible : ∀ thread, ∃ store, allowed thread store) (settled : thread.Settled)
    (runId query : String) :
    CallEnds host threadId allowed
      (fun _ final => final.values.steps ≤ max (thread.values.steps + 2) (stepLimit + 1))
      thread (.runWorkflow runId query) := by
  refine CallEnds.run settled (possible _) ?_
  intro store clock _
  let parsed : Thread := ⟨opened host thread.values threadId runId query,
    .executing .assembleContext none, store⟩
  refine (assemble_ends stepLimit parsed possible rfl (by omega)).mono ?_
  intro later final bound
  rw [show parsed.values.steps = thread.values.steps + 1 from opened_steps thread.values] at bound
  exact bound

end Bounds

def ThreadAction.isCall : ThreadAction → Bool
  | .runWorkflow _ _ | .resumeWorkflow _ => true
  | .node _ _ | .others _ | .crash _ _ => false

/-- The thread stands at an interrupt or at the end of the graph, or at the node
that raised. -/
inductive Stopped : Position → Prop where
  | atEnd : Stopped .atEnd
  | interrupted : Stopped .interrupted
  | raised (exception : Exception) : Stopped (.raised exception)

/-- A call stops after finitely many node executions, within the step guard. -/
def StopsWithinGuard (host : Host) (threadId : String) (thread : Thread) (call : ThreadAction) :
    Prop :=
  CallEnds host threadId (fun _ _ => True)
    (fun _ final => Stopped final.position ∧
      final.values.steps ≤ max (thread.values.steps + 2) (stepLimit + 1)) thread call

section Stopping

variable {host : Host} {threadId : String} {thread : Thread} {call : ThreadAction}

private theorem stopped_of_settled (settled : thread.Settled)
    (survived : thread.position ≠ .crashed) : Stopped thread.position := by
  cases stands : thread.position with
  | atEnd => exact .atEnd
  | interrupted => exact .interrupted
  | raised exception => exact .raised exception
  | crashed => exact absurd stands survived
  | executing node review => exact absurd stands (settled node review)

private theorem advance_survives (thread : Thread) (host : Host) (node : Node)
    (review : Option Dict) (store : SQLiteJobStore) (clock : Nat) :
    (thread.advance host node review store clock).position ≠ .crashed := by
  rcases thread.advance_cases host node review store clock with
    ⟨update, changed, _, outcome⟩ | ⟨_, outcome⟩ | ⟨exception, _, outcome⟩
  · rw [outcome]
    cases leads : successor node (thread.values.apply update) with
    | none => simp [Thread.proceed, leads]
    | some following => simp [Thread.proceed, leads]
  · simp [outcome]
  · simp [outcome]

/-- A call that ends ends in one of the ways in which a call can stop. -/
private theorem CallEnds.stops {bound : Thread → Prop}
    (ends : CallEnds host threadId (fun _ _ => True) (fun _ final => bound final) thread call)
    (survives : ∀ called, thread.step host threadId call = some called →
      called.position ≠ .crashed) :
    CallEnds host threadId (fun _ _ => True)
      (fun _ final => Stopped final.position ∧ bound final) thread call := by
  obtain ⟨called, accepted, settles⟩ := ends
  let survived : List ThreadTransition → Thread → Prop := fun _ final => final.position ≠ .crashed
  have base : survived [⟨thread, call, called⟩] called := survives called accepted
  refine ⟨called, accepted, (settles.halted.keeps base ?_).mono ?_⟩
  · intro history state action next _ _ during stepped
    obtain ⟨store, clock, rfl, _⟩ := during
    obtain ⟨node, review, _, rfl⟩ := Thread.step_node_inv stepped
    exact advance_survives state host node review store clock
  · intro history final reached
    obtain ⟨⟨bounded, settled⟩, alive⟩ := reached
    exact ⟨stopped_of_settled settled alive, bounded⟩

/-- Both kinds of call, on every thread that accepts them and against every
evolution of the store, stop within the step guard. -/
theorem invocation_stops (accepted : (thread.step host threadId call).isSome = true)
    (calls : call.isCall = true) : StopsWithinGuard host threadId thread call := by
  have possible : ∀ thread : Thread, ∃ store : SQLiteJobStore, (fun _ _ => True) thread store :=
    fun thread => ⟨thread.store, trivial⟩
  obtain ⟨called, stepped⟩ := Option.isSome_iff_exists.mp accepted
  cases Thread.step_cases stepped with
  | runWorkflow runId userQuery settled =>
      refine (run_terminates possible settled runId userQuery).stops ?_
      intro next began
      rw [Thread.step_runWorkflow settled] at began
      cases began
      exact Position.noConfusion
  | resumeWorkflow review paused =>
      refine (resume_terminates possible paused review).stops ?_
      intro next resumed
      rw [Thread.step_resumeWorkflow paused] at resumed
      cases resumed
      exact Position.noConfusion
  | node | others | crash => cases calls

/-- A first request on a new thread. -/
theorem invocation_stops_on_new_thread :
    StopsWithinGuard Host.ascii "t" Thread.initial (.runWorkflow "r" "Analyze CPI") :=
  invocation_stops rfl rfl

end Stopping

end DurableAgent.Graph
