import DurableAgent.Graph.Thread

/-!
# Control flow of a thread

Which branch of the router has led to the node that is being executed, and what
no transition ever takes back.
-/

set_option autoImplicit false

namespace DurableAgent.Graph

open Jobs Library Python

/-- The routing decision that leads to a node, for nodes entered only so. -/
def Node.branch : Node → Option NextAction
  | .humanApproval => some .humanApproval
  | .submitMcpJob => some .submitMcpJob
  | .pollJobStatus => some .pollJobStatus
  | _ => none

theorem successor_branch {node following : Node} {values : MacroAgentState} {action : NextAction}
    (leads : successor node values = some following) (branched : following.branch = some action) :
    decideNextAction values = action := by
  cases node with
  | assembleContext =>
      simp only [successor] at leads
      split at leads <;> cases leads <;> simp_all [Node.branch]
  | submitMcpJob | pollJobStatus =>
      simp only [successor] at leads
      split at leads <;> cases leads <;> cases branched
  | parseRequest | humanApproval | finalize => cases leads <;> cases branched

theorem successor_ne_parseRequest {node following : Node} {values : MacroAgentState}
    (leads : successor node values = some following) : following ≠ .parseRequest := by
  rintro rfl
  cases node with
  | assembleContext =>
      simp only [successor] at leads
      split at leads <;> cases leads
  | submitMcpJob | pollJobStatus =>
      simp only [successor] at leads
      split at leads <;> cases leads
  | parseRequest | humanApproval | finalize => cases leads

theorem successor_finalize {node : Node} {values : MacroAgentState}
    (leads : successor node values = some .finalize) :
    decideNextAction values = .finalize ∨ values.status = some .failed := by
  cases node with
  | assembleContext =>
      simp only [successor] at leads
      split at leads <;> cases leads
      next routed => exact .inl routed
  | submitMcpJob | pollJobStatus =>
      simp only [successor, decideAfterJobActivity] at leads
      split_ifs at leads with failed waiting
      · exact .inr failed
      · cases leads
  | parseRequest | humanApproval | finalize => cases leads

def Thread.Live (thread : Thread) : Prop :=
  thread.position = .interrupted ∨ ∃ node review, thread.position = .executing node review

structure Controlled (threadId : String) (thread : Thread) : Prop where
  routed : ∀ node review action, thread.position = .executing node review →
    node.branch = some action → decideNextAction thread.values = action
  paused : thread.position = .interrupted → decideNextAction thread.values = .humanApproval
  named : thread.Live → thread.values.threadId = some threadId

/-- A node is entered for execution without a review. -/
theorem Thread.proceed_executing {values : MacroAgentState} {node following : Node}
    {store : SQLiteJobStore} {review : Option Dict}
    (executing : (Thread.proceed values node store).position = .executing following review) :
    successor node values = some following ∧ review = none := by
  unfold Thread.proceed at executing
  dsimp only at executing
  split at executing
  · next leads =>
      cases executing
      exact ⟨leads, rfl⟩
  · cases executing

theorem Thread.proceed_not_interrupted (values : MacroAgentState) (node : Node)
    (store : SQLiteJobStore) : (Thread.proceed values node store).position ≠ .interrupted := by
  unfold Thread.proceed
  dsimp only
  split <;> simp

section Invariant

variable {host : Host} {threadId : String} {thread next : Thread}

theorem Controlled.initial : Controlled threadId Thread.initial where
  routed := by
    intro node review action executing
    cases executing
  paused := by
    intro paused
    cases paused
  named := by
    intro live
    rcases live with paused | ⟨node, review, executing⟩
    · cases paused
    · cases executing

theorem Controlled.begin (thread : Thread) (runId userQuery : String) :
    Controlled threadId (thread.begin threadId runId userQuery) where
  routed := by
    intro node review action executing branched
    cases executing
    cases branched
  paused := by
    intro paused
    cases paused
  named _ := rfl

theorem Controlled.advance (controlled : Controlled threadId thread) {node : Node}
    {review : Option Dict} (executing : thread.position = .executing node review)
    (store : SQLiteJobStore) (clock : Nat) :
    Controlled threadId (thread.advance host node review store clock) := by
  have named := controlled.named (.inr ⟨node, review, executing⟩)
  rcases thread.advance_cases host node review store clock with
    ⟨update, changed, executed, outcome⟩ | ⟨executed, outcome⟩ | ⟨exception, executed, outcome⟩
  · rw [outcome]
    constructor
    · intro following held action entered branched
      exact successor_branch (Thread.proceed_executing entered).1 branched
    · intro paused
      exact absurd paused (Thread.proceed_not_interrupted _ _ _)
    · intro live
      simpa [Thread.proceed, MacroAgentState.apply, executed.owned.threadId] using named
  · rw [outcome]
    cases executed with
    | interrupts =>
        have routed := controlled.routed _ _ _ executing rfl
        refine ⟨?_, fun _ => routed, fun _ => named⟩
        intro node review action entered
        cases entered
  · rw [outcome]
    constructor
    · intro node review action entered
      cases entered
    · intro paused
      cases paused
    · intro live
      exact named

theorem Controlled.step (controlled : Controlled threadId thread) {action : ThreadAction}
    (stepped : thread.step host threadId action = some next) : Controlled threadId next := by
  cases Thread.step_cases stepped with
  | runWorkflow runId userQuery settled => exact Controlled.begin thread runId userQuery
  | resumeWorkflow review paused =>
      refine ⟨?_, ?_, fun _ => controlled.named (.inl paused)⟩
      · intro node held action entered branched
        cases entered
        cases branched
        exact controlled.paused paused
      · intro interrupted
        cases interrupted
  | node node review store clock executing => exact controlled.advance executing store clock
  | others store settled => exact ⟨controlled.routed, controlled.paused, controlled.named⟩
  | crash node review store clock executing =>
      refine ⟨?_, ?_, fun _ => controlled.named (.inr ⟨node, review, executing⟩)⟩
      · intro other held action entered
        cases entered
      · intro paused
        cases paused

theorem run_controlled {history : List ThreadTransition}
    (run : Run (Thread.step host threadId) Thread.initial history thread) :
    Controlled threadId thread := by
  induction run with
  | nil => exact Controlled.initial
  | snoc _ stepped ih => exact ih.step stepped

/-- The bookkeeping that no transition takes back. -/
structure Grows (before after : MacroAgentState) : Prop where
  steps : before.steps ≤ after.steps
  active : before.activeJobIds ⊆ after.activeJobIds

theorem Grows.refl (values : MacroAgentState) : Grows values values :=
  ⟨Nat.le_refl _, List.Subset.refl _⟩

theorem Grows.idle {before after : MacroAgentState} (grows : Grows before after)
    (idle : after.activeJobIds = []) : before.activeJobIds = [] :=
  List.subset_nil.mp (idle ▸ grows.active)

theorem Grows.advance (thread : Thread) (node : Node) (review : Option Dict)
    (store : SQLiteJobStore) (clock : Nat) :
    Grows thread.values (thread.advance host node review store clock).values := by
  rcases thread.advance_values host node review store clock with
    ⟨update, changed, executed, outcome⟩ | outcome
  · obtain ⟨event, traced, _⟩ := executed.traced
    have advanced := thread.values.steps_apply traced
    rw [outcome]
    exact ⟨by omega, thread.values.apply_activeJobIds_subset update⟩
  · rw [outcome]
    exact Grows.refl _

theorem Grows.step {action : ThreadAction}
    (stepped : thread.step host threadId action = some next) :
    Grows thread.values next.values := by
  cases Thread.step_cases stepped with
  | runWorkflow runId userQuery settled => exact ⟨Nat.le_refl _, List.Subset.refl _⟩
  | resumeWorkflow review paused => exact Grows.refl _
  | node node review store clock executing => exact Grows.advance thread node review store clock
  | others store settled => exact Grows.refl _
  | crash node review store clock executing => exact Grows.refl _

end Invariant

end DurableAgent.Graph
