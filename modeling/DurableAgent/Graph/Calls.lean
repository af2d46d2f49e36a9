import DurableAgent.Graph.Control
import DurableAgent.Jobs.Activity

/-!
# Calls

What a transition submits and what a call comes to. A call begins with a run or
resume action and executes nodes until the thread is settled again; what other
parties may do to the store meanwhile is a condition on the stores they leave.
-/

set_option autoImplicit false

namespace DurableAgent.Graph

open Capability Jobs Library Python

/-- The payload, and the gate's decision on it, when the transition executes
`submit_mcp_job` on an admitted plan whose idempotency key the store does not
know. -/
def enqueued (host : Host) (transition : ThreadTransition) : Option (Dict × Decision) :=
  match transition.source.position, transition.label with
  | .executing .submitMcpJob _, .node store _ =>
      match assess host.registry transition.source.values.plan with
      | .admitted _ payload decision =>
          match store.findByKey transition.source.values.idempotencyKey with
          | some _ => none
          | none => some (payload, decision)
      | _ => none
  | _, _ => none

def Enqueues (host : Host) (transition : ThreadTransition) (payload : Dict)
    (decision : Decision) : Prop :=
  enqueued host transition = some (payload, decision)

theorem enqueues_iff {host : Host} {transition : ThreadTransition} {payload : Dict}
    {decision : Decision} :
    Enqueues host transition payload decision ↔
      ∃ review store clock jobType,
        transition.source.position = .executing .submitMcpJob review ∧
        transition.label = .node store clock ∧
        assess host.registry transition.source.values.plan =
          .admitted jobType payload decision ∧
        store.findByKey transition.source.values.idempotencyKey = none := by
  constructor
  · intro enqueues
    unfold Enqueues enqueued at enqueues
    split at enqueues
    · next review store clock executing label =>
        split at enqueues
        · next jobType _ _ admitted =>
            split at enqueues
            · cases enqueues
            · next unknown =>
                cases enqueues
                exact ⟨review, store, clock, jobType, executing, label, admitted, unknown⟩
        · cases enqueues
    · cases enqueues
  · intro ⟨review, store, clock, jobType, executing, label, admitted, unknown⟩
    simp only [Enqueues, enqueued, executing, label, admitted, unknown]

def ThreadAction.isCrash : ThreadAction → Bool
  | .crash _ _ => true
  | _ => false

def CrashFree (transition : ThreadTransition) : Prop := transition.label.isCrash = false

def Foreign (threadId key : String) : Prop := ∀ step, key ≠ threadKey threadId step

/-- The store that other parties have left when an action is taken. -/
def ThreadAction.leftStore : ThreadAction → Option SQLiteJobStore
  | .node store _ | .others store | .crash store _ => some store
  | .runWorkflow _ _ | .resumeWorkflow _ => none

/-- Other parties act on the store as workers and clients of other keys do. -/
def Regular (threadId : String) (transition : ThreadTransition) : Prop :=
  ∀ store, transition.label.leftStore = some store →
    StoreActivity (Foreign threadId) transition.source.store store

/-- The node executions of a call, with what others may do to the store. -/
def DuringCall (allowed : Thread → SQLiteJobStore → Prop) (thread : Thread)
    (action : ThreadAction) : Prop :=
  ∃ store clock, action = .node store clock ∧ allowed thread store

abbrev Ends (host : Host) (threadId : String) (allowed : Thread → SQLiteJobStore → Prop)
    (goal : List ThreadTransition → Thread → Prop) : List ThreadTransition → Thread → Prop :=
  Settles (Thread.step host threadId) (DuringCall allowed) Thread.Settled goal

/-- The call is accepted and comes to an end, where the goal holds of the
transitions of the call and of the thread it leaves. -/
def CallEnds (host : Host) (threadId : String) (allowed : Thread → SQLiteJobStore → Prop)
    (goal : List ThreadTransition → Thread → Prop) (thread : Thread) (call : ThreadAction) :
    Prop :=
  ∃ called, thread.step host threadId call = some called ∧
    Ends host threadId allowed goal [⟨thread, call, called⟩] called

section Effects

variable {host : Host} {threadId : String} {thread : Thread}

theorem Thread.proceed_to {values : MacroAgentState} {node following : Node}
    (leads : successor node values = some following) (store : SQLiteJobStore) :
    Thread.proceed values node store =
      { values := values, position := .executing following none, store := store } := by
  simp [Thread.proceed, leads]

theorem Thread.proceed_end {values : MacroAgentState} {node : Node}
    (ends : successor node values = none) (store : SQLiteJobStore) :
    Thread.proceed values node store =
      { values := values, position := .atEnd, store := store } := by
  simp [Thread.proceed, ends]

@[simp] def NextAction.position : NextAction → Position
  | .humanApproval => .executing .humanApproval none
  | .submitMcpJob => .executing .submitMcpJob none
  | .pollJobStatus => .executing .pollJobStatus none
  | .finalize => .executing .finalize none
  | .maxStepsHit => .atEnd

theorem Thread.proceed_routed {values : MacroAgentState} {action : NextAction}
    (routed : decideNextAction values = action) (store : SQLiteJobStore) :
    Thread.proceed values .assembleContext store =
      { values := values, position := action.position, store := store } := by
  subst routed
  simp only [Thread.proceed, successor]
  cases decideNextAction values <;> rfl

theorem Thread.advance_submitMcpJob {jobType : String} {payload : Dict} {decision : Decision}
    (admitted : assess host.registry thread.values.plan = .admitted jobType payload decision)
    (review : Option Dict) (store : SQLiteJobStore) (clock : Nat) :
    thread.advance host .submitMcpJob review store clock =
      { values := thread.values.apply (submittedUpdate thread.values
          (store.submitJob jobType thread.values.idempotencyKey payload clock).1.jobId)
        position := .atEnd
        store := (store.submitJob jobType thread.values.idempotencyKey payload clock).2 } := by
  simp only [Thread.advance, Node.execute, submitMcpJobNode, admitted]
  exact Thread.proceed_end rfl _

/-- What holds of the store where a node leaves it alone, and where it submits a job. -/
theorem Thread.advance_store_keeps {motive : SQLiteJobStore → Prop} (thread : Thread)
    (host : Host) (node : Node) (review : Option Dict) {store : SQLiteJobStore} (clock : Nat)
    (unchanged : motive store)
    (submitted : node = .submitMcpJob → ∀ jobType payload,
      motive (store.submitJob jobType thread.values.idempotencyKey payload clock).2) :
    motive (thread.advance host node review store clock).store := by
  rcases thread.advance_store host node review store clock with
    same | ⟨rfl, jobType, payload, decision, admitted⟩
  · rw [same]
    exact unchanged
  · rw [Thread.advance_submitMcpJob admitted]
    exact submitted rfl jobType payload

theorem CrashFree.advances {action : ThreadAction} {next : Thread} {node : Node}
    {review : Option Dict} (survives : CrashFree ⟨thread, action, next⟩)
    (stepped : thread.step host threadId action = some next)
    (executing : thread.position = .executing node review) :
    ∃ store clock, action = .node store clock ∧
      next = thread.advance host node review store clock := by
  cases Thread.step_cases stepped with
  | runWorkflow runId userQuery settled => exact absurd executing (settled node review)
  | resumeWorkflow review paused => cases paused.symm.trans executing
  | node other held store clock entered =>
      cases entered.symm.trans executing
      exact ⟨store, clock, rfl, rfl⟩
  | others store settled => exact absurd executing (settled node review)
  | crash other held store clock entered => cases survives

/-- An enqueued record is in the store, and the thread has noted its identifier. -/
theorem Enqueues.stored {transition : ThreadTransition} {payload : Dict} {decision : Decision}
    (enqueues : Enqueues host transition payload decision)
    (stepped : transition.source.step host threadId transition.label = some transition.target) :
    ∃ jobType clock,
      transition.target.store.getJob (jobIdAt clock) = some (queuedRecord jobType
        transition.source.values.idempotencyKey payload clock) ∧
      transition.target.values.activeJobIds = reduceUniqueStrList
        (some transition.source.values.activeJobIds) (some [jobIdAt clock]) := by
  obtain ⟨review, store, clock, jobType, executing, label, admitted, unknown⟩ :=
    enqueues_iff.mp enqueues
  rw [label, Thread.step_node executing, Thread.advance_submitMcpJob admitted,
    SQLiteJobStore.submitJob_of_unknown unknown] at stepped
  refine ⟨jobType, clock, ?_, ?_⟩
  · rw [← Option.some.inj stepped]
    exact SQLiteJobStore.getJob_insert_self _ _ _
  · rw [← Option.some.inj stepped]
    rfl

end Effects

section Endings

variable {host : Host} {threadId : String} {allowed : Thread → SQLiteJobStore → Prop}
  {goal other : List ThreadTransition → Thread → Prop} {history : List ThreadTransition}
  {thread : Thread}

/-- A call that executes a node ends if it ends from wherever the node leads. -/
theorem Ends.node {node : Node} {review : Option Dict}
    (executing : thread.position = .executing node review)
    (possible : ∃ store, allowed thread store)
    (continues : ∀ store clock, allowed thread store →
      Ends host threadId allowed goal
        (history ++ [⟨thread, .node store clock, thread.advance host node review store clock⟩])
        (thread.advance host node review store clock)) :
    Ends host threadId allowed goal history thread := by
  refine .move (fun settled => settled node review executing) ?_ ?_
  · obtain ⟨store, allows⟩ := possible
    exact ⟨.node store 0, _, ⟨store, 0, rfl, allows⟩, Thread.step_node executing store 0⟩
  · intro action next during stepped
    obtain ⟨store, clock, rfl, allows⟩ := during
    rw [Thread.step_node executing] at stepped
    cases stepped
    exact continues store clock allows

theorem Ends.settled (settled : thread.Settled) (reached : goal history thread) :
    Ends host threadId allowed goal history thread := .stop settled reached

theorem CallEnds.mono {call : ThreadAction}
    (implies : ∀ history final, goal history final → other history final)
    (ends : CallEnds host threadId allowed goal thread call) :
    CallEnds host threadId allowed other thread call := by
  obtain ⟨called, accepted, settles⟩ := ends
  exact ⟨called, accepted, settles.mono implies⟩

theorem CallEnds.both {call : ThreadAction}
    (left : CallEnds host threadId allowed goal thread call)
    (right : CallEnds host threadId allowed other thread call) :
    CallEnds host threadId allowed (fun history final => goal history final ∧ other history final)
      thread call := by
  obtain ⟨called, accepted, ends⟩ := left
  obtain ⟨again, alsoAccepted, alsoEnds⟩ := right
  cases accepted.symm.trans alsoAccepted
  exact ⟨called, accepted, Settles.both ends alsoEnds⟩

theorem CallEnds.agree {call : ThreadAction}
    (left : CallEnds host threadId allowed goal thread call)
    (right : CallEnds host threadId allowed other thread call) :
    ∃ history final, goal history final ∧ other history final := by
  obtain ⟨called, accepted, ends⟩ := left.both right
  exact Settles.reaches ends

/-- The transitions of a completed call meet the goal of the call. -/
theorem CallEnds.sound {call : ThreadAction} {called final : Thread}
    {later : List ThreadTransition}
    (ends : CallEnds host threadId allowed goal thread call)
    (accepted : thread.step host threadId call = some called)
    (run : Run (Thread.step host threadId) called later final)
    (during : ∀ transition ∈ later, DuringCall allowed transition.source transition.label)
    (settled : final.Settled) : goal (⟨thread, call, called⟩ :: later) final := by
  obtain ⟨other, alsoAccepted, settles⟩ := ends
  cases accepted.symm.trans alsoAccepted
  refine settles.sound run during ?_ settled
  intro transition member halted
  obtain ⟨store, clock, label, _⟩ := during transition member
  have stepped := run.stepped_of_mem member
  rw [label] at stepped
  obtain ⟨node, review, executing, _⟩ := Thread.step_node_inv stepped
  exact halted node review executing

end Endings

section Openings

variable {host : Host} {threadId runId query : String}

/-- The state in which a run call reaches `assemble_context`. -/
def opened (host : Host) (values : MacroAgentState) (threadId runId query : String) :
    MacroAgentState :=
  (values.apply (Thread.input threadId runId query)).apply
    (parseRequestNode host (values.apply (Thread.input threadId runId query)))

@[simp] theorem opened_steps (values : MacroAgentState) :
    (opened host values threadId runId query).steps = values.steps + 1 :=
  MacroAgentState.steps_apply _ rfl

@[simp] theorem assembled_steps (values : MacroAgentState) :
    (values.apply (assembleContextNode values)).steps = values.steps + 1 :=
  MacroAgentState.steps_apply values rfl

theorem opened_direct (values : MacroAgentState) :
    (opened host values threadId runId query).answersDirectly = host.asksDirectly query := by
  unfold opened MacroAgentState.answersDirectly
  cases direct : host.asksDirectly query <;>
    simp [MacroAgentState.apply, parseRequestNode, Thread.input, direct]

theorem opened_unmarked (values : MacroAgentState) (unmarked : host.isMarked query = false) :
    (opened host values threadId runId query).approvalStatus = .str "not_required" := by
  simp [opened, MacroAgentState.apply, parseRequestNode, Thread.input, unmarked]

/-- A run call has parsed its query after two transitions. -/
theorem CallEnds.run {allowed : Thread → SQLiteJobStore → Prop}
    {goal : List ThreadTransition → Thread → Prop} {thread : Thread} (settled : thread.Settled)
    (possible : ∃ store, allowed (thread.begin threadId runId query) store)
    (continues : ∀ store clock, allowed (thread.begin threadId runId query) store →
      Ends host threadId allowed goal
        [⟨thread, .runWorkflow runId query, thread.begin threadId runId query⟩,
          ⟨thread.begin threadId runId query, .node store clock,
            ⟨opened host thread.values threadId runId query, .executing .assembleContext none,
              store⟩⟩]
        ⟨opened host thread.values threadId runId query, .executing .assembleContext none,
          store⟩) :
    CallEnds host threadId allowed goal thread (.runWorkflow runId query) :=
  ⟨_, Thread.step_runWorkflow settled runId query, Ends.node rfl possible continues⟩

theorem Ends.assemble {allowed : Thread → SQLiteJobStore → Prop}
    {goal : List ThreadTransition → Thread → Prop} {history : List ThreadTransition}
    {thread : Thread} {review : Option Dict}
    (executing : thread.position = .executing .assembleContext review)
    (possible : ∃ store, allowed thread store)
    (continues : ∀ store clock, allowed thread store →
      Ends host threadId allowed goal
        (history ++ [⟨thread, .node store clock,
          Thread.proceed (thread.values.apply (assembleContextNode thread.values))
            .assembleContext store⟩])
        (Thread.proceed (thread.values.apply (assembleContextNode thread.values))
          .assembleContext store)) :
    Ends host threadId allowed goal history thread :=
  Ends.node executing possible continues

end Openings

/-- A plan for the registered capability. -/
def forecast : Dict := [("task", .str "mcp_arima_forecast")]

theorem forecast_admitted :
    assess Host.ascii.registry (.dict forecast) =
      .admitted "mcp_arima_forecast" forecast .routeToHitl := rfl

/-- What a caller, the service and a worker can be told to do in a scenario. -/
inductive Command where
  | runWorkflow (runId userQuery : String)
  | resumeWorkflow (review : Dict)
  | node (clock : Nat)
  | crash (clock : Option Nat)
  | succeed (jobId : String)
  | fail (jobId : String)

/-- Nobody changes the store unless a command says so. -/
def Command.resolve (thread : Thread) : Command → ThreadAction
  | .runWorkflow runId userQuery => .runWorkflow runId userQuery
  | .resumeWorkflow review => .resumeWorkflow review
  | .node clock => .node thread.store clock
  | .crash clock => .crash thread.store clock
  | .succeed jobId =>
      .others (thread.store.updateJobStatus jobId .succeeded (some (processedResult jobId)) none).2
  | .fail jobId => .others (thread.store.updateJobStatus jobId .failed none none).2

def Command.take (host : Host) (threadId : String) (thread : Thread) (command : Command) :
    Option Thread :=
  thread.step host threadId (command.resolve thread)

theorem Command.regular (threadId : String) (thread next : Thread) (command : Command) :
    Regular threadId ⟨thread, command.resolve thread, next⟩ := by
  intro store left
  cases command with
  | runWorkflow runId userQuery => cases left
  | resumeWorkflow review => cases left
  | node clock =>
      cases left
      exact .refl
  | crash clock =>
      cases left
      exact .refl
  | succeed jobId =>
      cases left
      exact .single (.succeed jobId)
  | fail jobId =>
      cases left
      exact .single (.updateJobStatus jobId .failed none (by decide))

/-- A scenario is a run whose transitions are taken as commanded. -/
theorem scenario_commanded {Observation : Type} (host : Host) (threadId : String)
    (commands : List Command) (observe : List ThreadTransition × Thread → Observation)
    (observation : Observation)
    (driven : (execute (Command.take host threadId) Thread.initial commands).map
      (fun outcome => observe (outcome.1.map fun taken =>
        ⟨taken.source, taken.label.resolve taken.source, taken.target⟩, outcome.2)) =
      some observation) :
    ∃ history thread, Run (Thread.step host threadId) Thread.initial history thread ∧
      (∀ transition ∈ history, ∃ command ∈ commands,
        transition.label = command.resolve transition.source) ∧
      observe (history, thread) = observation := by
  obtain ⟨taken, thread, run, labels, observed⟩ := execute_observed _ _ _ _ _ driven
  have resolved := run.relabel fun thread (command : Command) => command.resolve thread
  refine ⟨_, thread, resolved, ?_, observed⟩
  intro transition member
  obtain ⟨step, included, rfl⟩ := List.mem_map.mp member
  exact ⟨step.label, labels ▸ List.mem_map_of_mem included, rfl⟩

theorem scenario_observed {Observation : Type} (host : Host) (threadId : String)
    (commands : List Command) (observe : List ThreadTransition × Thread → Observation)
    (observation : Observation)
    (driven : (execute (Command.take host threadId) Thread.initial commands).map
      (fun outcome => observe (outcome.1.map fun taken =>
        ⟨taken.source, taken.label.resolve taken.source, taken.target⟩, outcome.2)) =
      some observation) :
    ∃ history thread, Run (Thread.step host threadId) Thread.initial history thread ∧
      (∀ transition ∈ history, Regular threadId transition) ∧
      observe (history, thread) = observation := by
  obtain ⟨history, thread, run, commanded, observed⟩ :=
    scenario_commanded host threadId commands observe observation driven
  refine ⟨history, thread, run, ?_, observed⟩
  intro transition member
  obtain ⟨command, _, label⟩ := commanded transition member
  obtain ⟨source, action, target⟩ := transition
  dsimp only at label
  subst label
  exact command.regular threadId source target

end DurableAgent.Graph
