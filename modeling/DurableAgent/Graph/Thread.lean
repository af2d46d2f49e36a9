import DurableAgent.Graph.Edges
import DurableAgent.Library.TransitionSystem

/-!
# A thread of the graph service

`graph/service.py`: the life of one `thread_id` under run and resume calls.
State is durable between nodes. A new input starts at `parse_request`, and a
review restarts the interrupted node. Between any two node executions the job
store may have been changed by others.
-/

set_option autoImplicit false

namespace DurableAgent.Graph

open Jobs Library Python

/-- Where a thread stands. The node being executed may hold a review. -/
inductive Position where
  | atEnd
  | interrupted
  | raised (exception : Exception)
  | crashed
  | executing (node : Node) (review : Option Dict)

structure Thread where
  values : MacroAgentState
  position : Position
  store : SQLiteJobStore

inductive NodeOutcome where
  | updated (update : StateUpdate) (store : SQLiteJobStore)
  | interrupted
  | raised (exception : Exception)

/-- One execution of a node; `human_approval` interrupts without a review. -/
def Node.execute (host : Host) (node : Node) (values : MacroAgentState) (review : Option Dict)
    (store : SQLiteJobStore) (clock : Nat) : NodeOutcome :=
  match node with
  | .parseRequest => .updated (parseRequestNode host values) store
  | .assembleContext => .updated (assembleContextNode values) store
  | .humanApproval =>
      match review with
      | some review => .updated (humanApprovalNode values review) store
      | none => .interrupted
  | .submitMcpJob =>
      match submitMcpJobNode host values store clock with
      | .ok (update, changed) => .updated update changed
      | .error exception => .raised exception
  | .pollJobStatus =>
      match pollJobStatusNode values store with
      | .ok update => .updated update store
      | .error exception => .raised exception
  | .finalize => .updated (finalizeNode values) store

inductive ThreadAction where
  | runWorkflow (runId userQuery : String)
  | resumeWorkflow (review : Dict)
  | node (store : SQLiteJobStore) (clock : Nat)
  | others (store : SQLiteJobStore)
  | crash (store : SQLiteJobStore) (clock : Option Nat)

namespace Thread

def initial : Thread := { values := {}, position := .atEnd, store := .empty }

def Settled (thread : Thread) : Prop :=
  ∀ node review, thread.position ≠ .executing node review

@[simp] theorem settled_atEnd (values : MacroAgentState) (store : SQLiteJobStore) :
    Settled ⟨values, .atEnd, store⟩ := by
  intro node review executing
  cases executing

@[simp] theorem settled_interrupted (values : MacroAgentState) (store : SQLiteJobStore) :
    Settled ⟨values, .interrupted, store⟩ := by
  intro node review executing
  cases executing

@[simp] theorem settled_raised (values : MacroAgentState) (exception : Exception)
    (store : SQLiteJobStore) : Settled ⟨values, .raised exception, store⟩ := by
  intro node review executing
  cases executing

instance (thread : Thread) : Decidable thread.Settled :=
  match stands : thread.position with
  | .executing node review => .isFalse fun settled => settled node review stands
  | .atEnd | .interrupted | .raised _ | .crashed =>
      .isTrue fun node review executing => by simp [stands] at executing

def proceed (values : MacroAgentState) (node : Node) (store : SQLiteJobStore) : Thread where
  values := values
  position :=
    match successor node values with
    | some next => .executing next none
    | none => .atEnd
  store := store

def advance (thread : Thread) (host : Host) (node : Node) (review : Option Dict)
    (store : SQLiteJobStore) (clock : Nat) : Thread :=
  match node.execute host thread.values review store clock with
  | .updated update changed => proceed (thread.values.apply update) node changed
  | .interrupted => { thread with position := .interrupted, store := store }
  | .raised exception => { thread with position := .raised exception, store := store }

/-- The input of `run_workflow`. -/
def input (threadId runId userQuery : String) : StateUpdate where
  threadId := some threadId
  runId := some runId
  userQuery := some userQuery
  status := some .running

def begin (thread : Thread) (threadId runId userQuery : String) : Thread :=
  { thread with
    values := thread.values.apply (input threadId runId userQuery)
    position := .executing .parseRequest none }

/-- The store when a node is lost: before its side effects, or after them. -/
def lostStore (thread : Thread) (host : Host) (node : Node) (review : Option Dict)
    (store : SQLiteJobStore) : Option Nat → SQLiteJobStore
  | none => store
  | some clock => (thread.advance host node review store clock).store

/-- Calls are accepted while no other call is executing. -/
def step (host : Host) (threadId : String) (thread : Thread) : ThreadAction → Option Thread
  | .runWorkflow runId userQuery =>
      match thread.position with
      | .executing _ _ => none
      | _ => some (thread.begin threadId runId userQuery)
  | .resumeWorkflow review =>
      match thread.position with
      | .interrupted => some { thread with position := .executing .humanApproval (host.answer review) }
      | _ => none
  | .node store clock =>
      match thread.position with
      | .executing node review => some (thread.advance host node review store clock)
      | _ => none
  | .others store =>
      match thread.position with
      | .executing _ _ => none
      | _ => some { thread with store := store }
  | .crash store clock =>
      match thread.position with
      | .executing node review =>
          some { thread with
            position := .crashed
            store := thread.lostStore host node review store clock }
      | _ => none

end Thread

abbrev ThreadTransition := Transition Thread ThreadAction

/-- What one transition of a thread can do. -/
inductive Stepped (host : Host) (threadId : String) (thread : Thread) :
    ThreadAction → Thread → Prop where
  | runWorkflow (runId userQuery : String) : thread.Settled →
      Stepped host threadId thread (.runWorkflow runId userQuery)
        (thread.begin threadId runId userQuery)
  | resumeWorkflow (review : Dict) : thread.position = .interrupted →
      Stepped host threadId thread (.resumeWorkflow review)
        { thread with position := .executing .humanApproval (host.answer review) }
  | node (node : Node) (review : Option Dict) (store : SQLiteJobStore) (clock : Nat) :
      thread.position = .executing node review →
      Stepped host threadId thread (.node store clock)
        (thread.advance host node review store clock)
  | others (store : SQLiteJobStore) : thread.Settled →
      Stepped host threadId thread (.others store) { thread with store := store }
  | crash (node : Node) (review : Option Dict) (store : SQLiteJobStore) (clock : Option Nat) :
      thread.position = .executing node review →
      Stepped host threadId thread (.crash store clock)
        { thread with
          position := .crashed
          store := thread.lostStore host node review store clock }

section Steps

variable {host : Host} {threadId : String} {thread next : Thread}

theorem Thread.step_cases {action : ThreadAction}
    (stepped : thread.step host threadId action = some next) :
    Stepped host threadId thread action next := by
  cases action with
  | runWorkflow runId userQuery =>
      simp only [Thread.step] at stepped
      split at stepped
      · cases stepped
      · next settled =>
          cases stepped
          exact .runWorkflow runId userQuery settled
  | resumeWorkflow review =>
      simp only [Thread.step] at stepped
      split at stepped
      · next paused =>
          cases stepped
          exact .resumeWorkflow review paused
      · cases stepped
  | node store clock =>
      simp only [Thread.step] at stepped
      split at stepped
      · next node review executing =>
          cases stepped
          exact .node node review store clock executing
      · cases stepped
  | others store =>
      simp only [Thread.step] at stepped
      split at stepped
      · cases stepped
      · next settled =>
          cases stepped
          exact .others store settled
  | crash store clock =>
      simp only [Thread.step] at stepped
      split at stepped
      · next node review executing =>
          cases stepped
          exact .crash node review store clock executing
      · cases stepped

theorem Thread.step_node_inv {store : SQLiteJobStore} {clock : Nat}
    (stepped : thread.step host threadId (.node store clock) = some next) :
    ∃ node review, thread.position = .executing node review ∧
      next = thread.advance host node review store clock := by
  cases Thread.step_cases stepped with
  | node node review store clock executing => exact ⟨node, review, executing, rfl⟩

theorem Thread.step_runWorkflow (settled : thread.Settled) (runId userQuery : String) :
    thread.step host threadId (.runWorkflow runId userQuery) =
      some (thread.begin threadId runId userQuery) := by
  simp only [Thread.step]
  split
  · next node review executing => exact absurd executing (settled node review)
  · rfl

theorem Thread.step_resumeWorkflow (paused : thread.position = .interrupted) (review : Dict) :
    thread.step host threadId (.resumeWorkflow review) =
      some { thread with position := .executing .humanApproval (host.answer review) } := by
  simp [Thread.step, paused]

theorem Thread.step_node {node : Node} {review : Option Dict}
    (executing : thread.position = .executing node review) (store : SQLiteJobStore)
    (clock : Nat) :
    thread.step host threadId (.node store clock) =
      some (thread.advance host node review store clock) := by
  simp [Thread.step, executing]

end Steps

/-- What one execution of a node can come to. -/
inductive Executed (host : Host) (values : MacroAgentState) (store : SQLiteJobStore)
    (clock : Nat) : Node → Option Dict → NodeOutcome → Prop where
  | parseRequest (review : Option Dict) :
      Executed host values store clock .parseRequest review
        (.updated (parseRequestNode host values) store)
  | assembleContext (review : Option Dict) :
      Executed host values store clock .assembleContext review
        (.updated (assembleContextNode values) store)
  | interrupts : Executed host values store clock .humanApproval none .interrupted
  | decides (review : Dict) :
      Executed host values store clock .humanApproval (some review)
        (.updated (humanApprovalNode values review) store)
  | refuses (review : Option Dict) (exception : Exception) :
      assess host.registry values.plan = .raised exception →
      Executed host values store clock .submitMcpJob review (.raised exception)
  | denies (review : Option Dict) (message : String) :
      assess host.registry values.plan = .denied message →
      Executed host values store clock .submitMcpJob review
        (.updated (blockedUpdate values message) store)
  | submits (review : Option Dict) (jobType : String) (payload : Dict)
      (decision : Capability.Decision) :
      assess host.registry values.plan = .admitted jobType payload decision →
      Executed host values store clock .submitMcpJob review
        (.updated
          (submittedUpdate values
            (store.submitJob jobType values.idempotencyKey payload clock).1.jobId)
          (store.submitJob jobType values.idempotencyKey payload clock).2)
  | skips (review : Option Dict) : values.activeJobIds = [] →
      Executed host values store clock .pollJobStatus review
        (.updated { traceEvents := pollEvent values .pollSkippedNoJobs none } store)
  | completes (review : Option Dict) (jobId : String) (job : JobRecord) (result : JobResult) :
      values.activeJobIds.getLast? = some jobId → store.getJob jobId = some job →
      job.status = .succeeded → job.result = some result →
      Executed host values store clock .pollJobStatus review
        (.updated (completedUpdate values jobId result) store)
  | subscripts (review : Option Dict) (jobId : String) (job : JobRecord) :
      values.activeJobIds.getLast? = some jobId → store.getJob jobId = some job →
      job.status = .succeeded → job.result = none →
      Executed host values store clock .pollJobStatus review (.raised .typeError)
  | fails (review : Option Dict) (jobId : String) (job : JobRecord) :
      values.activeJobIds.getLast? = some jobId → store.getJob jobId = some job →
      job.status = .failed →
      Executed host values store clock .pollJobStatus review
        (.updated (failedUpdate values jobId job.error) store)
  | waits (review : Option Dict) (jobId : String) :
      values.activeJobIds.getLast? = some jobId →
      (∀ job, store.getJob jobId = some job → job.status ≠ .succeeded ∧ job.status ≠ .failed) →
      Executed host values store clock .pollJobStatus review
        (.updated (inProgressUpdate values jobId) store)
  | aborts (review : Option Dict) : values.approvalStatus = .str "rejected" →
      Executed host values store clock .finalize review (.updated (abortUpdate values) store)
  | delivers (review : Option Dict) : values.approvalStatus ≠ .str "rejected" →
      Executed host values store clock .finalize review (.updated (deliveryUpdate values) store)

private theorem executed_poll (host : Host) (values : MacroAgentState) (review : Option Dict)
    (store : SQLiteJobStore) (clock : Nat) :
    Executed host values store clock .pollJobStatus review
      (Node.execute host .pollJobStatus values review store clock) := by
  simp only [Node.execute, pollJobStatusNode]
  cases target : values.activeJobIds.getLast? with
  | none => exact .skips review (List.getLast?_eq_none_iff.mp target)
  | some jobId =>
      dsimp only
      cases found : store.getJob jobId with
      | none => exact .waits review jobId target fun job stored => by simp [found] at stored
      | some job =>
          have unfinished : job.status ≠ .succeeded → job.status ≠ .failed →
              ∀ other, store.getJob jobId = some other →
                other.status ≠ .succeeded ∧ other.status ≠ .failed := by
            intro unsuccessful unfailed other stored
            cases found.symm.trans stored
            exact ⟨unsuccessful, unfailed⟩
          dsimp only
          cases status : job.status with
          | succeeded =>
              dsimp only
              cases produced : job.result with
              | none => exact .subscripts review jobId job target found status produced
              | some result => exact .completes review jobId job result target found status produced
          | failed => exact .fails review jobId job target found status
          | queued =>
              exact .waits review jobId target (unfinished (by simp [status]) (by simp [status]))
          | running =>
              exact .waits review jobId target (unfinished (by simp [status]) (by simp [status]))
          | cancelRequested =>
              exact .waits review jobId target (unfinished (by simp [status]) (by simp [status]))
          | cancelled =>
              exact .waits review jobId target (unfinished (by simp [status]) (by simp [status]))

theorem Node.execute_cases (host : Host) (node : Node) (values : MacroAgentState)
    (review : Option Dict) (store : SQLiteJobStore) (clock : Nat) :
    Executed host values store clock node review
      (node.execute host values review store clock) := by
  cases node with
  | parseRequest => exact .parseRequest review
  | assembleContext => exact .assembleContext review
  | humanApproval =>
      cases review with
      | none => exact .interrupts
      | some review => exact .decides review
  | submitMcpJob =>
      simp only [Node.execute, submitMcpJobNode]
      cases assessed : assess host.registry values.plan with
      | raised exception => exact .refuses review exception assessed
      | denied message => exact .denies review message assessed
      | admitted jobType payload decision =>
          exact .submits review jobType payload decision assessed
  | pollJobStatus => exact executed_poll host values review store clock
  | finalize =>
      simp only [Node.execute, finalizeNode]
      by_cases rejected : values.approvalStatus.isStr "rejected"
      · rw [if_pos rejected]
        exact .aborts review (Value.isStr_iff.mp rejected)
      · rw [if_neg rejected]
        exact .delivers review fun same => rejected (Value.isStr_iff.mpr same)

section Updates

variable {host : Host} {values : MacroAgentState} {store changed : SQLiteJobStore}
  {clock : Nat} {node : Node} {review : Option Dict} {update : StateUpdate}

theorem Executed.traced
    (executed : Executed host values store clock node review (.updated update changed)) :
    ∃ event, update.traceEvents = some [event] ∧ event.node = node ∧
      event.step = values.steps := by
  cases executed with
  | parseRequest | assembleContext | decides | denies | submits | skips | completes | fails
  | waits | aborts | delivers => exact ⟨_, rfl, rfl, rfl⟩

/-- Which nodes write which channels. -/
structure Owned (node : Node) (update : StateUpdate) : Prop where
  threadId : update.threadId = none
  userQuery : update.userQuery = none
  parsedRequest : node ≠ .parseRequest → update.parsedRequest = none
  approvalStatus : node ≠ .parseRequest → node ≠ .humanApproval → update.approvalStatus = none
  analysisPlan : node ≠ .assembleContext → node ≠ .humanApproval → update.analysisPlan = none
  activeJobIds : node ≠ .submitMcpJob → update.activeJobIds = none
  completedJobResults : node ≠ .pollJobStatus → update.completedJobResults = none
  artifactRefs : node ≠ .pollJobStatus → update.artifactRefs = none
  finalAnswer : node ≠ .finalize → update.finalAnswer = none
  status : node ≠ .submitMcpJob → node ≠ .pollJobStatus → node ≠ .finalize →
    update.status = none

theorem Executed.owned
    (executed : Executed host values store clock node review (.updated update changed)) :
    Owned node update := by
  cases executed with
  | parseRequest | assembleContext | decides | denies | submits | skips | completes | fails
  | waits | aborts | delivers => constructor <;> simp [parseRequestNode, assembleContextNode,
      humanApprovalNode, blockedUpdate, submittedUpdate, completedUpdate, failedUpdate,
      inProgressUpdate, abortUpdate, deliveryUpdate]

end Updates

/-- The three ways in which one execution of a node ends. -/
theorem Thread.advance_cases (thread : Thread) (host : Host) (node : Node)
    (review : Option Dict) (store : SQLiteJobStore) (clock : Nat) :
    (∃ update changed,
      Executed host thread.values store clock node review (.updated update changed) ∧
      thread.advance host node review store clock =
        Thread.proceed (thread.values.apply update) node changed) ∨
    (Executed host thread.values store clock node review .interrupted ∧
      thread.advance host node review store clock =
        { thread with position := .interrupted, store := store }) ∨
    ∃ exception,
      Executed host thread.values store clock node review (.raised exception) ∧
      thread.advance host node review store clock =
        { thread with position := .raised exception, store := store } := by
  have executed := node.execute_cases host thread.values review store clock
  unfold Thread.advance
  cases outcome : node.execute host thread.values review store clock with
  | updated update changed => exact .inl ⟨update, changed, outcome ▸ executed, rfl⟩
  | interrupted => exact .inr (.inl ⟨outcome ▸ executed, rfl⟩)
  | raised exception => exact .inr (.inr ⟨exception, outcome ▸ executed, rfl⟩)

/-- The values are those of the completed node, or they are as they were. -/
theorem Thread.advance_values (thread : Thread) (host : Host) (node : Node)
    (review : Option Dict) (store : SQLiteJobStore) (clock : Nat) :
    (∃ update changed,
      Executed host thread.values store clock node review (.updated update changed) ∧
      (thread.advance host node review store clock).values = thread.values.apply update) ∨
    (thread.advance host node review store clock).values = thread.values := by
  rcases thread.advance_cases host node review store clock with
    ⟨update, changed, executed, outcome⟩ | ⟨_, outcome⟩ | ⟨exception, _, outcome⟩
  · left
    exact ⟨update, changed, executed, by rw [outcome]; rfl⟩
  · right
    rw [outcome]
  · right
    rw [outcome]

/-- Only an admitted submission writes to the store. -/
theorem Thread.advance_store (thread : Thread) (host : Host) (node : Node)
    (review : Option Dict) (store : SQLiteJobStore) (clock : Nat) :
    (thread.advance host node review store clock).store = store ∨
      node = .submitMcpJob ∧ ∃ jobType payload decision,
        assess host.registry thread.values.plan = .admitted jobType payload decision := by
  rcases thread.advance_cases host node review store clock with
    ⟨update, changed, executed, outcome⟩ | ⟨_, outcome⟩ | ⟨exception, _, outcome⟩
  · cases executed with
    | submits _ jobType payload decision admitted =>
        exact .inr ⟨rfl, jobType, payload, decision, admitted⟩
    | parseRequest | assembleContext | decides | denies | skips | completes | fails | waits
    | aborts | delivers =>
        left
        rw [outcome]
        rfl
  · left
    rw [outcome]
  · left
    rw [outcome]

end DurableAgent.Graph
