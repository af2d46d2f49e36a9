import DurableAgent.Library.TransitionSystem
import DurableAgent.Runtime.FakeProvider

/-!
# Runs of the service

`api.py`. A run is executed by a task of the event loop; requests for its cancellation are
served by other threads, in three moments between which anything can happen.
-/

set_option autoImplicit false

namespace DurableAgent.Api

open Library Python DurableAgent.Runtime

/-- The runtime knows all of these but the last. -/
inductive ServedStatus where
  | running
  | completed
  | maxStepsExceeded
  | failed
  | cancelled
  deriving DecidableEq, Repr

def served : RunStatus → ServedStatus
  | .running => .running
  | .completed => .completed
  | .maxStepsExceeded => .maxStepsExceeded
  | .failed => .failed

/-- A state of the database; `status` is the field that the service assigns to. -/
structure RunRecord where
  state : AgentState
  status : ServedStatus

structure RunSummaryResponse where
  runId : String
  status : ServedStatus
  stepCount : Nat
  finalAnswer : Option String := none

structure HTTPException where
  statusCode : Nat
  detail : String

/-- How a task has ended, as it tells whoever awaits it. -/
inductive TaskOutcome where
  | returned
  | cancelled
  | raised (exception : Raised)

/-- Where a worker stands: before its first step, in its sleep, in the run, behind it. -/
inductive TaskPoint where
  | scheduled
  | sleeping (runtime : AgentRuntime)
  | running (runtime : AgentRuntime)
  | returning
  | done (outcome : TaskOutcome)

structure Task where
  userInput : String
  maxSteps : Option Int
  point : TaskPoint := .scheduled
  cancelRequested : Bool := false

inductive CancelReply where
  | notFound
  | stopped
  | emitted
  deriving DecidableEq, Repr

/-- Where a thread stands that serves a request for cancellation. -/
inductive CancelPoint where
  | cancelling
  | marking
  | replied (reply : CancelReply)
  deriving DecidableEq, Repr

structure CancelRequest where
  runId : String
  point : CancelPoint
  deriving DecidableEq, Repr

/-- The two tables, the task that the event loop cannot leave, and the requests. -/
structure RunService where
  runsDatabase : OrderedDict String RunRecord := .empty
  activeTasks : OrderedDict String Task := .empty
  eventLoop : Option String := none
  requests : OrderedDict Nat CancelRequest := .empty

namespace CancelReply

def text : CancelReply → Except HTTPException String
  | notFound => .error ⟨404, "Run not found."⟩
  | stopped => .ok "Task was already stopped or not in active table."
  | emitted => .ok "Cancellation single emitted safely."

end CancelReply

/-! ## The worker -/

def gatewayResponse : AgentMessage :=
  { role := "assistant", content := some "Processed via FastAPI Gateway seamlessly." }

/-- The runtime of a run, made of one that the constructor returns. -/
def configured (built : AgentRuntime) (maxSteps : Int) : AgentRuntime :=
  { built.asking (.init [gatewayResponse]) with
    retrievalPipeline := none
    memoryStore := none
    maxSteps := maxSteps
    maxToolRetries := 3
    currentNamespace := "default_project" }

def typeError : Raised :=
  ⟨.other, "'>=' not supported between instances of 'int' and 'NoneType'", .list []⟩

/-- `runtime.run`, where the activation of a skill may raise and `max_steps` may be `None`. -/
def runOutcome (runtime : AgentRuntime) (innerId : String) (activation : Option Raised)
    (task : Task) : Except Raised AgentState :=
  match activation with
  | some exception => .error exception
  | none =>
      match task.maxSteps with
      | none => .error typeError
      | some maxSteps => .ok ((configured runtime maxSteps).run innerId task.userInput)

/-- What the worker does between two moments at which others can act. The label carries what
the surroundings contribute: the runtime that is built, the identifier that the runtime draws
for itself, and what the activation of a skill raises. -/
inductive WorkerMove where
  | begin (built : Except Raised AgentRuntime)
  | wake
  | persist (innerId : String) (activation : Option Raised)
  | finish

structure Ticket where
  record : RunRecord
  task : Task

namespace Ticket

def move (ticket : Ticket) (point : TaskPoint) : Ticket :=
  { ticket with task := { ticket.task with point := point } }

def assign (ticket : Ticket) (status : ServedStatus) : Ticket :=
  { ticket with record := { ticket.record with status := status } }

def cancel (ticket : Ticket) : Ticket :=
  { ticket with task := { ticket.task with cancelRequested := true } }

def store (ticket : Ticket) (state : AgentState) : Ticket :=
  { ticket with record := ⟨state, served state.status⟩ }

/-- `background_agent_worker`. A cancellation before the first step finds no handler, one that
interrupts the sleep finds the first. -/
def work (runId : String) (ticket : Ticket) : WorkerMove → Option Ticket
  | .begin built =>
      match ticket.task.point with
      | .scheduled =>
          if ticket.task.cancelRequested then some (ticket.move (.done .cancelled))
          else
            match built with
            | .error exception => some (ticket.move (.done (.raised exception)))
            | .ok runtime => some (ticket.move (.sleeping runtime))
      | _ => none
  | .wake =>
      match ticket.task.point with
      | .sleeping runtime =>
          if ticket.task.cancelRequested then
            some ((ticket.assign .cancelled).move (.done .returned))
          else some (ticket.move (.running runtime))
      | _ => none
  | .persist innerId activation =>
      match ticket.task.point with
      | .running runtime =>
          match runOutcome runtime innerId activation ticket.task with
          | .ok finalState => some ((ticket.store { finalState with runId := runId }).move .returning)
          | .error _ => some ((ticket.assign .failed).move .returning)
      | _ => none
  | .finish =>
      match ticket.task.point with
      | .returning =>
          some (ticket.move (.done (if ticket.task.cancelRequested then .cancelled else .returned)))
      | _ => none

/-- The event loop is in this task, between two of its moments. -/
def occupies (ticket : Ticket) : Bool :=
  match ticket.task.point with
  | .running _ | .returning => true
  | _ => false

def finished (ticket : Ticket) : Bool :=
  match ticket.task.point with
  | .done _ => true
  | _ => false

end Ticket

/-! ## The routes -/

inductive ApiAction where
  | createRun (runId userInput : String) (maxSteps : Option Int)
  | work (runId : String) (move : WorkerMove)
  | cancelActiveRun (request : Nat) (runId : String)
  | cancelTask (request : Nat)
  | markCancelled (request : Nat)

namespace RunService

def ticket? (service : RunService) (runId : String) : Option Ticket :=
  match service.runsDatabase.get? runId, service.activeTasks.get? runId with
  | some record, some task => some ⟨record, task⟩
  | _, _ => none

def put (service : RunService) (runId : String) (ticket : Ticket) : RunService :=
  { service with
    runsDatabase := service.runsDatabase.insert runId ticket.record
    activeTasks := service.activeTasks.insert runId ticket.task }

def answer (service : RunService) (request : Nat) (runId : String) (point : CancelPoint) :
    RunService :=
  { service with requests := service.requests.insert request ⟨runId, point⟩ }

def initialTicket (runId userInput : String) (maxSteps : Option Int) : Ticket where
  record := ⟨{ runId := runId, messages := [] }, .running⟩
  task := { userInput := userInput, maxSteps := maxSteps }

def createRun (service : RunService) (runId userInput : String) (maxSteps : Option Int) :
    RunService × RunSummaryResponse :=
  (service.put runId (initialTicket runId userInput maxSteps), ⟨runId, .running, 0, none⟩)

def getRunStatus (service : RunService) (runId : String) :
    Except HTTPException RunSummaryResponse :=
  match service.runsDatabase.get? runId with
  | none => .error ⟨404, "Run database records for ID '" ++ runId ++ "' not found."⟩
  | some record =>
      .ok ⟨record.state.runId, record.status, record.state.stepCount, record.state.finalAnswer⟩

def getRunTrace (service : RunService) (runId : String) :
    Except HTTPException (String × List TraceEvent) :=
  match service.runsDatabase.get? runId with
  | none => .error ⟨404, "Run not found."⟩
  | some record => .ok (runId, record.state.traceEvents)

/-- The first moment of `cancel_active_run`, in which it decides what to do. -/
def cancelActiveRun (service : RunService) (request : Nat) (runId : String) : RunService :=
  match service.runsDatabase.get? runId with
  | none => service.answer request runId (.replied .notFound)
  | some _ =>
      match service.ticket? runId with
      | none => service.answer request runId (.replied .stopped)
      | some ticket =>
          service.answer request runId (if ticket.finished then .replied .stopped else .cancelling)

/-- `Task.cancel` does nothing to a task that is done. -/
def cancelTask (service : RunService) (request : Nat) (runId : String) : Option RunService :=
  (service.ticket? runId).map fun ticket =>
    (service.put runId (if ticket.finished then ticket else ticket.cancel)).answer request runId
      .marking

def markCancelled (service : RunService) (request : Nat) (runId : String) : Option RunService :=
  (service.ticket? runId).map fun ticket =>
    (service.put runId (ticket.assign .cancelled)).answer request runId (.replied .emitted)

/-- The event loop is free, or in this task. -/
def loopFor (service : RunService) (runId : String) : Bool :=
  decide (service.eventLoop = none ∨ service.eventLoop = some runId)

def work (service : RunService) (runId : String) (move : WorkerMove) : Option RunService :=
  if service.loopFor runId then
    match service.ticket? runId with
    | none => none
    | some ticket =>
        (ticket.work runId move).map fun moved =>
          { service.put runId moved with
            eventLoop := if moved.occupies then some runId else none }
  else none

def step (service : RunService) : ApiAction → Option RunService
  | .createRun runId userInput maxSteps =>
      if service.eventLoop = none then some (service.createRun runId userInput maxSteps).1
      else none
  | .work runId move => service.work runId move
  | .cancelActiveRun request runId =>
      if request ∈ service.requests.keys then none
      else some (service.cancelActiveRun request runId)
  | .cancelTask request =>
      match service.requests.get? request with
      | some ⟨runId, .cancelling⟩ => service.cancelTask request runId
      | _ => none
  | .markCancelled request =>
      match service.requests.get? request with
      | some ⟨runId, .marking⟩ => service.markCancelled request runId
      | _ => none

end RunService

abbrev ApiTransition := Transition RunService ApiAction

/-- `uuid4` draws an identifier that no run has. -/
def FreshTicket (transition : ApiTransition) : Prop :=
  ∀ runId userInput maxSteps, transition.label = .createRun runId userInput maxSteps →
    transition.source.runsDatabase.get? runId = none

/-! ## One run -/

theorem gatewayResponse_calls : gatewayResponse.calls = [] := rfl

/-- The run answers with its first step if it may take one. -/
theorem configured_run (built : AgentRuntime) (maxSteps : Int) (innerId userInput : String) :
    let state := (configured built maxSteps).run innerId userInput
    (1 ≤ maxSteps ∧ state.status = .completed ∧ state.stepCount = 1 ∧
        state.finalAnswer = gatewayResponse.content) ∨
      (maxSteps ≤ 0 ∧ state.status = .maxStepsExceeded ∧ state.stepCount = 0 ∧
        state.finalAnswer = none) := by
  have read : HasRead (configured built maxSteps) (.init [gatewayResponse])
      ((configured built maxSteps).runSession innerId userInput) := runSession_hasRead rfl _ _
  have counted := (runSession_stopped (configured built maxSteps) innerId userInput).2
  have stepCount := counted.stepCount
  have bounded := counted.bounded
  have limit : (configured built maxSteps).maxSteps = maxSteps := rfl
  have first : ∀ reply ∈ ((configured built maxSteps).runSession innerId
      userInput).replies.head?, reply = gatewayResponse := by
    intro reply member
    obtain ⟨rest, whole⟩ := read.read
    cases replies : ((configured built maxSteps).runSession innerId userInput).replies with
    | nil => simp [replies] at member
    | cons head tail =>
        rw [replies] at whole member
        have same : head = gatewayResponse := (List.cons.inj whole).1
        simpa [same, eq_comm] using member
  cases read.ends with
  | answer earlier last replies calls none completed final =>
      rw [replies] at first stepCount
      cases earlier with
      | nil =>
          have same : last = gatewayResponse := first last rfl
          refine .inl ⟨?_, completed, stepCount, final.trans (congrArg _ same)⟩
          rw [stepCount, limit] at bounded
          simp only [List.nil_append, List.length_singleton] at bounded
          omega
      | cons head tail =>
          have same : head = gatewayResponse := first head rfl
          exact absurd (same ▸ gatewayResponse_calls) (calls head List.mem_cons_self)
  | limit all calls exceeded unanswered =>
      have nothing : ((configured built maxSteps).runSession innerId userInput).replies = [] := by
        refine List.eq_nil_iff_forall_not_mem.mpr fun reply member => ?_
        obtain ⟨head, tail, replies⟩ := List.exists_cons_of_ne_nil (List.ne_nil_of_mem member)
        have same : head = gatewayResponse := first head (by simp [replies])
        exact absurd (same ▸ gatewayResponse_calls) (calls head (by simp [replies]))
      rw [nothing] at all stepCount
      refine .inr ⟨?_, exceeded, stepCount, unanswered⟩
      rw [limit] at all
      simp only [List.length_nil] at all
      omega
  | failure some calls failed reason unanswered =>
      obtain ⟨head, tail, replies⟩ := List.exists_cons_of_ne_nil some
      have same : head = gatewayResponse := first head (by simp [replies])
      exact absurd (same ▸ gatewayResponse_calls) (calls head (by simp [replies]))

end DurableAgent.Api
