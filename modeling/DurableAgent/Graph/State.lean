import DurableAgent.Graph.Reducers
import DurableAgent.Jobs.Store

/-!
# Thread state

`graph/state.py`. A channel with an override rule is absent until it is first
written; a channel with a reducer starts empty.
-/

set_option autoImplicit false

namespace DurableAgent.Graph

open Jobs Python

inductive Node where
  | parseRequest
  | assembleContext
  | humanApproval
  | submitMcpJob
  | pollJobStatus
  | finalize
  deriving DecidableEq, Repr

inductive Intent where
  | directAnswer
  | macroDiagnostics
  deriving DecidableEq, Repr

structure ParsedRequest where
  intent : Intent
  targetSeries : String
  rawQuery : String
  deriving DecidableEq, Repr

structure ContextBundle where
  tokensEstimated : Nat
  knowledgeContext : String
  deriving DecidableEq, Repr

inductive PlanStatus where
  | notStarted
  | drafted
  | approved
  | executing
  | done
  deriving DecidableEq, Repr

inductive WorkflowStatus where
  | created
  | running
  | waitingForApproval
  | waitingForJob
  | completed
  | failed
  | cancelled
  deriving DecidableEq, Repr

structure CompletedJob where
  jobId : String
  status : JobStatus
  deriving DecidableEq, Repr

structure ErrorEntry where
  jobId : Option String := none
  error : Option String
  deriving DecidableEq, Repr

/-- Event names; a human decision is named after the action it was given. -/
inductive EventName where
  | requestParsed
  | contextAssembled
  | humanDecision (action : Value)
  | securityGateBlocked
  | jobSubmittedToQueue
  | pollSkippedNoJobs
  | jobCompletedDetected
  | jobFatalFailedDetected
  | jobStillInProgress
  | workflowFinalized

structure TraceEvent where
  event : EventName
  node : Node
  jobId : Option String := none
  step : Nat

instance : Mapping CompletedJob where
  artifactId _ := none
  jobId entry := some entry.jobId

instance : Mapping ArtifactRef where
  artifactId entry := some entry.artifactId
  jobId _ := none

/-- An approval status that was never written reads as `None`. -/
structure MacroAgentState where
  threadId : Option String := none
  runId : Option String := none
  userQuery : Option String := none
  parsedRequest : Option ParsedRequest := none
  contextBundle : Option ContextBundle := none
  analysisPlan : Option Value := none
  planStatus : Option PlanStatus := none
  approvalStatus : Value := .none
  activeJobIds : List String := []
  completedJobResults : List CompletedJob := []
  artifactRefs : List ArtifactRef := []
  traceEvents : List TraceEvent := []
  errors : List ErrorEntry := []
  finalAnswer : Option String := none
  status : Option WorkflowStatus := none

/-- The channels that a node, or the caller's input, writes. -/
structure StateUpdate where
  threadId : Option String := none
  runId : Option String := none
  userQuery : Option String := none
  parsedRequest : Option ParsedRequest := none
  contextBundle : Option ContextBundle := none
  analysisPlan : Option Value := none
  planStatus : Option PlanStatus := none
  approvalStatus : Option Value := none
  activeJobIds : Option (List String) := none
  completedJobResults : Option (List CompletedJob) := none
  artifactRefs : Option (List ArtifactRef) := none
  traceEvents : Option (List TraceEvent) := none
  errors : Option (List ErrorEntry) := none
  finalAnswer : Option String := none
  status : Option WorkflowStatus := none

/-- A channel value after an optional write through its reducer. -/
def reduced {α : Type} (reducer : Option (List α) → Option (List α) → List α) (current : List α) :
    Option (List α) → List α
  | some written => reducer (some current) (some written)
  | none => current

namespace MacroAgentState

def apply (state : MacroAgentState) (update : StateUpdate) : MacroAgentState where
  threadId := update.threadId.or state.threadId
  runId := update.runId.or state.runId
  userQuery := update.userQuery.or state.userQuery
  parsedRequest := update.parsedRequest.or state.parsedRequest
  contextBundle := update.contextBundle.or state.contextBundle
  analysisPlan := update.analysisPlan.or state.analysisPlan
  planStatus := update.planStatus.or state.planStatus
  approvalStatus := update.approvalStatus.getD state.approvalStatus
  activeJobIds := reduced reduceUniqueStrList state.activeJobIds update.activeJobIds
  completedJobResults :=
    reduced reduceArtifactRefs state.completedJobResults update.completedJobResults
  artifactRefs := reduced reduceArtifactRefs state.artifactRefs update.artifactRefs
  traceEvents := reduced reduceAppend state.traceEvents update.traceEvents
  errors := reduced reduceAppend state.errors update.errors
  finalAnswer := update.finalAnswer.or state.finalAnswer
  status := update.status.or state.status

/-- The number of trace events, by which nodes number their steps. -/
def steps (state : MacroAgentState) : Nat := state.traceEvents.length

/-- `state.get("analysis_plan", {})`. -/
def plan (state : MacroAgentState) : Value := state.analysisPlan.getD (.dict [])

theorem steps_apply (state : MacroAgentState) {update : StateUpdate} {event : TraceEvent}
    (traced : update.traceEvents = some [event]) :
    (state.apply update).steps = state.steps + 1 := by
  simp [steps, apply, traced, reduced, reduceAppend]

theorem apply_activeJobIds_subset (state : MacroAgentState) (update : StateUpdate) :
    state.activeJobIds ⊆ (state.apply update).activeJobIds := by
  simp only [apply]
  cases update.activeJobIds with
  | none => exact List.Subset.refl _
  | some written => exact fun jobId known => mem_reduceUniqueStrList.mpr (.inl known)

end MacroAgentState

end DurableAgent.Graph
