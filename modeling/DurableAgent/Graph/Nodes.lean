import DurableAgent.Capability.Policy
import DurableAgent.Graph.State
import DurableAgent.Jobs.Worker

/-!
# Graph nodes

`graph/nodes.py`. The lower-casing of queries, the capability registry and what the graph
library takes for the id of an interrupt are parameters; the module's own registry is
`Capability.capabilityRegistry`.
-/

set_option autoImplicit false

namespace DurableAgent.Graph

open Capability Jobs Python

/-- 32 hexadecimal digits. -/
def isHexDigest (text : String) : Bool :=
  decide (text.length = 32) && text.toList.all "0123456789abcdefABCDEF".toList.contains

theorem action_not_hexDigest : isHexDigest "action" = false := by decide

structure Host where
  lower : String → String
  registry : McpCapabilityRegistry
  isInterruptId : String → Bool := isHexDigest
  action_plain : isInterruptId "action" = false := by exact action_not_hexDigest

namespace Host

/-- A resume value whose keys are all ids of interrupts (an empty one has no other key) is
read as a map from ids to answers: the pending interrupt gets none. -/
def answer (host : Host) (review : Dict) : Option Dict :=
  if review.all fun entry => host.isInterruptId entry.1 then none else some review

def approvalMarkers : List String :=
  ["diagnose", "high risk", "massive", "safe trading", "arima"]

def asksDirectly (host : Host) (query : String) : Bool := occursIn "direct" (host.lower query)

def isMarked (host : Host) (query : String) : Bool :=
  approvalMarkers.any fun marker => occursIn marker (host.lower query)

/-- The module's own registry, with the lower-casing of ASCII text. -/
def ascii : Host where
  lower text := String.ofList (text.toList.map Char.toLower)
  registry := capabilityRegistry

end Host

def parseRequestNode (host : Host) (state : MacroAgentState) : StateUpdate :=
  let query := state.userQuery.getD ""
  let intent : Intent := if host.asksDirectly query then .directAnswer else .macroDiagnostics
  { parsedRequest := some { intent := intent, targetSeries := "CPI", rawQuery := query }
    traceEvents := some [{ event := .requestParsed, node := .parseRequest, step := state.steps }]
    approvalStatus := some (.str
      (if intent = .macroDiagnostics ∧ host.isMarked query then "pending" else "not_required")) }

def draftPlan : Value :=
  .dict [("task", .str "Run rolling backtest window"), ("horizon_months", .int 12)]

def assembleContextNode (state : MacroAgentState) : StateUpdate :=
  { contextBundle := some { tokensEstimated := 150, knowledgeContext := "ARIMA basics loaded" }
    analysisPlan := some (if state.approvalStatus.isStr "pending" then draftPlan else state.plan)
    traceEvents := some
      [{ event := .contextAssembled, node := .assembleContext, step := state.steps }] }

/-- `review_payload.get("action")`. -/
def reviewAction (review : Dict) : Value := (Dict.get? review "action").getD .none

theorem Host.answer_eq_some {host : Host} {review held : Dict}
    (answered : host.answer review = some held) : held = review := by
  unfold Host.answer at answered
  split at answered
  · cases answered
  · exact (Option.some.inj answered).symm

/-- A review with an action reaches the node. -/
theorem Host.answer_of_action (host : Host) {review : Dict} {action : String}
    (acts : reviewAction review = .str action) : host.answer review = some review := by
  refine if_neg fun all => ?_
  unfold reviewAction at acts
  cases found : Dict.get? review "action" with
  | none => simp [found] at acts
  | some action =>
      obtain ⟨⟨key, _⟩, taken, _⟩ := Option.map_eq_some_iff.mp found
      have named : key = "action" := by simpa using List.find?_some taken
      have digest := List.all_eq_true.mp all _ (List.mem_of_find?_eq_some taken)
      rw [named, host.action_plain] at digest
      cases digest

/-- The plan that a review of a shown plan leaves in the state. -/
def reviewedPlan (shown : Value) (review : Dict) : Value :=
  (Dict.get? review "updated_plan").getD shown

/-- `human_approval_node` after its interrupt has returned. -/
def humanApprovalNode (state : MacroAgentState) (review : Dict) : StateUpdate :=
  { approvalStatus := some (reviewAction review)
    analysisPlan := some (reviewedPlan state.plan review)
    traceEvents := some
      [{ event := .humanDecision (reviewAction review), node := .humanApproval,
         step := state.steps }] }

/-- What the policy gate makes of a plan: its evaluation raises, or denies the
plan, or admits a job of some type and payload. -/
inductive Assessment where
  | raised (exception : Exception)
  | denied (message : String)
  | admitted (jobType : String) (payload : Dict) (decision : Decision)

/-- The evaluation in `submit_mcp_job_node`, up to the construction of the job
record, whose type has to be a string. -/
def assess (registry : McpCapabilityRegistry) (plan : Value) : Assessment :=
  match plan with
  | .dict entries =>
      match ((Dict.get? entries "task").getD (.str "mcp_arima_forecast")).toKey with
      | .error exception => .raised exception
      | .ok toolName =>
          let arguments := [("horizon", (Dict.get? entries "horizon").getD .none)]
          match evaluateToolCall registry toolName arguments "researcher" with
          | .error exception => .raised exception
          | .ok (.deny, message) => .denied message
          | .ok (decision, _) =>
              match toolName with
              | .str jobType => .admitted jobType entries decision
              | _ => .raised .validationError
  | _ => .raised .attributeError

def threadKey (threadId : String) (step : Nat) : String :=
  "thread_" ++ threadId ++ "_step_" ++ step.repr

/-- `f"thread_{state.get('thread_id')}_step_{current_step}"`. -/
def MacroAgentState.idempotencyKey (state : MacroAgentState) : String :=
  threadKey (state.threadId.getD "None") state.steps

def blockedUpdate (state : MacroAgentState) (message : String) : StateUpdate :=
  { status := some .failed
    errors := some [{ error := some ("Security Policy Violation: " ++ message) }]
    traceEvents := some
      [{ event := .securityGateBlocked, node := .submitMcpJob, step := state.steps }] }

def submittedUpdate (state : MacroAgentState) (jobId : String) : StateUpdate :=
  { activeJobIds := some [jobId]
    planStatus := some .executing
    status := some .waitingForJob
    traceEvents := some
      [{ event := .jobSubmittedToQueue, node := .submitMcpJob, jobId := some jobId,
         step := state.steps }] }

def submitMcpJobNode (host : Host) (state : MacroAgentState) (store : SQLiteJobStore)
    (clock : Nat) : Except Exception (StateUpdate × SQLiteJobStore) :=
  match assess host.registry state.plan with
  | .raised exception => .error exception
  | .denied message => .ok (blockedUpdate state message, store)
  | .admitted jobType payload _ =>
      let outcome := store.submitJob jobType state.idempotencyKey payload clock
      .ok (submittedUpdate state outcome.1.jobId, outcome.2)

def pollEvent (state : MacroAgentState) (event : EventName) (jobId : Option String) :
    Option (List TraceEvent) :=
  some [{ event := event, node := .pollJobStatus, jobId := jobId, step := state.steps }]

def completedUpdate (state : MacroAgentState) (jobId : String) (result : JobResult) :
    StateUpdate :=
  { completedJobResults := some [{ jobId := jobId, status := .succeeded }]
    artifactRefs := some [result.artifactRef]
    status := some .running
    traceEvents := pollEvent state .jobCompletedDetected (some jobId) }

def failedUpdate (state : MacroAgentState) (jobId : String) (error : Option String) :
    StateUpdate :=
  { status := some .failed
    errors := some [{ jobId := some jobId, error := error }]
    traceEvents := pollEvent state .jobFatalFailedDetected (some jobId) }

def inProgressUpdate (state : MacroAgentState) (jobId : String) : StateUpdate :=
  { traceEvents := pollEvent state .jobStillInProgress (some jobId) }

/-- A success without a result is subscripted all the same. -/
def pollJobStatusNode (state : MacroAgentState) (store : SQLiteJobStore) :
    Except Exception StateUpdate :=
  match state.activeJobIds.getLast? with
  | none => .ok { traceEvents := pollEvent state .pollSkippedNoJobs none }
  | some targetJobId =>
      match store.getJob targetJobId with
      | none => .ok (inProgressUpdate state targetJobId)
      | some job =>
          match job.status with
          | .succeeded =>
              match job.result with
              | none => .error .typeError
              | some result => .ok (completedUpdate state targetJobId result)
          | .failed => .ok (failedUpdate state targetJobId job.error)
          | _ => .ok (inProgressUpdate state targetJobId)

def abortSummary : String := "Workflow aborted ungracefully by human administrator."

def compiledSummary (query : String) : String :=
  "Successfully compiled macro report for query '" ++ query ++ "'."

def evidence (artifacts : List ArtifactRef) : String :=
  match artifacts.getLast? with
  | none => ""
  | some last =>
      " Evidence locked via " ++ artifacts.length.repr ++ " artifacts." ++
        " Evidence base secured at: " ++ last.uri

def finalEvent (state : MacroAgentState) : Option (List TraceEvent) :=
  some [{ event := .workflowFinalized, node := .finalize, step := state.steps }]

def abortUpdate (state : MacroAgentState) : StateUpdate :=
  { finalAnswer := some abortSummary
    status := some .failed
    traceEvents := finalEvent state }

def deliveryUpdate (state : MacroAgentState) : StateUpdate :=
  { finalAnswer := some
      (compiledSummary (state.userQuery.getD "") ++ evidence state.artifactRefs)
    status := some .completed
    traceEvents := finalEvent state }

/-- The status read from the state is overwritten on both branches. -/
def finalizeNode (state : MacroAgentState) : StateUpdate :=
  if state.approvalStatus.isStr "rejected" then abortUpdate state else deliveryUpdate state

theorem submittedUpdate_active (state : MacroAgentState) (jobId : String) :
    jobId ∈ (state.apply (submittedUpdate state jobId)).activeJobIds :=
  mem_reduceUniqueStrList.mpr (.inr (List.mem_singleton_self jobId))

theorem assembled_plan (values : MacroAgentState)
    (notPending : values.approvalStatus ≠ .str "pending") :
    (values.apply (assembleContextNode values)).plan = values.plan := by
  simp [MacroAgentState.plan, MacroAgentState.apply, assembleContextNode,
    Value.isStr_eq_false_iff.mpr notPending]

/-- Whatever the gate lets through, it has let through for this very plan. -/
theorem assess_admitted {registry : McpCapabilityRegistry} {plan : Value} {jobType : String}
    {payload : Dict} {decision : Decision}
    (admitted : assess registry plan = .admitted jobType payload decision) :
    plan = .dict payload := by
  unfold assess at admitted
  split at admitted
  · split at admitted
    · cases admitted
    · simp only at admitted
      split at admitted
      · cases admitted
      · cases admitted
      · split at admitted
        · cases admitted
          rfl
        · cases admitted
  · cases admitted

end DurableAgent.Graph
