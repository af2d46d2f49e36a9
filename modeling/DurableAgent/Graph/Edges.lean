import DurableAgent.Graph.Nodes

/-!
# Routing

`graph/edges.py`, and the edges that `graph/builder.py` puts between nodes.
-/

set_option autoImplicit false

namespace DurableAgent.Graph

open Python

inductive NextAction where
  | humanApproval
  | submitMcpJob
  | pollJobStatus
  | finalize
  | maxStepsHit
  deriving DecidableEq, Repr

def stepLimit : Nat := 25

namespace MacroAgentState

def completedJobIds (state : MacroAgentState) : List String :=
  state.completedJobResults.map (·.jobId)

def pendingJobs (state : MacroAgentState) : List String :=
  state.activeJobIds.filter fun jobId => decide (jobId ∉ state.completedJobIds)

/-- `parsed.get("intent") == "direct_answer"`. -/
def answersDirectly (state : MacroAgentState) : Bool :=
  match state.parsedRequest with
  | some parsed => decide (parsed.intent = .directAnswer)
  | none => false

end MacroAgentState

def decideNextAction (state : MacroAgentState) : NextAction :=
  if state.steps ≥ stepLimit then .maxStepsHit
  else if state.status = some .failed then .finalize
  else if state.answersDirectly then .finalize
  else if state.approvalStatus.isStr "pending" then .humanApproval
  else if state.approvalStatus.isStr "rejected" then .finalize
  else if state.approvalStatus.isStr "edited" then .humanApproval
  else if state.activeJobIds.isEmpty then .submitMcpJob
  else if state.pendingJobs.isEmpty then .finalize
  else .pollJobStatus

inductive JobRoute where
  | continue
  | finalize
  | pause
  deriving DecidableEq, Repr

def decideAfterJobActivity (state : MacroAgentState) : JobRoute :=
  if state.status = some .failed then .finalize
  else if state.status = some .waitingForJob then .pause
  else .continue

/-- The node after a node, none at the end of the graph. -/
def successor (node : Node) (state : MacroAgentState) : Option Node :=
  match node with
  | .parseRequest => some .assembleContext
  | .assembleContext =>
      match decideNextAction state with
      | .humanApproval => some .humanApproval
      | .submitMcpJob => some .submitMcpJob
      | .pollJobStatus => some .pollJobStatus
      | .finalize => some .finalize
      | .maxStepsHit => none
  | .humanApproval => some .assembleContext
  | .submitMcpJob | .pollJobStatus =>
      match decideAfterJobActivity state with
      | .continue => some .assembleContext
      | .finalize => some .finalize
      | .pause => none
  | .finalize => none

/-- The conditions under which the router looks past the approval status. -/
structure Cleared (state : MacroAgentState) : Prop where
  within : state.steps < stepLimit
  unfailed : state.status ≠ some .failed
  planned : state.answersDirectly = false

theorem decideNextAction_of_limit {state : MacroAgentState} (limit : stepLimit ≤ state.steps) :
    decideNextAction state = .maxStepsHit := by
  simp [decideNextAction, limit]

theorem decideNextAction_of_failed {state : MacroAgentState} (within : state.steps < stepLimit)
    (failed : state.status = some .failed) : decideNextAction state = .finalize := by
  simp [decideNextAction, Nat.not_le.mpr within, failed]

theorem decideNextAction_of_direct {state : MacroAgentState} (within : state.steps < stepLimit)
    (direct : state.answersDirectly = true) : decideNextAction state = .finalize := by
  simp [decideNextAction, Nat.not_le.mpr within, direct]

theorem decideNextAction_cleared {state : MacroAgentState} (cleared : Cleared state) :
    decideNextAction state =
      if state.approvalStatus.isStr "pending" then .humanApproval
      else if state.approvalStatus.isStr "rejected" then .finalize
      else if state.approvalStatus.isStr "edited" then .humanApproval
      else if state.activeJobIds.isEmpty then .submitMcpJob
      else if state.pendingJobs.isEmpty then .finalize
      else .pollJobStatus := by
  simp [decideNextAction, Nat.not_le.mpr cleared.within, cleared.unfailed, cleared.planned]

private theorem cleared_of_branch {state : MacroAgentState}
    (notLimit : decideNextAction state ≠ .maxStepsHit)
    (notFinal : decideNextAction state ≠ .finalize) : Cleared state where
  within := by
    by_contra limit
    exact notLimit (decideNextAction_of_limit (Nat.not_lt.mp limit))
  unfailed := by
    intro failed
    by_cases limit : stepLimit ≤ state.steps
    · exact notLimit (decideNextAction_of_limit limit)
    · exact notFinal (decideNextAction_of_failed (Nat.not_le.mp limit) failed)
  planned := by
    by_contra direct
    by_cases limit : stepLimit ≤ state.steps
    · exact notLimit (decideNextAction_of_limit limit)
    · exact notFinal
        (decideNextAction_of_direct (Nat.not_le.mp limit) (Bool.not_eq_false _ ▸ direct))

/-- The approval statuses that the router does not look past. -/
def heldBack (approval : Value) : Bool :=
  approval.isStr "pending" || approval.isStr "rejected" || approval.isStr "edited"

theorem heldBack_approved : heldBack (.str "approved") = false := by decide

theorem not_pending {approval : Value} (passed : heldBack approval = false) :
    approval ≠ .str "pending" := by
  intro pending
  rw [pending] at passed
  exact absurd passed (by decide)

theorem not_rejected {approval : Value} (passed : heldBack approval = false) :
    approval ≠ .str "rejected" := by
  intro rejected
  rw [rejected] at passed
  exact absurd passed (by decide)

theorem decideNextAction_humanApproval_iff {state : MacroAgentState} :
    decideNextAction state = .humanApproval ↔
      Cleared state ∧
        (state.approvalStatus = .str "pending" ∨ state.approvalStatus = .str "edited") := by
  constructor
  · intro routed
    have cleared : Cleared state := cleared_of_branch (by simp [routed]) (by simp [routed])
    refine ⟨cleared, ?_⟩
    rw [decideNextAction_cleared cleared] at routed
    split_ifs at routed with pending rejected edited
    · exact .inl (Value.isStr_iff.mp pending)
    · exact .inr (Value.isStr_iff.mp edited)
  · intro ⟨cleared, held⟩
    rw [decideNextAction_cleared cleared]
    rcases held with pending | edited
    · simp [pending]
    · simp [edited]

theorem decideNextAction_passed {state : MacroAgentState} (cleared : Cleared state)
    (passed : heldBack state.approvalStatus = false) :
    decideNextAction state =
      if state.activeJobIds.isEmpty then .submitMcpJob
      else if state.pendingJobs.isEmpty then .finalize
      else .pollJobStatus := by
  simp only [heldBack, Bool.or_eq_false_iff] at passed
  obtain ⟨⟨pending, rejected⟩, edited⟩ := passed
  simp [decideNextAction_cleared cleared, pending, rejected, edited]

/-- A branch to the jobs is behind the approval status. -/
private theorem passed_of_branch {state : MacroAgentState} (cleared : Cleared state)
    (notHeld : decideNextAction state ≠ .humanApproval)
    (notFinal : decideNextAction state ≠ .finalize) :
    heldBack state.approvalStatus = false := by
  have branch := decideNextAction_cleared cleared
  cases pending : state.approvalStatus.isStr "pending" with
  | true => exact absurd (by simp [branch, pending]) notHeld
  | false =>
      cases rejected : state.approvalStatus.isStr "rejected" with
      | true => exact absurd (by simp [branch, pending, rejected]) notFinal
      | false =>
          cases edited : state.approvalStatus.isStr "edited" with
          | true => exact absurd (by simp [branch, pending, rejected, edited]) notHeld
          | false => simp [heldBack, pending, rejected, edited]

theorem decideNextAction_submitMcpJob_iff {state : MacroAgentState} :
    decideNextAction state = .submitMcpJob ↔
      Cleared state ∧ heldBack state.approvalStatus = false ∧ state.activeJobIds = [] := by
  constructor
  · intro routed
    have cleared : Cleared state := cleared_of_branch (by simp [routed]) (by simp [routed])
    have passed : heldBack state.approvalStatus = false :=
      passed_of_branch cleared (by simp [routed]) (by simp [routed])
    refine ⟨cleared, passed, ?_⟩
    rw [decideNextAction_passed cleared passed] at routed
    split_ifs at routed with idle
    exact List.isEmpty_iff.mp idle
  · intro ⟨cleared, passed, idle⟩
    simp [decideNextAction_passed cleared passed, idle]

theorem decideNextAction_pollJobStatus_iff {state : MacroAgentState} :
    decideNextAction state = .pollJobStatus ↔
      Cleared state ∧ heldBack state.approvalStatus = false ∧ state.pendingJobs ≠ [] := by
  constructor
  · intro routed
    have cleared : Cleared state := cleared_of_branch (by simp [routed]) (by simp [routed])
    have passed : heldBack state.approvalStatus = false :=
      passed_of_branch cleared (by simp [routed]) (by simp [routed])
    refine ⟨cleared, passed, ?_⟩
    rw [decideNextAction_passed cleared passed] at routed
    split_ifs at routed with idle finished
    exact fun complete => finished (List.isEmpty_iff.mpr complete)
  · intro ⟨cleared, passed, unfinished⟩
    have busy : state.activeJobIds ≠ [] := by
      intro idle
      simp [MacroAgentState.pendingJobs, idle] at unfinished
    simp [decideNextAction_passed cleared passed, busy, unfinished]

/-- With every job complete the router proceeds to delivery. -/
theorem decideNextAction_of_complete {state : MacroAgentState} (cleared : Cleared state)
    (passed : heldBack state.approvalStatus = false) (busy : state.activeJobIds ≠ [])
    (complete : state.pendingJobs = []) : decideNextAction state = .finalize := by
  simp [decideNextAction_passed cleared passed, busy, complete]

theorem decideNextAction_of_rejected {state : MacroAgentState} (cleared : Cleared state)
    (rejected : state.approvalStatus = .str "rejected") :
    decideNextAction state = .finalize := by
  simp [decideNextAction_cleared cleared, rejected]

/-- Everything that can lead the router to `finalize`. -/
theorem decideNextAction_finalize {state : MacroAgentState}
    (routed : decideNextAction state = .finalize) :
    state.status = some .failed ∨ state.answersDirectly = true ∨
      state.approvalStatus = .str "rejected" ∨ state.pendingJobs = [] := by
  unfold decideNextAction at routed
  split_ifs at routed with limit failed direct pending rejected edited idle complete
  · exact .inl failed
  · exact .inr (.inl direct)
  · exact .inr (.inr (.inl (Value.isStr_iff.mp rejected)))
  · exact .inr (.inr (.inr (List.isEmpty_iff.mp complete)))

end DurableAgent.Graph
