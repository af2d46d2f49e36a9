import DurableAgent.Graph.Approval
import DurableAgent.Graph.Delivery
import DurableAgent.Graph.Recovery

/-!
# Requests

What becomes of an approved plan over the calls of its request. Approval status
and plan belong to the request, the jobs and artifacts belong to the thread: an
approved plan on a thread with a job is never submitted, and the report cites
the artifact of the earlier job.
-/

set_option autoImplicit false

namespace DurableAgent.Graph

open Capability Jobs Library Python

/-- The transition enqueues a job under the identifier that its clock gives. -/
def EnqueuesJob (host : Host) (transition : ThreadTransition) (payload : Dict) (jobId : String) :
    Prop :=
  ∃ decision store clock, transition.label = .node store clock ∧ jobId = jobIdAt clock ∧
    Enqueues host transition payload decision

/-- The answer is a report over the artifacts, the last of which is this one. -/
def CitesLast (values : MacroAgentState) (artifact : ArtifactRef) : Prop :=
  values.finalAnswer = some
      (compiledSummary (values.userQuery.getD "") ++ evidence values.artifactRefs) ∧
    values.artifactRefs.getLast? = some artifact

/-- After the approval no call is lost, and run calls only ask after the job. -/
structure FollowsUp (host : Host) (transition : ThreadTransition) : Prop where
  survives : CrashFree transition
  asks : ∀ runId query, transition.label = .runWorkflow runId query →
    host.isMarked query = false ∧ host.asksDirectly query = false

/-- From the approval of a plan to the end of its request. -/
structure ApprovedRequest (host : Host) (payload : Dict) (approval : ThreadTransition)
    (middle : List ThreadTransition) (completion : ThreadTransition) : Prop where
  approves : Approves approval (.dict payload)
  admitted : ∃ jobType decision,
    assess host.registry (.dict payload) = .admitted jobType payload decision
  followsUp : ∀ transition ∈ middle ++ [completion], FollowsUp host transition
  unfinished : ∀ transition ∈ approval :: middle,
    transition.target.values.status ≠ some .completed
  completed : completion.target.values.status = some .completed

/-- A job with the plan as its payload was enqueued, and its artifact is cited. -/
def PlanExecuted (host : Host) (payload : Dict) (middle : List ThreadTransition)
    (completion : ThreadTransition) : Prop :=
  ∃ transition ∈ middle ++ [completion], ∃ jobId, EnqueuesJob host transition payload jobId ∧
    CitesLast completion.target.values (processedArtifact jobId)

/-- A thread whose calls look after its job until the report is compiled. -/
structure Attends (host : Host) (thread : Thread) : Prop where
  asks : ∀ held, thread.position = .executing .parseRequest held →
    host.isMarked (thread.values.userQuery.getD "") = false ∧
      host.asksDirectly (thread.values.userQuery.getD "") = false
  planned : thread.values.answersDirectly = false
  passed : heldBack thread.values.approvalStatus = false
  unpaused : thread.position ≠ .interrupted
  unreviewed : ∀ held, thread.position ≠ .executing .humanApproval held
  complete : ∀ held, thread.position = .executing .finalize held →
    thread.values.status = some .failed ∨ thread.values.pendingJobs = []

/-- The status tells whether a failure has been observed; the report that is
then compiled has no artifact to cite. -/
structure Reported (host : Host) (past : List ThreadTransition) (thread : Thread) : Prop where
  observed : (∃ transition ∈ past, observesFailure host transition = true) ↔
    thread.values.status = some .failed
  finalizing : thread.values.status = some .failed →
    (∃ held, thread.position = .executing .finalize held) ∧ thread.values.artifactRefs = []

/-- An approved plan of which nothing has been submitted. -/
structure Unsubmitted (payload : Dict) (values : MacroAgentState) : Prop where
  approved : values.approvalStatus = .str "approved"
  plan : values.plan = .dict payload
  planned : values.answersDirectly = false
  idle : values.activeJobIds = []

theorem Unsubmitted.passed {payload : Dict} {values : MacroAgentState}
    (unsubmitted : Unsubmitted payload values) : heldBack values.approvalStatus = false :=
  unsubmitted.approved ▸ heldBack_approved

/-- How far the approved plan has come, on a thread that had no job. -/
inductive Stage (host : Host) (payload : Dict) (past : List ThreadTransition) (thread : Thread) :
    Prop where
  | deciding (review : Dict) : thread.position = .executing .humanApproval (some review) →
      Unsubmitted payload (thread.values.apply (humanApprovalNode thread.values review)) →
      Stage host payload past thread
  | assembling (held : Option Dict) : thread.position = .executing .assembleContext held →
      Unsubmitted payload thread.values → Stage host payload past thread
  | submitting (held : Option Dict) : thread.position = .executing .submitMcpJob held →
      Unsubmitted payload thread.values → Stage host payload past thread
  | capped : stepLimit ≤ thread.values.steps → thread.position ≠ .interrupted →
      (∀ node held, thread.position = .executing node held →
        node = .parseRequest ∨ node = .assembleContext) → Stage host payload past thread
  | attending (jobId : String) : thread.values.activeJobIds = [jobId] →
      (∃ transition ∈ past, EnqueuesJob host transition payload jobId) →
      Attends host thread → Stage host payload past thread

structure Underway (host : Host) (threadId : String) (payload : Dict)
    (past : List ThreadTransition) (thread : Thread) : Prop where
  booked : Booked threadId thread
  dated : Dated threadId thread
  stage : Stage host payload past thread
  reported : Reported host past thread

section Steps

variable {host : Host} {threadId : String} {past : List ThreadTransition} {thread next : Thread}
  {action : ThreadAction}

theorem Attends.begin (attends : Attends host thread) {runId query : String}
    (unmarked : host.isMarked query = false) (indirect : host.asksDirectly query = false) :
    Attends host (thread.begin threadId runId query) where
  asks _ _ := ⟨unmarked, indirect⟩
  planned := attends.planned
  passed := attends.passed
  unpaused := by
    intro paused
    cases paused
  unreviewed := by
    intro held executing
    cases executing
  complete := by
    intro held executing
    cases executing

private theorem Attends.parsed (attends : Attends host thread) {held : Option Dict}
    (executing : thread.position = .executing .parseRequest held) :
    (thread.values.apply (parseRequestNode host thread.values)).answersDirectly = false ∧
      heldBack (thread.values.apply (parseRequestNode host thread.values)).approvalStatus =
        false := by
  obtain ⟨unmarked, indirect⟩ := attends.asks held executing
  constructor
  · simp [MacroAgentState.answersDirectly, MacroAgentState.apply, parseRequestNode, indirect]
  · simp [MacroAgentState.apply, parseRequestNode, unmarked, heldBack]

theorem Attends.proceed (attends : Attends host thread) {node : Node} {held : Option Dict}
    (executing : thread.position = .executing node held) {store changed : SQLiteJobStore}
    {clock : Nat} {update : StateUpdate}
    (executed : Executed host thread.values store clock node held (.updated update changed)) :
    Attends host (Thread.proceed (thread.values.apply update) node changed) := by
  have owned := executed.owned
  have notReview : node ≠ .humanApproval := by
    rintro rfl
    exact attends.unreviewed held executing
  have planned : (thread.values.apply update).answersDirectly = false := by
    by_cases parsing : node = .parseRequest
    · subst parsing
      cases executed
      exact (attends.parsed executing).1
    · have kept := owned.parsedRequest parsing
      simpa [MacroAgentState.answersDirectly, MacroAgentState.apply, kept] using attends.planned
  have passed : heldBack (thread.values.apply update).approvalStatus = false := by
    by_cases parsing : node = .parseRequest
    · subst parsing
      cases executed
      exact (attends.parsed executing).2
    · have kept := owned.approvalStatus parsing notReview
      simpa [MacroAgentState.apply, kept] using attends.passed
  refine ⟨?_, planned, passed, Thread.proceed_not_interrupted _ _ _, ?_, ?_⟩
  · intro later entered
    exact absurd rfl (successor_ne_parseRequest (Thread.proceed_executing entered).1)
  · intro later entered
    have routed := successor_branch (Thread.proceed_executing entered).1 rfl
    rcases (decideNextAction_humanApproval_iff.mp routed).2 with pending | edited
    · exact not_pending passed pending
    · rw [edited] at passed
      exact absurd passed (by decide)
  · intro later entered
    rcases successor_finalize (Thread.proceed_executing entered).1 with routed | failed
    · rcases decideNextAction_finalize routed with failed | direct | rejected | complete
      · exact .inl failed
      · rw [planned] at direct
        cases direct
      · exact absurd rejected (not_rejected passed)
      · exact .inr complete
    · exact .inl failed

/-- Only a denied submission and a failed poll fail a thread that is not rejected. -/
private theorem observesFailure_of_failed {node : Node} {held : Option Dict}
    (executing : thread.position = .executing node held) {store changed : SQLiteJobStore}
    {clock : Nat} {update : StateUpdate}
    (executed : Executed host thread.values store clock node held (.updated update changed))
    (unfailed : thread.values.status ≠ some .failed) (notFinal : node ≠ .finalize)
    (failed : (thread.values.apply update).status = some .failed) :
    observesFailure host ⟨thread, .node store clock, next⟩ = true := by
  cases executed with
  | denies _ message denied => simp [observesFailure, executing, denied]
  | fails _ jobId job latest found status =>
      simp [observesFailure, executing, latest, SQLiteJobStore.statusOf_of_getJob found, status]
  | submits | completes => cases failed
  | aborts | delivers => exact absurd rfl notFinal
  | parseRequest | assembleContext | decides | skips | waits => exact absurd failed unfailed

private theorem observesFailure_unreferenced (booked : Booked threadId thread)
    (fails : observesFailure host ⟨thread, action, next⟩ = true) :
    thread.values.artifactRefs = [] := by
  have pending : thread.values.activeJobIds = [] ∨ thread.values.pendingJobs ≠ [] := by
    unfold observesFailure at fails
    dsimp only at fails
    split at fails
    · next executing =>
        have routed := booked.controlled.routed _ _ _ executing rfl
        exact .inl (decideNextAction_submitMcpJob_iff.mp routed).2.2
    · next executing =>
        have routed := booked.controlled.routed _ _ _ executing rfl
        exact .inr (decideNextAction_pollJobStatus_iff.mp routed).2.2
    · cases fails
  cases booked.accounts with
  | idle _ _ noArtifact => exact noArtifact
  | pending _ _ _ noArtifact => exact noArtifact
  | delivered jobId active recorded _ =>
      rcases pending with idle | unfinished
      · simp [active] at idle
      · simp [MacroAgentState.pendingJobs, MacroAgentState.completedJobIds, active, recorded]
          at unfinished

private theorem Reported.step (reported : Reported host past thread)
    (booked : Booked threadId thread) (unfailed : thread.values.status ≠ some .failed)
    (notFinal : ∀ held, thread.position ≠ .executing .finalize held)
    (stepped : thread.step host threadId action = some next) :
    Reported host (past ++ [⟨thread, action, next⟩]) next := by
  by_cases fails : observesFailure host ⟨thread, action, next⟩ = true
  · obtain ⟨entered, failed, _, sameArtifacts⟩ := observesFailure_next stepped fails
    refine ⟨iff_of_true ⟨_, by simp, fails⟩ failed, fun _ => ⟨⟨none, entered⟩, ?_⟩⟩
    exact sameArtifacts.trans (observesFailure_unreferenced booked fails)
  · have unfailedNext : next.values.status ≠ some .failed := by
      cases Thread.step_cases stepped with
      | runWorkflow runId userQuery settled =>
          intro failed
          cases failed
      | resumeWorkflow review paused => exact unfailed
      | others store settled => exact unfailed
      | crash node held store clock executing => exact unfailed
      | node node held store clock executing =>
          intro failed
          apply fails
          rcases thread.advance_values host node held store clock with
            ⟨update, changed, executed, outcome⟩ | outcome
          · rw [outcome] at failed
            refine observesFailure_of_failed executing executed unfailed ?_ failed
            rintro rfl
            exact notFinal held executing
          · rw [outcome] at failed
            exact absurd failed unfailed
    refine ⟨iff_of_false ?_ unfailedNext, fun failed => absurd failed unfailedNext⟩
    intro ⟨transition, member, observes⟩
    rcases List.mem_append.mp member with old | new
    · exact unfailed (reported.observed.mp ⟨transition, old, observes⟩)
    · exact fails (List.mem_singleton.mp new ▸ observes)

private theorem Attends.rest {values : MacroAgentState} {position : Position}
    {store : SQLiteJobStore} (planned : values.answersDirectly = false)
    (passed : heldBack values.approvalStatus = false) (unpaused : position ≠ .interrupted)
    (settled : Thread.Settled ⟨values, position, store⟩) :
    Attends host ⟨values, position, store⟩ where
  asks := fun held executing => absurd executing (settled _ held)
  planned := planned
  passed := passed
  unpaused := unpaused
  unreviewed := fun held => settled _ held
  complete := fun held executing => absurd executing (settled _ held)

private theorem Stage.assembled {payload : Dict} {values : MacroAgentState}
    (unsubmitted : Unsubmitted payload values) (unfailed : values.status ≠ some .failed)
    (later : List ThreadTransition) (store : SQLiteJobStore) :
    Stage host payload later
      (Thread.proceed (values.apply (assembleContextNode values)) .assembleContext store) := by
  let assembled := values.apply (assembleContextNode values)
  have samePlan : assembled.plan = values.plan :=
    assembled_plan values (not_pending unsubmitted.passed)
  have kept : Unsubmitted payload assembled :=
    ⟨unsubmitted.approved, samePlan.trans unsubmitted.plan, unsubmitted.planned,
      unsubmitted.idle⟩
  by_cases limit : stepLimit ≤ assembled.steps
  · rw [Thread.proceed_routed (decideNextAction_of_limit limit)]
    refine .capped limit (fun paused => by cases paused) ?_
    intro node held executing
    cases executing
  · have routed : decideNextAction assembled = .submitMcpJob :=
      decideNextAction_submitMcpJob_iff.mpr
        ⟨⟨Nat.not_le.mp limit, unfailed, kept.planned⟩, kept.passed, kept.idle⟩
    rw [Thread.proceed_routed routed]
    exact .submitting none rfl kept

/-- The key is new to the store, so that the approved plan becomes a job. -/
private theorem Stage.submitted {payload : Dict} {held : Option Dict}
    (unsubmitted : Unsubmitted payload thread.values)
    (executing : thread.position = .executing .submitMcpJob held) (dated : Dated threadId thread)
    {jobType : String} {decision : Decision}
    (admitted : assess host.registry (.dict payload) = .admitted jobType payload decision)
    {store : SQLiteJobStore} (activity : StoreActivity (Foreign threadId) thread.store store)
    (clock : Nat) :
    Stage host payload
      (past ++ [⟨thread, .node store clock,
        thread.advance host .submitMcpJob held store clock⟩])
      (thread.advance host .submitMcpJob held store clock) := by
  have gated : assess host.registry thread.values.plan = .admitted jobType payload decision := by
    rw [unsubmitted.plan]
    exact admitted
  have named := dated.controlled.named (.inr ⟨.submitMcpJob, held, executing⟩)
  have unknown := ((dated.entered executing (by decide)).activity activity).unknown named
  have enqueues : EnqueuesJob host ⟨thread, .node store clock,
      thread.advance host .submitMcpJob held store clock⟩ payload (jobIdAt clock) :=
    ⟨decision, store, clock, rfl, rfl,
      enqueues_iff.mpr ⟨held, store, clock, jobType, executing, rfl, gated, unknown⟩⟩
  refine .attending (jobIdAt clock) ?_ ⟨_, by simp, enqueues⟩ ?_
  · rw [Thread.advance_submitMcpJob gated, SQLiteJobStore.submitJob_of_unknown unknown]
    simp only [MacroAgentState.apply, submittedUpdate, reduced, unsubmitted.idle]
    exact reduceUniqueStrList_first _
  · rw [Thread.advance_submitMcpJob gated]
    exact Attends.rest unsubmitted.planned unsubmitted.passed (fun paused => by cases paused)
      (Thread.settled_atEnd _ _)

/-- Past the step limit a call parses, assembles and ends. -/
private theorem Stage.stopped {payload : Dict} {node : Node} {held : Option Dict}
    (limit : stepLimit ≤ thread.values.steps)
    (early : node = .parseRequest ∨ node = .assembleContext) (later : List ThreadTransition)
    (store : SQLiteJobStore) (clock : Nat) :
    Stage host payload later (thread.advance host node held store clock) := by
  rcases early with rfl | rfl
  · refine .capped ?_ (fun paused => by cases paused) ?_
    · exact limit.trans (Grows.advance thread .parseRequest held store clock).steps
    · intro node other executing
      cases executing
      exact .inr rfl
  · have steps := assembled_steps thread.values
    have routed : decideNextAction (thread.values.apply (assembleContextNode thread.values)) =
        .maxStepsHit := decideNextAction_of_limit (by omega)
    have outcome : thread.advance host .assembleContext held store clock =
        ⟨thread.values.apply (assembleContextNode thread.values), .atEnd, store⟩ :=
      Thread.proceed_routed routed store
    rw [outcome]
    refine .capped (by dsimp only; omega) (fun paused => by cases paused) ?_
    intro node other executing
    cases executing

private theorem Stage.attended {payload : Dict} {jobId : String}
    (active : thread.values.activeJobIds = [jobId])
    (enqueued : ∃ transition ∈ past, EnqueuesJob host transition payload jobId)
    (attends : Attends host thread) (controlled : Controlled threadId thread) {node : Node}
    {held : Option Dict} (executing : thread.position = .executing node held)
    (store : SQLiteJobStore) (clock : Nat) :
    Stage host payload past (thread.advance host node held store clock) := by
  have notSubmit : node ≠ .submitMcpJob := by
    rintro rfl
    have routed := controlled.routed _ _ _ executing rfl
    have idle := (decideNextAction_submitMcpJob_iff.mp routed).2.2
    simp [active] at idle
  rcases thread.advance_cases host node held store clock with
    ⟨update, changed, executed, outcome⟩ | ⟨executed, _⟩ | ⟨exception, _, outcome⟩
  · rw [outcome]
    refine .attending jobId ?_ enqueued (attends.proceed executing executed)
    simpa [Thread.proceed, MacroAgentState.apply, executed.owned.activeJobIds notSubmit, reduced]
      using active
  · cases executed
    exact absurd executing (attends.unreviewed none)
  · rw [outcome]
    exact .attending jobId active enqueued (Attends.rest attends.planned attends.passed
      (fun paused => by cases paused) (Thread.settled_raised _ _ _))

private theorem Stage.later {payload : Dict} (stage : Stage host payload past thread)
    (transition : ThreadTransition) : Stage host payload (past ++ [transition]) thread := by
  cases stage with
  | deciding review executing unsubmitted => exact .deciding review executing unsubmitted
  | assembling held executing unsubmitted => exact .assembling held executing unsubmitted
  | submitting held executing unsubmitted => exact .submitting held executing unsubmitted
  | capped limit unpaused early => exact .capped limit unpaused early
  | attending jobId active enqueued attends =>
      obtain ⟨earlier, member, enqueues⟩ := enqueued
      exact .attending jobId active ⟨earlier, by simp [member], enqueues⟩ attends

private theorem Stage.node {payload : Dict} (stage : Stage host payload past thread)
    (dated : Dated threadId thread) {jobType : String} {decision : Decision}
    (admitted : assess host.registry (.dict payload) = .admitted jobType payload decision)
    (unfailed : thread.values.status ≠ some .failed) {node : Node} {held : Option Dict}
    (executing : thread.position = .executing node held) {store : SQLiteJobStore}
    (activity : StoreActivity (Foreign threadId) thread.store store) (clock : Nat) :
    Stage host payload
      (past ++ [⟨thread, .node store clock, thread.advance host node held store clock⟩])
      (thread.advance host node held store clock) := by
  cases stage with
  | deciding review entered unsubmitted =>
      cases executing.symm.trans entered
      exact .assembling none rfl unsubmitted
  | assembling other entered unsubmitted =>
      cases executing.symm.trans entered
      exact Stage.assembled unsubmitted unfailed _ store
  | submitting other entered unsubmitted =>
      cases executing.symm.trans entered
      exact Stage.submitted unsubmitted executing dated admitted activity clock
  | capped limit _ early => exact Stage.stopped limit (early node held executing) _ store clock
  | attending jobId active enqueued attends =>
      exact (Stage.attended active enqueued attends dated.controlled executing store clock).later _

private theorem Stage.step {payload : Dict} (stage : Stage host payload past thread)
    (dated : Dated threadId thread) {jobType : String} {decision : Decision}
    (admitted : assess host.registry (.dict payload) = .admitted jobType payload decision)
    (unfailed : thread.values.status ≠ some .failed)
    (stepped : thread.step host threadId action = some next)
    (regular : Regular threadId ⟨thread, action, next⟩)
    (followsUp : FollowsUp host ⟨thread, action, next⟩) :
    Stage host payload (past ++ [⟨thread, action, next⟩]) next := by
  cases Thread.step_cases stepped with
  | runWorkflow runId userQuery settled =>
      obtain ⟨unmarked, indirect⟩ := followsUp.asks runId userQuery rfl
      cases stage with
      | deciding review executing => exact absurd executing (settled _ _)
      | assembling held executing => exact absurd executing (settled _ _)
      | submitting held executing => exact absurd executing (settled _ _)
      | capped limit _ _ =>
          refine .capped limit (fun paused => by cases paused) ?_
          intro node held executing
          cases executing
          exact .inl rfl
      | attending jobId active enqueued attends =>
          have asking : Stage host payload past (thread.begin threadId runId userQuery) :=
            .attending jobId active enqueued (attends.begin unmarked indirect)
          exact asking.later _
  | resumeWorkflow review paused =>
      cases stage with
      | deciding other executing => cases paused.symm.trans executing
      | assembling held executing => cases paused.symm.trans executing
      | submitting held executing => cases paused.symm.trans executing
      | capped _ unpaused _ => exact absurd paused unpaused
      | attending jobId active enqueued attends => exact absurd paused attends.unpaused
  | others store settled =>
      cases stage with
      | deciding other executing => exact absurd executing (settled _ _)
      | assembling held executing => exact absurd executing (settled _ _)
      | submitting held executing => exact absurd executing (settled _ _)
      | capped limit unpaused early => exact .capped limit unpaused early
      | attending jobId active enqueued attends =>
          have resting : Stage host payload past { thread with store := store } :=
            .attending jobId active enqueued (Attends.rest attends.planned attends.passed
              attends.unpaused settled)
          exact resting.later _
  | crash node held store clock executing => cases followsUp.survives
  | node node held store clock executing =>
      exact stage.node dated admitted unfailed executing (regular store rfl) clock

private theorem Stage.finalizing {payload : Dict} {held : Option Dict}
    (stage : Stage host payload past thread)
    (executing : thread.position = .executing .finalize held) :
    ∃ jobId, thread.values.activeJobIds = [jobId] ∧
      (∃ transition ∈ past, EnqueuesJob host transition payload jobId) ∧
      Attends host thread := by
  cases stage with
  | deciding review entered => cases executing.symm.trans entered
  | assembling other entered => cases executing.symm.trans entered
  | submitting other entered => cases executing.symm.trans entered
  | capped _ _ early => rcases early _ _ executing with parsing | assembling <;> contradiction
  | attending jobId active enqueued attends => exact ⟨jobId, active, enqueued, attends⟩

/-- Whatever is finalized after an approval is reported as completed. -/
private theorem Stage.delivers {payload : Dict} {held : Option Dict}
    (stage : Stage host payload past thread)
    (executing : thread.position = .executing .finalize held)
    (stepped : thread.step host threadId action = some next)
    (survives : CrashFree ⟨thread, action, next⟩) :
    next.values = thread.values.apply (deliveryUpdate thread.values) := by
  obtain ⟨_, _, _, attends⟩ := stage.finalizing executing
  obtain ⟨store, clock, rfl, rfl⟩ := survives.advances stepped executing
  rw [Thread.advance_delivers (not_rejected attends.passed)]

private theorem Underway.step {payload : Dict}
    (underway : Underway host threadId payload past thread)
    {jobType : String} {decision : Decision}
    (admitted : assess host.registry (.dict payload) = .admitted jobType payload decision)
    (stepped : thread.step host threadId action = some next)
    (regular : Regular threadId ⟨thread, action, next⟩)
    (followsUp : FollowsUp host ⟨thread, action, next⟩)
    (unfinished : next.values.status ≠ some .completed) :
    Underway host threadId payload (past ++ [⟨thread, action, next⟩]) next := by
  obtain ⟨booked, dated, stage, reported⟩ := underway
  have notFinal : ∀ held, thread.position ≠ .executing .finalize held := by
    intro held executing
    apply unfinished
    rw [stage.delivers executing stepped followsUp.survives]
    rfl
  have unfailed : thread.values.status ≠ some .failed := by
    intro failed
    obtain ⟨⟨held, executing⟩, _⟩ := reported.finalizing failed
    exact notFinal held executing
  exact ⟨booked.step stepped regular, dated.step stepped regular,
    stage.step dated admitted unfailed stepped regular followsUp,
    reported.step booked unfailed notFinal stepped⟩

/-- An approval on a thread without a job sends its plan on the way. -/
private theorem Underway.of_approval {payload : Dict} (booked : Booked threadId thread)
    (dated : Dated threadId thread) (idle : thread.values.activeJobIds = [])
    (approves : Approves ⟨thread, action, next⟩ (.dict payload))
    (stepped : thread.step host threadId action = some next) :
    Underway host threadId payload [] next := by
  obtain ⟨review, label, approved, reviewed⟩ := approves
  dsimp only at label reviewed
  subst label
  have regular : Regular threadId ⟨thread, .resumeWorkflow review, next⟩ := by
    intro store left
    cases left
  refine ⟨booked.step stepped regular, dated.step stepped regular, ?_, ?_⟩
  · cases Thread.step_cases stepped with
    | resumeWorkflow _ paused =>
        have cleared := (decideNextAction_humanApproval_iff.mp (booked.controlled.paused paused)).1
        have answered := host.answer_of_action approved
        exact .deciding review (congrArg _ answered)
          ⟨approved, reviewed, cleared.planned, idle⟩
  · cases Thread.step_cases stepped with
    | resumeWorkflow _ paused =>
        have cleared := (decideNextAction_humanApproval_iff.mp (booked.controlled.paused paused)).1
        exact ⟨iff_of_false (by simp) cleared.unfailed, fun failed =>
          absurd failed cleared.unfailed⟩

/-- Only `finalize` completes a request. -/
private theorem completes_inv
    (stepped : thread.step host threadId action = some next)
    (survives : CrashFree ⟨thread, action, next⟩)
    (unfinished : thread.values.status ≠ some .completed)
    (completed : next.values.status = some .completed) :
    ∃ held, thread.position = .executing .finalize held := by
  cases Thread.step_cases stepped with
  | runWorkflow runId userQuery settled => cases completed
  | resumeWorkflow review paused => exact absurd completed unfinished
  | others store settled => exact absurd completed unfinished
  | crash node held store clock executing => cases survives
  | node node held store clock executing =>
      refine ⟨held, ?_⟩
      rcases thread.advance_values host node held store clock with
        ⟨update, changed, executed, outcome⟩ | outcome
      · rw [outcome] at completed
        cases executed with
        | delivers => exact executing
        | denies | submits | completes | fails | aborts => cases completed
        | parseRequest | assembleContext | decides | skips | waits =>
            exact absurd completed unfinished
      · rw [outcome] at completed
        exact absurd completed unfinished

end Steps

section Requests

variable {host : Host} {threadId : String} {payload : Dict}
  {earlier middle later : List ThreadTransition} {approval completion : ThreadTransition}
  {thread : Thread}

theorem citesLast_deliveryUpdate {values : MacroAgentState} {artifact : ArtifactRef} :
    CitesLast (values.apply (deliveryUpdate values)) artifact ↔
      values.artifactRefs.getLast? = some artifact := by
  simp [CitesLast, MacroAgentState.apply, deliveryUpdate, reduced]

/-- A thread that has a job submits no other, so that no approval adds one. -/
private theorem not_executed_of_busy
    (upTo : Run (Thread.step host threadId) Thread.initial earlier approval.target)
    (request : Run (Thread.step host threadId) approval.target (middle ++ [completion]) thread)
    (busy : approval.target.values.activeJobIds ≠ []) :
    ¬ PlanExecuted host payload middle completion := by
  intro ⟨transition, member, jobId, ⟨decision, store, clock, _, _, enqueues⟩, _⟩
  obtain ⟨front, back, split⟩ := List.append_of_mem member
  rw [split] at request
  have before := request.around.1
  have stillBusy : transition.source.values.activeJobIds ≠ [] := by
    refine Run.preserves (fun _ => True) (fun state : Thread => state.values.activeJobIds ≠ [])
      busy ?_ before (fun _ _ => trivial)
    intro state action next held stepped _ idle
    exact held ((Grows.step stepped).idle idle)
  obtain ⟨_, _, _, _, executing, _⟩ := enqueues_iff.mp enqueues
  have routed := (run_controlled (upTo.append before)).routed _ _ _ executing rfl
  exact stillBusy (decideNextAction_submitMcpJob_iff.mp routed).2.2

private theorem request_underway
    (upTo : Run (Thread.step host threadId) Thread.initial earlier approval.source)
    (approving : approval.source.step host threadId approval.label = some approval.target)
    (during : Run (Thread.step host threadId) approval.target middle completion.source)
    (regular : ∀ transition ∈ earlier ++ middle, Regular threadId transition)
    (request : ApprovedRequest host payload approval middle completion)
    (idle : approval.source.values.activeJobIds = []) :
    Underway host threadId payload middle completion.source ∧
      completion.source.values.status ≠ some .completed := by
  have earlierRegular : ∀ transition ∈ earlier, Regular threadId transition :=
    fun transition member => regular transition (List.mem_append_left _ member)
  have sent : Underway host threadId payload [] approval.target :=
    Underway.of_approval (run_booked upTo earlierRegular) (run_dated upTo earlierRegular) idle
      request.approves approving
  obtain ⟨jobType, decision, admitted⟩ := request.admitted
  constructor
  · refine Run.invariant
      (fun transition => Regular threadId transition ∧ FollowsUp host transition ∧
        transition.target.values.status ≠ some .completed)
      (Underway host threadId payload) sent ?_ during ?_
    · intro past state action next _ underway stepped permitted
      obtain ⟨isRegular, followsUp, unfinished⟩ := permitted
      exact underway.step admitted stepped isRegular followsUp unfinished
    · intro transition member
      exact ⟨regular transition (List.mem_append_right _ member),
        request.followsUp transition (List.mem_append_left _ member),
        request.unfinished transition (List.mem_cons_of_mem _ member)⟩
  · refine Run.preserves
      (fun transition => transition.target.values.status ≠ some .completed)
      (fun state : Thread => state.values.status ≠ some .completed)
      (request.unfinished approval List.mem_cons_self) ?_ during ?_
    · intro state action next _ _ unfinished
      exact unfinished
    · intro transition member
      exact request.unfinished transition (List.mem_cons_of_mem _ member)

/-- An approved plan whose request is completed has been executed exactly if
the thread had no job at the approval, and no poll found the job failed. -/
theorem planExecuted_iff
    (run : Run (Thread.step host threadId) Thread.initial
      (earlier ++ approval :: (middle ++ completion :: later)) thread)
    (regular : ∀ transition ∈ earlier ++ middle, Regular threadId transition)
    (request : ApprovedRequest host payload approval middle completion) :
    PlanExecuted host payload middle completion ↔
      approval.source.values.activeJobIds = [] ∧
        ∀ transition ∈ middle, observesFailure host transition = false := by
  obtain ⟨upTo, approving, rest⟩ := run.around
  obtain ⟨during, completing, _⟩ := rest.around
  by_cases idle : approval.source.values.activeJobIds = []
  · obtain ⟨underway, unfinished⟩ := request_underway upTo approving during regular request idle
    have survives := (request.followsUp completion (by simp)).survives
    obtain ⟨held, executing⟩ := completes_inv completing survives unfinished request.completed
    obtain ⟨jobId, active, enqueued, attends⟩ := underway.stage.finalizing executing
    have delivered := underway.stage.delivers executing completing survives
    by_cases failed : completion.source.values.status = some .failed
    · obtain ⟨transition, member, observes⟩ := underway.reported.observed.mpr failed
      have unreferenced := (underway.reported.finalizing failed).2
      refine iff_of_false ?_ ?_
      · intro ⟨_, _, other, _, cites⟩
        rw [delivered, citesLast_deliveryUpdate, unreferenced] at cites
        cases cites
      · intro ⟨_, unobserved⟩
        exact absurd observes (by simp [unobserved transition member])
    · have complete := (attends.complete held executing).resolve_left failed
      have referenced : completion.source.values.artifactRefs = [processedArtifact jobId] := by
        cases underway.booked.accounts with
        | idle noJob => simp [active] at noJob
        | pending other job unrecorded _ =>
            simp [MacroAgentState.pendingJobs, MacroAgentState.completedJobIds, active,
              unrecorded] at complete
        | delivered other job _ referenced =>
            obtain rfl : jobId = other := by simpa [active] using job
            exact referenced
      refine iff_of_true ?_ ⟨idle, ?_⟩
      · obtain ⟨transition, member, enqueues⟩ := enqueued
        refine ⟨transition, List.mem_append_left _ member, jobId, enqueues, ?_⟩
        rw [delivered, citesLast_deliveryUpdate, referenced]
        rfl
      · intro transition member
        by_contra observes
        exact failed (underway.reported.observed.mp
          ⟨transition, member, Bool.not_eq_false _ ▸ observes⟩)
  · refine iff_of_false ?_ (fun executed => idle executed.1)
    refine not_executed_of_busy (upTo.snoc approving) (during.snoc completing) ?_
    intro emptied
    exact idle ((Grows.step approving).idle emptied)

end Requests

private def Command.followsUp : Command → Bool
  | .crash _ => false
  | .runWorkflow _ query => !Host.ascii.isMarked query && !Host.ascii.asksDirectly query
  | _ => true

private theorem followsUp_of_command {transition : ThreadTransition} {command : Command}
    (label : transition.label = command.resolve transition.source)
    (follows : command.followsUp = true) : FollowsUp Host.ascii transition where
  survives := by
    unfold CrashFree
    rw [label]
    cases command with
    | crash clock => cases follows
    | runWorkflow runId query | resumeWorkflow review | node clock | succeed jobId
    | fail jobId => rfl
  asks := by
    intro runId query asks
    rw [label] at asks
    cases command with
    | runWorkflow _ _ =>
        cases asks
        simpa [Command.followsUp] using follows
    | resumeWorkflow review | node clock | crash clock | succeed jobId | fail jobId => cases asks

private theorem request_observed {Observation : Type} (before : List Command) (review : Dict)
    (between : List Command) (last : Command) (observe : List ThreadTransition → Observation)
    (observation : Observation)
    (driven : (execute (Command.take Host.ascii "t") Thread.initial
      (before ++ .resumeWorkflow review :: (between ++ [last]))).map
        (fun outcome => observe ((outcome.1.drop before.length).map fun taken =>
          ⟨taken.source, taken.label.resolve taken.source, taken.target⟩)) = some observation) :
    ∃ earlier approval middle completion thread,
      Run (Thread.step Host.ascii "t") Thread.initial
        (earlier ++ approval :: (middle ++ [completion])) thread ∧
      (∀ transition ∈ earlier ++ middle, Regular "t" transition) ∧
      approval.label = .resumeWorkflow review ∧
      (∀ transition ∈ middle ++ [completion], ∃ command ∈ between ++ [last],
        transition.label = command.resolve transition.source) ∧
      observe (approval :: (middle ++ [completion])) = observation := by
  obtain ⟨taken, thread, run, labels, observed⟩ := execute_observed _ _ _ _ _ driven
  obtain ⟨first, rest, rfl, firstLabels, restLabels⟩ := List.map_eq_append_iff.mp labels
  obtain ⟨approved, rest, rfl, approvedLabel, restLabels⟩ := List.map_eq_cons_iff.mp restLabels
  obtain ⟨during, final, rfl, duringLabels, finalLabels⟩ := List.map_eq_append_iff.mp restLabels
  obtain ⟨completed, nothing, rfl, completedLabel, none⟩ := List.map_eq_cons_iff.mp finalLabels
  obtain rfl := List.map_eq_nil_iff.mp none
  have resolved := run.relabel fun thread (command : Command) => command.resolve thread
  let resolve := fun taken : Transition Thread Command =>
    (⟨taken.source, taken.label.resolve taken.source, taken.target⟩ : ThreadTransition)
  have length : first.length = before.length := by
    rw [← firstLabels, List.length_map]
  refine ⟨first.map resolve, resolve approved, during.map resolve, resolve completed, thread,
    by simpa using resolved, ?_, ?_, ?_, ?_⟩
  · intro transition member
    rw [← List.map_append] at member
    obtain ⟨step, _, rfl⟩ := List.mem_map.mp member
    exact step.label.regular "t" step.source step.target
  · simp [resolve, approvedLabel, Command.resolve]
  · intro transition member
    rw [← List.map_singleton, ← List.map_append] at member
    obtain ⟨step, included, rfl⟩ := List.mem_map.mp member
    refine ⟨step.label, ?_, rfl⟩
    rw [← duringLabels, ← completedLabel, ← List.map_singleton, ← List.map_append]
    exact List.mem_map_of_mem included
  · rw [← length, List.drop_left] at observed
    simpa using observed

/-- What is looked at in the transitions from the approval to the completion. -/
private def looked (request : List ThreadTransition) :
    Option (List String) × Bool × Option (Option WorkflowStatus) × Bool :=
  (request.head?.map (·.source.values.activeJobIds),
    request.dropLast.all fun transition =>
      decide (transition.target.values.status ≠ some .completed),
    request.getLast?.map (·.target.values.status),
    request.dropLast.all fun transition => !observesFailure Host.ascii transition)

private def approval : Dict := [("action", .str "approved"), ("updated_plan", .dict forecast)]

private theorem request_looked (before between : List Command) (last : Command)
    (jobs : List String)
    (driven : (execute (Command.take Host.ascii "t") Thread.initial
      (before ++ .resumeWorkflow approval :: (between ++ [last]))).map
        (fun outcome => looked ((outcome.1.drop before.length).map fun taken =>
          ⟨taken.source, taken.label.resolve taken.source, taken.target⟩)) =
      some (some jobs, true, some (some .completed), true))
    (follows : (between ++ [last]).all Command.followsUp = true) :
    ∃ earlier approving middle completion thread,
      Run (Thread.step Host.ascii "t") Thread.initial
        (earlier ++ approving :: (middle ++ [completion])) thread ∧
      (∀ transition ∈ earlier ++ middle, Regular "t" transition) ∧
      ApprovedRequest Host.ascii forecast approving middle completion ∧
      approving.source.values.activeJobIds = jobs ∧
      ∀ transition ∈ middle, observesFailure Host.ascii transition = false := by
  obtain ⟨earlier, approving, middle, completion, thread, run, regular, label, commands,
    observed⟩ := request_observed before approval between last looked _ driven
  obtain ⟨active, rest⟩ := Prod.mk.inj observed
  obtain ⟨unfinished, rest⟩ := Prod.mk.inj rest
  obtain ⟨completed, unobserved⟩ := Prod.mk.inj rest
  rw [← List.cons_append, List.dropLast_concat, List.all_eq_true] at unfinished unobserved
  rw [← List.cons_append, List.getLast?_concat] at completed
  refine ⟨earlier, approving, middle, completion, thread, run, regular, ?_, ?_, ?_⟩
  · refine ⟨⟨approval, label, rfl, rfl⟩, ⟨_, _, forecast_admitted⟩, ?_, ?_, ?_⟩
    · intro transition member
      obtain ⟨command, listed, resolved⟩ := commands transition member
      exact followsUp_of_command resolved (List.all_eq_true.mp follows command listed)
    · intro transition member
      exact of_decide_eq_true (unfinished transition member)
    · exact Option.some.inj completed
  · exact Option.some.inj active
  · intro transition member
    simpa using unobserved transition (List.mem_cons_of_mem _ member)

/-- The first approved plan of a thread is executed, and its artifact is cited. -/
theorem planExecuted_on_first_request :
    ∃ earlier approving middle completion thread,
      Run (Thread.step Host.ascii "t") Thread.initial
        (earlier ++ approving :: (middle ++ [completion])) thread ∧
      ApprovedRequest Host.ascii forecast approving middle completion ∧
      PlanExecuted Host.ascii forecast middle completion := by
  obtain ⟨earlier, approving, middle, completion, thread, run, regular, request, idle,
    unobserved⟩ := request_looked
      [.runWorkflow "r1" "Diagnose CPI trends", .node 0, .node 0, .node 0]
      [.node 0, .node 0, .node 5, .succeed (jobIdAt 5),
        .runWorkflow "r2" "Resume placeholder", .node 0, .node 0, .node 0, .node 0]
      (.node 0) [] (by decide +kernel) (by decide +kernel)
  exact ⟨earlier, approving, middle, completion, thread, run, request,
    (planExecuted_iff run regular request).mpr ⟨idle, unobserved⟩⟩

/-- The thread has a finished job when a second plan is approved: the request is
completed in the call that approves, and nothing is submitted. -/
theorem planExecuted_fails_on_second_request :
    ∃ earlier approving middle completion thread,
      Run (Thread.step Host.ascii "t") Thread.initial
        (earlier ++ approving :: (middle ++ [completion])) thread ∧
      (∀ transition ∈ earlier ++ middle, Regular "t" transition) ∧
      ApprovedRequest Host.ascii forecast approving middle completion ∧
      ¬ PlanExecuted Host.ascii forecast middle completion := by
  obtain ⟨earlier, approving, middle, completion, thread, run, regular, request, busy, _⟩ :=
    request_looked
      [.runWorkflow "r1" "Analyze CPI", .node 0, .node 0, .node 5, .succeed (jobIdAt 5),
        .runWorkflow "r2" "status?", .node 0, .node 0, .node 0, .node 0, .node 0,
        .runWorkflow "r3" "Diagnose CPI trends", .node 0, .node 0, .node 0]
      [.node 0, .node 0] (.node 0) [jobIdAt 5] (by decide +kernel) (by decide +kernel)
  obtain ⟨upTo, stepped, rest⟩ := run.around
  refine ⟨earlier, approving, middle, completion, thread, run, regular, request, ?_⟩
  refine not_executed_of_busy (upTo.snoc stepped) rest ?_
  intro emptied
  simp [(Grows.step stepped).idle emptied] at busy

end DurableAgent.Graph
