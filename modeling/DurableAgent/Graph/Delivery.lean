import DurableAgent.Graph.JobActivity

/-!
# Bookkeeping and delivery

A thread submits at most one job, and records its completion together with the
artifact of that very job. Whether a finished job is delivered depends only on
the steps that the thread has left below the router's limit.
-/

set_option autoImplicit false

namespace DurableAgent.Graph

open Capability Jobs Library Python

/-- What the three job channels of a thread can hold. -/
inductive Accounts (values : MacroAgentState) : Prop where
  | idle : values.activeJobIds = [] → values.completedJobResults = [] →
      values.artifactRefs = [] → Accounts values
  | pending (jobId : String) : values.activeJobIds = [jobId] →
      values.completedJobResults = [] → values.artifactRefs = [] → Accounts values
  | delivered (jobId : String) : values.activeJobIds = [jobId] →
      values.completedJobResults = [⟨jobId, .succeeded⟩] →
      values.artifactRefs = [processedArtifact jobId] → Accounts values

structure Booked (threadId : String) (thread : Thread) : Prop where
  controlled : Controlled threadId thread
  processed : thread.store.Processed
  accounts : Accounts thread.values

section Invariant

variable {host : Host} {threadId : String} {history : List ThreadTransition}
  {thread next : Thread}

private theorem Accounts.congr {before after : MacroAgentState} (accounts : Accounts before)
    (active : after.activeJobIds = before.activeJobIds)
    (completed : after.completedJobResults = before.completedJobResults)
    (artifacts : after.artifactRefs = before.artifactRefs) : Accounts after := by
  cases accounts with
  | idle noJob noResult noArtifact =>
      exact .idle (active.trans noJob) (completed.trans noResult) (artifacts.trans noArtifact)
  | pending jobId job noResult noArtifact =>
      exact .pending jobId (active.trans job) (completed.trans noResult)
        (artifacts.trans noArtifact)
  | delivered jobId job result artifact =>
      exact .delivered jobId (active.trans job) (completed.trans result)
        (artifacts.trans artifact)

private theorem Accounts.executed {values : MacroAgentState} {store changed : SQLiteJobStore}
    {clock : Nat} {node : Node} {review : Option Dict} {update : StateUpdate}
    (accounts : Accounts values) (processed : store.Processed)
    (submitting : node = .submitMcpJob → values.activeJobIds = [])
    (polling : node = .pollJobStatus → values.pendingJobs ≠ [])
    (executed : Executed host values store clock node review (.updated update changed)) :
    Accounts (values.apply update) := by
  cases executed with
  | submits _ jobType payload decision admitted =>
      have noJob := submitting rfl
      cases accounts with
      | idle _ noResult noArtifact =>
          refine .pending (store.submitJob jobType values.idempotencyKey payload clock).1.jobId
            ?_ noResult noArtifact
          simp only [MacroAgentState.apply, submittedUpdate, reduced, noJob]
          exact reduceUniqueStrList_first _
      | pending jobId job => simp [noJob] at job
      | delivered jobId job => simp [noJob] at job
  | completes _ jobId job result latest found succeeded produced =>
      have unfinished := polling rfl
      have own : result = processedResult jobId :=
        Option.some.inj (produced.symm.trans (processed jobId job found succeeded))
      cases accounts with
      | idle noJob => simp [noJob] at latest
      | pending other active noResult noArtifact =>
          obtain rfl : other = jobId := by simpa [active] using latest
          refine .delivered other active ?_ ?_
          · simp only [MacroAgentState.apply, completedUpdate, reduced, noResult]
            exact reduceArtifactRefs_first _
          · simp only [MacroAgentState.apply, completedUpdate, reduced, noArtifact, own]
            exact reduceArtifactRefs_first _
      | delivered other active recorded =>
          simp [MacroAgentState.pendingJobs, MacroAgentState.completedJobIds, active, recorded]
            at unfinished
  | parseRequest | assembleContext | decides | denies | skips | fails | waits | aborts
  | delivers => exact accounts.congr rfl rfl rfl

theorem Thread.advance_processed (thread : Thread) (host : Host) (node : Node)
    (review : Option Dict) {store : SQLiteJobStore} (clock : Nat) (processed : store.Processed) :
    (thread.advance host node review store clock).store.Processed :=
  thread.advance_store_keeps host node review clock processed fun _ jobType payload =>
    processed.submitJob jobType _ payload clock

private theorem Booked.advance (booked : Booked threadId thread) {node : Node}
    {review : Option Dict} (executing : thread.position = .executing node review)
    {store : SQLiteJobStore} (clock : Nat) (processed : store.Processed) :
    Accounts (thread.advance host node review store clock).values := by
  have routed := booked.controlled.routed node review
  rcases thread.advance_values host node review store clock with
    ⟨update, changed, executed, outcome⟩ | outcome
  · rw [outcome]
    refine booked.accounts.executed processed ?_ ?_ executed
    · rintro rfl
      exact (decideNextAction_submitMcpJob_iff.mp (routed _ executing rfl)).2.2
    · rintro rfl
      exact (decideNextAction_pollJobStatus_iff.mp (routed _ executing rfl)).2.2
  · rw [outcome]
    exact booked.accounts

theorem Booked.step (booked : Booked threadId thread) {action : ThreadAction}
    (stepped : thread.step host threadId action = some next)
    (regular : Regular threadId ⟨thread, action, next⟩) : Booked threadId next := by
  have controlled := booked.controlled.step stepped
  cases Thread.step_cases stepped with
  | runWorkflow runId userQuery settled =>
      exact ⟨controlled, booked.processed, booked.accounts.congr rfl rfl rfl⟩
  | resumeWorkflow review paused => exact ⟨controlled, booked.processed, booked.accounts⟩
  | node node review store clock executing =>
      have processed := StoreActivity.processed (regular store rfl) booked.processed
      exact ⟨controlled, thread.advance_processed host node review clock processed,
        booked.advance executing clock processed⟩
  | others store settled =>
      exact ⟨controlled, StoreActivity.processed (regular store rfl) booked.processed,
        booked.accounts⟩
  | crash node review store clock executing =>
      have processed := StoreActivity.processed (regular store rfl) booked.processed
      refine ⟨controlled, ?_, booked.accounts⟩
      cases clock with
      | none => exact processed
      | some reading => exact thread.advance_processed host node review reading processed

theorem Booked.initial : Booked threadId Thread.initial := by
  refine ⟨Controlled.initial, ?_, .idle rfl rfl rfl⟩
  intro jobId job found
  simp [Thread.initial] at found

theorem run_booked (run : Run (Thread.step host threadId) Thread.initial history thread)
    (regular : ∀ transition ∈ history, Regular threadId transition) : Booked threadId thread := by
  refine Run.preserves (Regular threadId) (Booked threadId) Booked.initial ?_ run regular
  intro state action following booked stepped permitted
  exact booked.step stepped permitted

end Invariant

/-- The artifact is referenced and cited in a completed workflow. -/
structure Delivered (artifact : ArtifactRef) (thread : Thread) : Prop where
  completed : thread.values.status = some .completed
  referenced : artifact ∈ thread.values.artifactRefs
  cited : ∃ answer, thread.values.finalAnswer = some answer ∧
    occursIn artifact.uri answer = true

/-- Other parties act regularly and leave the thread's jobs succeeded. -/
def StaysSucceeded (threadId : String) (thread : Thread) (store : SQLiteJobStore) : Prop :=
  StoreActivity (Foreign threadId) thread.store store ∧
    ∀ jobId ∈ thread.values.activeJobIds, store.statusOf jobId = some .succeeded

theorem StaysSucceeded.status {threadId jobId : String} {thread : Thread}
    {store : SQLiteJobStore} (stays : StaysSucceeded threadId thread store)
    (active : thread.values.activeJobIds = [jobId]) : store.statusOf jobId = some .succeeded :=
  stays.2 jobId (active ▸ List.mem_singleton_self jobId)

theorem staysSucceeded_possible {threadId jobId : String} {thread : Thread}
    (active : thread.values.activeJobIds = [jobId])
    (succeeded : thread.store.statusOf jobId = some .succeeded) :
    ∃ store, StaysSucceeded threadId thread store := by
  refine ⟨thread.store, .refl, ?_⟩
  intro other member
  rw [active] at member
  exact List.mem_singleton.mp member ▸ succeeded

/-- The only job of the thread is recorded as completed. -/
structure Ready (jobId : String) (values : MacroAgentState) : Prop where
  running : values.status = some .running
  planned : values.answersDirectly = false
  passed : heldBack values.approvalStatus = false
  active : values.activeJobIds = [jobId]
  recorded : values.completedJobResults = [⟨jobId, .succeeded⟩]
  referenced : values.artifactRefs = [processedArtifact jobId]

/-- What a call comes to whose thread has a finished job: it delivers the job if
it reaches the router within the limit, and it is cut off otherwise. -/
structure Concluded (within : Prop) (artifact : ArtifactRef) (history : List ThreadTransition)
    (final : Thread) : Prop where
  delivers : within → Delivered artifact final ∧ history.any finalizes = true
  cutOff : ¬ within → final.values.status = some .running

theorem Concluded.delivered_iff {within : Prop} {artifact : ArtifactRef}
    {history : List ThreadTransition} {final : Thread}
    (concluded : Concluded within artifact history final) :
    Delivered artifact final ↔ within := by
  constructor
  · intro delivered
    by_contra beyond
    cases (concluded.cutOff beyond).symm.trans delivered.completed
  · intro below
    exact (concluded.delivers below).1

section Delivery

variable {host : Host} {threadId : String} {history : List ThreadTransition} {thread : Thread}

theorem occursIn_evidence (query : String) (artifact : ArtifactRef) :
    occursIn artifact.uri (compiledSummary query ++ evidence [artifact]) = true := by
  unfold occursIn evidence
  rw [decide_eq_true_iff]
  simp only [List.getLast?_singleton, String.toList_append]
  simp only [← List.append_assoc]
  exact (List.suffix_append _ _).isInfix

theorem Ready.assembled {jobId : String} {values : MacroAgentState} (ready : Ready jobId values) :
    Ready jobId (values.apply (assembleContextNode values)) :=
  ⟨ready.running, ready.planned, ready.passed, ready.active, ready.recorded, ready.referenced⟩

theorem Ready.routed {jobId : String} {values : MacroAgentState} (ready : Ready jobId values)
    (within : values.steps < stepLimit) : decideNextAction values = .finalize := by
  refine decideNextAction_of_complete ⟨within, by simp [ready.running], ready.planned⟩
    ready.passed (by simp [ready.active]) ?_
  simp [MacroAgentState.pendingJobs, MacroAgentState.completedJobIds, ready.active,
    ready.recorded]

theorem Ready.delivers {jobId : String} {values : MacroAgentState} (ready : Ready jobId values)
    (store : SQLiteJobStore) :
    Delivered (processedArtifact jobId) ⟨values.apply (deliveryUpdate values), .atEnd, store⟩ where
  completed := rfl
  referenced := by
    have same : (values.apply (deliveryUpdate values)).artifactRefs = [processedArtifact jobId] :=
      ready.referenced
    exact same ▸ List.mem_singleton_self _
  cited := by
    refine ⟨_, rfl, ?_⟩
    rw [ready.referenced]
    exact occursIn_evidence _ _

/-- From the router on, a completed job is delivered within the step limit. -/
private theorem ready_ends {jobId : String} (ready : Ready jobId thread.values)
    {review : Option Dict} (executing : thread.position = .executing .assembleContext review)
    (succeeded : thread.store.statusOf jobId = some .succeeded) :
    Ends host threadId (StaysSucceeded threadId)
      (Concluded (thread.values.steps + 1 < stepLimit) (processedArtifact jobId))
      history thread := by
  refine Ends.assemble executing (staysSucceeded_possible ready.active succeeded) ?_
  intro store clock allowed
  by_cases within : thread.values.steps + 1 < stepLimit
  · have routed := ready.assembled.routed (by simpa using within)
    rw [Thread.proceed_routed routed]
    refine Ends.deliver rfl (not_rejected ready.assembled.passed)
      (staysSucceeded_possible ready.assembled.active (allowed.status ready.active)) ?_
    intro later reading _
    refine ⟨fun _ => ⟨ready.assembled.delivers later, ?_⟩, fun beyond => absurd within beyond⟩
    simp [finalizes]
  · have routed : decideNextAction (thread.values.apply (assembleContextNode thread.values)) =
        .maxStepsHit := decideNextAction_of_limit (by simpa using within)
    rw [Thread.proceed_routed routed]
    exact Ends.settled (Thread.settled_atEnd _ _)
      ⟨fun below => absurd below within, fun _ => ready.assembled.running⟩

theorem Thread.advance_completes {jobId : String} {job : JobRecord} {result : JobResult}
    {store : SQLiteJobStore} (latest : thread.values.activeJobIds.getLast? = some jobId)
    (found : store.getJob jobId = some job) (succeeded : job.status = .succeeded)
    (produced : job.result = some result) (review : Option Dict) (clock : Nat) :
    thread.advance host .pollJobStatus review store clock =
      ⟨thread.values.apply (completedUpdate thread.values jobId result),
        .executing .assembleContext none, store⟩ := by
  have leads : successor .pollJobStatus
      (thread.values.apply (completedUpdate thread.values jobId result)) =
        some .assembleContext := rfl
  rw [← Thread.proceed_to leads]
  simp [Thread.advance, Node.execute, pollJobStatusNode, latest, found, succeeded, produced]

/-- A poll notices the completion, and the router delivers it. -/
private theorem poll_ends (thread : Thread) {jobId : String} (polling : Polling thread.values)
    (active : thread.values.activeJobIds = [jobId])
    (unrecorded : thread.values.completedJobResults = [])
    (unreferenced : thread.values.artifactRefs = []) (processed : thread.store.Processed)
    {review : Option Dict} (executing : thread.position = .executing .pollJobStatus review)
    (succeeded : thread.store.statusOf jobId = some .succeeded) :
    Ends host threadId (StaysSucceeded threadId)
      (Concluded (thread.values.steps + 2 < stepLimit) (processedArtifact jobId))
      history thread := by
  refine Ends.node executing (staysSucceeded_possible active succeeded) ?_
  intro store clock stays
  obtain ⟨job, found, status⟩ := Option.map_eq_some_iff.mp (stays.status active)
  have produced := StoreActivity.processed stays.1 processed jobId job found status
  have latest : thread.values.activeJobIds.getLast? = some jobId := by
    rw [active]
    rfl
  rw [Thread.advance_completes latest found status produced]
  have ready : Ready jobId (thread.values.apply
      (completedUpdate thread.values jobId (processedResult jobId))) := by
    refine ⟨rfl, polling.planned, polling.passed, active, ?_, ?_⟩
    · simp only [MacroAgentState.apply, completedUpdate, reduced, unrecorded]
      exact reduceArtifactRefs_first _
    · simp only [MacroAgentState.apply, completedUpdate, reduced, unreferenced]
      exact reduceArtifactRefs_first _
  refine (ready_ends ready rfl (stays.status active)).mono ?_
  intro later final concluded
  have steps : (thread.values.apply
      (completedUpdate thread.values jobId (processedResult jobId))).steps =
        thread.values.steps + 1 := MacroAgentState.steps_apply _ rfl
  simpa only [steps] using concluded

/-- From the router on, a job whose completion is not yet recorded is polled
once, and then delivered within the step limit. -/
theorem unrecorded_ends (thread : Thread) {jobId : String} (polling : Polling thread.values)
    (active : thread.values.activeJobIds = [jobId])
    (unrecorded : thread.values.completedJobResults = [])
    (unreferenced : thread.values.artifactRefs = []) (processed : thread.store.Processed)
    {review : Option Dict} (executing : thread.position = .executing .assembleContext review)
    (succeeded : thread.store.statusOf jobId = some .succeeded) :
    Ends host threadId (StaysSucceeded threadId)
      (Concluded (thread.values.steps + 3 < stepLimit) (processedArtifact jobId))
      history thread := by
  refine Ends.assemble executing (staysSucceeded_possible active succeeded) ?_
  intro store clock allowed
  by_cases within : thread.values.steps + 1 < stepLimit
  · have routed := polling.assembled.routed (by simpa using within)
    rw [Thread.proceed_routed routed]
    let polled : Thread := ⟨thread.values.apply (assembleContextNode thread.values),
      .executing .pollJobStatus none, store⟩
    refine (poll_ends polled polling.assembled active unrecorded unreferenced
      (StoreActivity.processed allowed.1 processed) rfl (allowed.status active)).mono ?_
    intro later final concluded
    simpa only [polled, assembled_steps] using concluded
  · have routed : decideNextAction (thread.values.apply (assembleContextNode thread.values)) =
        .maxStepsHit := decideNextAction_of_limit (by simpa using within)
    rw [Thread.proceed_routed routed]
    exact Ends.settled (Thread.settled_atEnd _ _)
      ⟨fun below => absurd below (by omega), fun _ => polling.assembled.running⟩

private theorem delivery_ends (booked : Booked threadId thread) (settled : thread.Settled)
    {jobId runId query : String}
    (submitted : thread.values.activeJobIds.getLast? = some jobId)
    (succeeded : thread.store.statusOf jobId = some .succeeded)
    (unmarked : host.isMarked query = false) (indirect : host.asksDirectly query = false) :
    CallEnds host threadId (StaysSucceeded threadId)
      (fun _ final => Delivered (processedArtifact jobId) final ↔
        thread.values.steps + (if jobId ∈ thread.values.completedJobIds then 2 else 4) <
          stepLimit)
      thread (.runWorkflow runId query) := by
  have planned : (opened host thread.values threadId runId query).answersDirectly = false := by
    rw [opened_direct, indirect]
  have passed : heldBack (opened host thread.values threadId runId query).approvalStatus =
      false := by
    rw [opened_unmarked thread.values unmarked]
    decide
  cases booked.accounts with
  | idle noJob => simp [noJob] at submitted
  | pending other active unrecorded unreferenced =>
      obtain rfl : other = jobId := by simpa [active] using submitted
      refine CallEnds.run settled (staysSucceeded_possible active succeeded) ?_
      intro store clock allowed
      have unfinished : other ∉ thread.values.completedJobIds := by
        simp [MacroAgentState.completedJobIds, unrecorded]
      have polling : Polling (opened host thread.values threadId runId query) :=
        Polling.opened thread.values unmarked indirect ⟨other, submitted, unfinished⟩
      have processed := StoreActivity.processed allowed.1 booked.processed
      let parsed : Thread := ⟨opened host thread.values threadId runId query,
        .executing .assembleContext none, store⟩
      refine (unrecorded_ends parsed polling active unrecorded unreferenced processed rfl
        (allowed.status active)).mono ?_
      intro later final concluded
      simpa [parsed, unfinished] using concluded.delivered_iff
  | delivered other active recorded referenced =>
      obtain rfl : other = jobId := by simpa [active] using submitted
      refine CallEnds.run settled (staysSucceeded_possible active succeeded) ?_
      intro store clock allowed
      have finished : other ∈ thread.values.completedJobIds := by
        simp [MacroAgentState.completedJobIds, recorded]
      have ready : Ready other (opened host thread.values threadId runId query) :=
        ⟨rfl, planned, passed, active, recorded, referenced⟩
      refine (ready_ends ready rfl (allowed.status active)).mono ?_
      intro later final concluded
      simpa [finished] using concluded.delivered_iff

/-- The next run call delivers a finished job exactly if the thread has enough
steps left below the router's limit: two for routing to `finalize`, and two more
if the completion has still to be noticed by a poll. -/
theorem delivered_iff_within_limit
    (run : Run (Thread.step host threadId) Thread.initial history thread)
    (regular : ∀ transition ∈ history, Regular threadId transition)
    (settled : thread.Settled) (runId : String) {jobId query : String} {job : JobRecord}
    (submitted : thread.values.activeJobIds.getLast? = some jobId)
    (found : thread.store.getJob jobId = some job) (succeeded : job.status = .succeeded)
    (unmarked : host.isMarked query = false) (indirect : host.asksDirectly query = false) :
    ∃ result, job.result = some result ∧
      CallEnds host threadId (StaysSucceeded threadId)
        (fun _ final => Delivered result.artifactRef final ↔
          thread.values.steps + (if jobId ∈ thread.values.completedJobIds then 2 else 4) <
            stepLimit)
        thread (.runWorkflow runId query) := by
  have booked := run_booked run regular
  have status : thread.store.statusOf jobId = some .succeeded := by
    rw [SQLiteJobStore.statusOf_of_getJob found, succeeded]
  exact ⟨processedResult jobId, booked.processed jobId job found succeeded,
    delivery_ends booked settled submitted status unmarked indirect⟩

end Delivery

/-- What is looked at in a thread whose only job has succeeded unnoticed. -/
private def unnoticed (thread : Thread) (jobId : String) :
    Bool × List String × List String × Option JobStatus × Nat :=
  (decide thread.Settled, thread.values.activeJobIds, thread.values.completedJobIds,
    thread.store.statusOf jobId, thread.values.steps)

private theorem unnoticed_facts {thread : Thread} {jobId : String} {steps : Nat}
    (observed : unnoticed thread jobId = (true, [jobId], [], some .succeeded, steps)) :
    thread.Settled ∧ thread.values.activeJobIds.getLast? = some jobId ∧
      jobId ∉ thread.values.completedJobIds ∧
      thread.store.statusOf jobId = some .succeeded ∧ thread.values.steps = steps := by
  obtain ⟨settled, rest⟩ := Prod.mk.inj observed
  obtain ⟨active, rest⟩ := Prod.mk.inj rest
  obtain ⟨completed, rest⟩ := Prod.mk.inj rest
  obtain ⟨status, steps⟩ := Prod.mk.inj rest
  exact ⟨of_decide_eq_true settled, by simp [active], by simp [completed], status, steps⟩

/-- The worker finishes the job that a first run call has submitted. -/
theorem delivered_within_limit_after_first_run :
    ∃ history thread job result, Run (Thread.step Host.ascii "t") Thread.initial history thread ∧
      thread.store.getJob (jobIdAt 5) = some job ∧ job.result = some result ∧
      CallEnds Host.ascii "t" (StaysSucceeded "t")
        (fun _ final => Delivered result.artifactRef final) thread
        (.runWorkflow "r2" "Resume placeholder") := by
  obtain ⟨history, thread, run, regular, observed⟩ :=
    scenario_observed Host.ascii "t"
      [.runWorkflow "r1" "Analyze CPI", .node 0, .node 0, .node 5, .succeed (jobIdAt 5)]
      (fun outcome => unnoticed outcome.2 (jobIdAt 5))
      (true, [jobIdAt 5], [], some .succeeded, 3) (by decide +kernel)
  obtain ⟨settled, submitted, unrecorded, status, steps⟩ := unnoticed_facts observed
  obtain ⟨job, found, succeeded⟩ := Option.map_eq_some_iff.mp status
  have unmarked : Host.ascii.isMarked "Resume placeholder" = false := by decide +kernel
  have indirect : Host.ascii.asksDirectly "Resume placeholder" = false := by decide +kernel
  obtain ⟨result, produced, ends⟩ := delivered_iff_within_limit run regular settled "r2"
    submitted found succeeded unmarked indirect
  refine ⟨history, thread, job, result, run, found, produced, ends.mono ?_⟩
  intro later final delivered
  apply delivered.mpr
  rw [if_neg unrecorded, steps]
  decide

/-- Eight rounds of edits, and an approval at step 18: the job of the approved
plan succeeds, and the router's limit is met before it is delivered. -/
theorem delivered_fails_after_edits :
    ∃ history thread job result, Run (Thread.step Host.ascii "t") Thread.initial history thread ∧
      (∀ transition ∈ history, Regular "t" transition) ∧ thread.Settled ∧
      thread.values.activeJobIds.getLast? = some (jobIdAt 5) ∧
      thread.store.getJob (jobIdAt 5) = some job ∧ job.status = .succeeded ∧
      job.result = some result ∧
      ¬ CallEnds Host.ascii "t" (StaysSucceeded "t")
        (fun _ final => Delivered result.artifactRef final) thread
        (.runWorkflow "r2" "Resume placeholder") := by
  obtain ⟨history, thread, run, regular, observed⟩ :=
    scenario_observed Host.ascii "t"
      ([.runWorkflow "r1" "Diagnose CPI trends", .node 0, .node 0, .node 0] ++
        (List.replicate 8 [.resumeWorkflow [("action", .str "edited")], .node 0, .node 0,
          .node 0]).flatten ++
        [.resumeWorkflow [("action", .str "approved"),
          ("updated_plan", .dict forecast)],
          .node 0, .node 0, .node 5, .succeed (jobIdAt 5)])
      (fun outcome => unnoticed outcome.2 (jobIdAt 5))
      (true, [jobIdAt 5], [], some .succeeded, 21) (by decide +kernel)
  obtain ⟨settled, submitted, unrecorded, status, steps⟩ := unnoticed_facts observed
  obtain ⟨job, found, succeeded⟩ := Option.map_eq_some_iff.mp status
  have booked := run_booked run regular
  have produced := booked.processed (jobIdAt 5) job found succeeded
  refine ⟨history, thread, job, processedResult (jobIdAt 5), run, regular, settled, submitted,
    found, succeeded, produced, ?_⟩
  intro delivers
  have limited : CallEnds Host.ascii "t" (StaysSucceeded "t") _ thread
      (.runWorkflow "r2" "Resume placeholder") :=
    delivery_ends booked settled submitted status (by decide +kernel) (by decide +kernel)
  obtain ⟨later, final, exactly, delivered⟩ := limited.agree delivers
  have within := exactly.mp delivered
  rw [if_neg unrecorded, steps] at within
  exact absurd within (by decide)

end DurableAgent.Graph
