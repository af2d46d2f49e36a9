import DurableAgent.Graph.Calls

/-!
# After job activity

What becomes of a call after its job has failed or is still in progress. A
failure is routed to `finalize`, which overwrites the status; a job in progress
changes no status, and a run call has none that would pause it.
-/

set_option autoImplicit false

namespace DurableAgent.Graph

open Capability Jobs Library Python

/-- The policy gate denies the submission, or the poll finds a failed job. -/
def observesFailure (host : Host) (transition : ThreadTransition) : Bool :=
  match transition.source.position, transition.label with
  | .executing .submitMcpJob _, .node _ _ =>
      match assess host.registry transition.source.values.plan with
      | .denied _ => true
      | _ => false
  | .executing .pollJobStatus _, .node store _ =>
      match transition.source.values.activeJobIds.getLast? with
      | some jobId => decide (store.statusOf jobId = some .failed)
      | none => false
  | _, _ => false

def ClaimsSuccess (values : MacroAgentState) : Prop :=
  ∃ answer, values.finalAnswer = some answer ∧ occursIn "Successfully compiled" answer = true

/-- A call that is to report its failure. -/
def ReportsFailure (thread : Thread) : Prop :=
  thread.values.status = some .failed ∧ ¬ ClaimsSuccess thread.values

section Failure

variable {host : Host} {threadId : String} {history : List ThreadTransition} {thread next : Thread}

theorem occursIn_compiledSummary (query evidence : String) :
    occursIn "Successfully compiled" (compiledSummary query ++ evidence) = true := by
  unfold occursIn compiledSummary
  rw [decide_eq_true_iff]
  have head : "Successfully compiled macro report for query '" =
      "Successfully compiled" ++ " macro report for query '" := by decide
  rw [head]
  simp only [String.toList_append, List.append_assoc]
  exact (List.prefix_append _ _).isInfix

theorem Thread.advance_delivers (accepted : thread.values.approvalStatus ≠ .str "rejected")
    (review : Option Dict) (store : SQLiteJobStore) (clock : Nat) :
    thread.advance host .finalize review store clock =
      ⟨thread.values.apply (deliveryUpdate thread.values), .atEnd, store⟩ := by
  have accepts := Value.isStr_eq_false_iff.mpr accepted
  simp [Thread.advance, Node.execute, finalizeNode, accepts, Thread.proceed, successor]

/-- `finalize` reports a success whenever the plan was not rejected. -/
theorem Ends.deliver {allowed : Thread → SQLiteJobStore → Prop} {review : Option Dict}
    {goal : List ThreadTransition → Thread → Prop}
    (executing : thread.position = .executing .finalize review)
    (accepted : thread.values.approvalStatus ≠ .str "rejected")
    (possible : ∃ store, allowed thread store)
    (reached : ∀ store clock, allowed thread store →
      goal
        (history ++ [⟨thread, .node store clock,
          ⟨thread.values.apply (deliveryUpdate thread.values), .atEnd, store⟩⟩])
        ⟨thread.values.apply (deliveryUpdate thread.values), .atEnd, store⟩) :
    Ends host threadId allowed goal history thread := by
  refine Ends.node executing possible ?_
  intro store clock allows
  rw [Thread.advance_delivers accepted]
  exact Ends.settled (Thread.settled_atEnd _ _) (reached store clock allows)

theorem observesFailure_next {action : ThreadAction}
    (stepped : thread.step host threadId action = some next)
    (fails : observesFailure host ⟨thread, action, next⟩ = true) :
    next.position = .executing .finalize none ∧ next.values.status = some .failed ∧
      next.values.approvalStatus = thread.values.approvalStatus ∧
      next.values.artifactRefs = thread.values.artifactRefs := by
  unfold observesFailure at fails
  dsimp only at fails
  split at fails
  · next review store clock executing =>
      rw [Thread.step_node executing] at stepped
      cases stepped
      split at fails
      · next message denied =>
          simp only [Thread.advance, Node.execute, submitMcpJobNode, denied]
          exact ⟨rfl, rfl, rfl, rfl⟩
      · cases fails
  · next review store clock executing =>
      rw [Thread.step_node executing] at stepped
      cases stepped
      split at fails
      · next jobId target =>
          obtain ⟨job, found, failed⟩ := Option.map_eq_some_iff.mp (of_decide_eq_true fails)
          simp only [Thread.advance, Node.execute, pollJobStatusNode, target, found, failed]
          exact ⟨rfl, rfl, rfl, rfl⟩
      · cases fails
  · cases fails

theorem observesFailure_routed (controlled : Controlled threadId thread) {action : ThreadAction}
    (fails : observesFailure host ⟨thread, action, next⟩ = true) :
    heldBack thread.values.approvalStatus = false := by
  unfold observesFailure at fails
  dsimp only at fails
  split at fails
  · next executing =>
      have routed := controlled.routed _ _ _ executing rfl
      exact (decideNextAction_submitMcpJob_iff.mp routed).2.1
  · next executing =>
      have routed := controlled.routed _ _ _ executing rfl
      exact (decideNextAction_pollJobStatus_iff.mp routed).2.1
  · cases fails

/-- The call that observed a failure ends with the status `failed` and claims
no success. -/
def FailureReported (host : Host) (threadId : String) (transition : ThreadTransition) : Prop :=
  Ends host threadId (fun _ _ => True) (fun _ final => ReportsFailure final) [transition]
    transition.target

private theorem failure_delivers (controlled : Controlled threadId thread)
    {action : ThreadAction} (stepped : thread.step host threadId action = some next)
    (fails : observesFailure host ⟨thread, action, next⟩ = true) :
    Ends host threadId (fun _ _ => True)
      (fun _ final => final.values.status = some .completed ∧ ClaimsSuccess final.values)
      [⟨thread, action, next⟩] next := by
  obtain ⟨executing, _, sameApproval, _⟩ := observesFailure_next stepped fails
  have accepted := not_rejected (observesFailure_routed controlled fails)
  refine Ends.deliver executing (sameApproval ▸ accepted) ⟨next.store, trivial⟩ ?_
  intro store clock _
  exact ⟨rfl, _, rfl, occursIn_compiledSummary _ _⟩

private theorem not_reported_of_delivers {transition : ThreadTransition}
    (delivers : Ends host threadId (fun _ _ => True)
      (fun _ final => final.values.status = some .completed ∧ ClaimsSuccess final.values)
      [transition] transition.target) :
    ¬ FailureReported host threadId transition := by
  intro reported
  obtain ⟨_, final, delivered, failed⟩ := Settles.agree delivers reported
  exact failed.2 delivered.2

/-- In every reachable state, a call that observes a failure ends as completed
and claims success. -/
theorem failureReported_never
    (run : Run (Thread.step host threadId) Thread.initial history thread)
    {action : ThreadAction} (stepped : thread.step host threadId action = some next)
    (fails : observesFailure host ⟨thread, action, next⟩ = true) :
    ¬ FailureReported host threadId ⟨thread, action, next⟩ ∧
      Ends host threadId (fun _ _ => True)
        (fun _ final => final.values.status = some .completed ∧ ClaimsSuccess final.values)
        [⟨thread, action, next⟩] next := by
  have delivers := failure_delivers (run_controlled run) stepped fails
  exact ⟨not_reported_of_delivers delivers, delivers⟩

end Failure

/-- The approved draft plan names no registered capability. -/
theorem failureReported_never_on_denial :
    ∃ history transition, Run (Thread.step Host.ascii "t") Thread.initial history
        transition.source ∧ observesFailure Host.ascii transition = true ∧
      ¬ FailureReported Host.ascii "t" transition := by
  obtain ⟨history, thread, run, _, observed⟩ :=
    scenario_observed Host.ascii "t"
      [.runWorkflow "r" "Diagnose CPI trends", .node 0, .node 0, .node 0,
        .resumeWorkflow [("action", .str "approved")], .node 0, .node 0, .node 0]
      (fun outcome => outcome.1.any (observesFailure Host.ascii)) true (by decide +kernel)
  obtain ⟨transition, member, fails⟩ := List.any_eq_true.mp observed
  obtain ⟨earlier, later, rfl⟩ := List.append_of_mem member
  obtain ⟨before, stepped, _⟩ := run.around
  exact ⟨earlier, transition, before, fails, (failureReported_never before stepped fails).1⟩

/-- A poll finds the job of the thread failed, and the report is compiled. -/
theorem failureReported_fails_on_failed_job :
    ∃ history transition, Run (Thread.step Host.ascii "t") Thread.initial history
        transition.source ∧
      transition.source.step Host.ascii "t" transition.label = some transition.target ∧
      observesFailure Host.ascii transition = true ∧
      ¬ FailureReported Host.ascii "t" transition := by
  obtain ⟨history, thread, run, _, observed⟩ :=
    scenario_observed Host.ascii "t"
      [.runWorkflow "r" "Analyze CPI", .node 0, .node 0, .node 5, .fail (jobIdAt 5),
        .runWorkflow "r" "Analyze CPI", .node 0, .node 0, .node 0]
      (fun outcome => outcome.1.any (observesFailure Host.ascii)) true (by decide +kernel)
  obtain ⟨transition, member, fails⟩ := List.any_eq_true.mp observed
  obtain ⟨earlier, later, rfl⟩ := List.append_of_mem member
  obtain ⟨before, stepped, _⟩ := run.around
  exact ⟨earlier, transition, before, stepped, fails,
    not_reported_of_delivers (failure_delivers (run_controlled before) stepped fails)⟩

def finalizes (transition : ThreadTransition) : Bool :=
  match transition.source.position, transition.label with
  | .executing .finalize _, .node _ _ => true
  | _, _ => false

def polls (transition : ThreadTransition) : Bool :=
  match transition.source.position with
  | .executing .pollJobStatus _ => true
  | _ => false

/-- The call polls once and then waits for the job. -/
def PausesOnce (history : List ThreadTransition) (final : Thread) : Prop :=
  history.countP polls = 1 ∧ final.values.status = some .waitingForJob

/-- Other parties leave the thread's latest job queued or running. -/
def StaysPending (thread : Thread) (store : SQLiteJobStore) : Prop :=
  ∀ jobId, thread.values.activeJobIds.getLast? = some jobId →
    store.statusOf jobId = some .queued ∨ store.statusOf jobId = some .running

/-- The latest job of the thread has neither succeeded nor failed. -/
def LatestUnfinished (thread : Thread) (store : SQLiteJobStore) : Prop :=
  ∀ jobId, thread.values.activeJobIds.getLast? = some jobId →
    ∀ job, store.getJob jobId = some job → job.status ≠ .succeeded ∧ job.status ≠ .failed

/-- Other parties can act, and they leave the latest job unfinished, from every
thread of which some condition on its jobs holds. -/
structure LeaveUnfinished (allowed : Thread → SQLiteJobStore → Prop)
    (unfinished : Thread → Prop) : Prop where
  possible : ∀ thread, unfinished thread → ∃ store, allowed thread store
  inProgress : ∀ thread store, unfinished thread → allowed thread store →
    LatestUnfinished thread store
  kept : ∀ thread store values position, unfinished thread → allowed thread store →
    values.activeJobIds = thread.values.activeJobIds → unfinished ⟨values, position, store⟩

/-- A state from which the router polls the latest job. -/
structure Polling (values : MacroAgentState) : Prop where
  running : values.status = some .running
  planned : values.answersDirectly = false
  passed : heldBack values.approvalStatus = false
  pending : ∃ jobId, values.activeJobIds.getLast? = some jobId ∧ jobId ∉ values.completedJobIds

section Polling

variable {host : Host} {threadId : String} {history : List ThreadTransition} {thread : Thread}

theorem staysPending_possible (thread : Thread) : ∃ store, StaysPending thread store := by
  cases target : thread.values.activeJobIds.getLast? with
  | none => exact ⟨thread.store, fun jobId latest => by simp [target] at latest⟩
  | some jobId =>
      let record : JobRecord :=
        { jobId := jobId, jobType := "", idempotencyKey := "", status := .queued, payload := [] }
      refine ⟨⟨thread.store.db.insert record.jobId record⟩, ?_⟩
      intro other latest
      cases target.symm.trans latest
      left
      rw [SQLiteJobStore.statusOf_insert, if_pos rfl]

theorem Polling.routed {values : MacroAgentState} (polling : Polling values)
    (within : values.steps < stepLimit) : decideNextAction values = .pollJobStatus := by
  obtain ⟨jobId, latest, unfinished⟩ := polling.pending
  refine decideNextAction_pollJobStatus_iff.mpr
    ⟨⟨within, by simp [polling.running], polling.planned⟩, polling.passed, ?_⟩
  have active : jobId ∈ values.activeJobIds := List.mem_of_getLast? latest
  have pending : jobId ∈ values.pendingJobs := by
    simp [MacroAgentState.pendingJobs, active, unfinished]
  exact List.ne_nil_of_mem pending

theorem Polling.assembled {values : MacroAgentState} (polling : Polling values) :
    Polling (values.apply (assembleContextNode values)) :=
  ⟨polling.running, polling.planned, polling.passed, polling.pending⟩

theorem Polling.inProgress {values : MacroAgentState} (polling : Polling values)
    (jobId : String) : Polling (values.apply (inProgressUpdate values jobId)) :=
  ⟨polling.running, polling.planned, polling.passed, polling.pending⟩

/-- A poll of an unfinished job leads straight back to the router. -/
theorem Polling.advance (host : Host) (polling : Polling thread.values) {store : SQLiteJobStore}
    (unfinished : LatestUnfinished thread store) (review : Option Dict) (clock : Nat) :
    ∃ jobId, thread.advance host .pollJobStatus review store clock =
      ⟨thread.values.apply (inProgressUpdate thread.values jobId),
        .executing .assembleContext none, store⟩ := by
  obtain ⟨jobId, latest, _⟩ := polling.pending
  have unfailed : decideAfterJobActivity
      (thread.values.apply (inProgressUpdate thread.values jobId)) = .continue := by
    have running := (polling.inProgress jobId).running
    simp [decideAfterJobActivity, running]
  have leads : successor .pollJobStatus
      (thread.values.apply (inProgressUpdate thread.values jobId)) = some .assembleContext := by
    simp [successor, unfailed]
  refine ⟨jobId, ?_⟩
  rw [← Thread.proceed_to leads]
  cases found : store.getJob jobId with
  | none => simp [Thread.advance, Node.execute, pollJobStatusNode, latest, found]
  | some job =>
      obtain ⟨notSucceeded, notFailed⟩ := unfinished jobId latest job found
      cases status : job.status with
      | succeeded => exact absurd status notSucceeded
      | failed => exact absurd status notFailed
      | queued | running | cancelRequested | cancelled =>
          simp [Thread.advance, Node.execute, pollJobStatusNode, latest, found, status]

variable {allowed : Thread → SQLiteJobStore → Prop} {unfinished : Thread → Prop}

private theorem polling_stops (others : LeaveUnfinished allowed unfinished)
    (polling : Polling thread.values) {review : Option Dict}
    (executing : thread.position = .executing .assembleContext review)
    (holds : unfinished thread) (limit : stepLimit ≤ thread.values.steps + 1) :
    Ends host threadId allowed
      (fun later final => final.values.status = some .running ∧
        later.countP polls = history.countP polls) history thread := by
  refine Ends.assemble executing (others.possible thread holds) ?_
  intro store clock _
  have routed : decideNextAction (thread.values.apply (assembleContextNode thread.values)) =
      .maxStepsHit := decideNextAction_of_limit (by simpa using limit)
  rw [Thread.proceed_routed routed]
  refine Ends.settled (Thread.settled_atEnd _ _) ⟨polling.assembled.running, ?_⟩
  simp [List.countP_append, polls, executing]

/-- While the job is left unfinished, every second node polls from the router on,
until the step limit is met. -/
theorem Polling.ends (others : LeaveUnfinished allowed unfinished) (rounds : Nat)
    (polling : Polling thread.values) {review : Option Dict}
    (executing : thread.position = .executing .assembleContext review)
    (holds : unfinished thread) (remaining : stepLimit ≤ thread.values.steps + 1 + rounds) :
    Ends host threadId allowed
      (fun later final => final.values.status = some .running ∧
        later.countP polls = history.countP polls + (stepLimit - thread.values.steps) / 2)
      history thread := by
  induction rounds generalizing history thread review with
  | zero =>
      refine (polling_stops others polling executing holds remaining).mono ?_
      intro later final reached
      obtain ⟨running, counted⟩ := reached
      have none : (stepLimit - thread.values.steps) / 2 = 0 := by omega
      exact ⟨running, by rw [counted, none, Nat.add_zero]⟩
  | succ rounds ih =>
      by_cases limit : stepLimit ≤ thread.values.steps + 1
      · refine (polling_stops others polling executing holds limit).mono ?_
        intro later final reached
        obtain ⟨running, counted⟩ := reached
        have none : (stepLimit - thread.values.steps) / 2 = 0 := by omega
        exact ⟨running, by rw [counted, none, Nat.add_zero]⟩
      · refine Ends.assemble executing (others.possible thread holds) ?_
        intro store clock allows
        have routed := polling.assembled.routed (by simpa using limit)
        rw [Thread.proceed_routed routed]
        have held : unfinished ⟨thread.values.apply (assembleContextNode thread.values),
            NextAction.pollJobStatus.position, store⟩ :=
          others.kept thread store _ _ holds allows rfl
        refine Ends.node rfl (others.possible _ held) ?_
        intro found reading stays
        obtain ⟨jobId, outcome⟩ := Polling.advance host polling.assembled
          (others.inProgress _ _ held stays) none reading
        rw [outcome]
        have advanced : (((thread.values.apply (assembleContextNode thread.values)).apply
            (inProgressUpdate (thread.values.apply (assembleContextNode thread.values))
              jobId))).steps = thread.values.steps + 2 := by
          rw [MacroAgentState.steps_apply _ rfl, assembled_steps]
        let polled : Thread := ⟨(thread.values.apply (assembleContextNode thread.values)).apply
          (inProgressUpdate (thread.values.apply (assembleContextNode thread.values)) jobId),
          .executing .assembleContext none, found⟩
        have heldOn : unfinished polled := others.kept _ _ _ _ held stays rfl
        have pollingOn : Polling polled.values := polling.assembled.inProgress jobId
        refine (ih pollingOn rfl heldOn ?_).mono ?_
        · dsimp only [polled]
          omega
        · intro later final reached
          obtain ⟨running, counted⟩ := reached
          have rest : (stepLimit - thread.values.steps) / 2 =
              (stepLimit - (thread.values.steps + 2)) / 2 + 1 := by
            unfold stepLimit at limit ⊢
            omega
          refine ⟨running, ?_⟩
          rw [counted, advanced, rest]
          simp [List.countP_append, polls, executing]
          omega

private theorem staysPending_unfinished : LeaveUnfinished StaysPending fun _ => True where
  possible thread _ := staysPending_possible thread
  inProgress thread store _ stays jobId latest job found := by
    rcases stays jobId latest with queued | running
    · rw [SQLiteJobStore.statusOf_of_getJob found] at queued
      simp [Option.some.inj queued]
    · rw [SQLiteJobStore.statusOf_of_getJob found] at running
      simp [Option.some.inj running]
  kept _ _ _ _ _ _ _ := trivial

theorem Polling.opened {runId query : String} (values : MacroAgentState)
    (unmarked : host.isMarked query = false) (indirect : host.asksDirectly query = false)
    (pending : ∃ jobId, values.activeJobIds.getLast? = some jobId ∧
      jobId ∉ values.completedJobIds) :
    Polling (opened host values threadId runId query) where
  running := rfl
  planned := by rw [opened_direct, indirect]
  passed := by
    rw [opened_unmarked values unmarked]
    decide
  pending := pending

private theorem polls_to_limit (settled : thread.Settled) {runId query : String}
    (unmarked : host.isMarked query = false) (indirect : host.asksDirectly query = false)
    (pending : ∃ jobId, thread.values.activeJobIds.getLast? = some jobId ∧
      jobId ∉ thread.values.completedJobIds) :
    CallEnds host threadId StaysPending
      (fun history final => final.values.status = some .running ∧
        history.countP polls = (stepLimit - (thread.values.steps + 1)) / 2)
      thread (.runWorkflow runId query) := by
  refine CallEnds.run settled (staysPending_possible _) ?_
  intro store clock _
  have polling : Polling (Graph.opened host thread.values threadId runId query) :=
    Polling.opened thread.values unmarked indirect pending
  refine (polling.ends staysPending_unfinished stepLimit rfl trivial (by omega)).mono ?_
  intro history final ⟨running, counted⟩
  refine ⟨running, ?_⟩
  have idle : polls ⟨thread, .runWorkflow runId query, thread.begin threadId runId query⟩ =
      false := by
    unfold polls
    split
    · next review executing => exact absurd executing (settled _ review)
    · rfl
  have parsing : polls ⟨thread.begin threadId runId query, .node store clock,
      ⟨Graph.opened host thread.values threadId runId query, .executing .assembleContext none,
        store⟩⟩ = false := rfl
  rw [counted, opened_steps]
  simp [idle, parsing]

/-- A run call whose query routes to polling, on a thread with a pending job,
polls until the step limit ends the call; it never pauses. -/
theorem pausesOnce_never (settled : thread.Settled) {runId query : String}
    (unmarked : host.isMarked query = false) (indirect : host.asksDirectly query = false)
    (pending : ∃ jobId, thread.values.activeJobIds.getLast? = some jobId ∧
      jobId ∉ thread.values.completedJobIds) :
    CallEnds host threadId StaysPending
      (fun history final => ¬ PausesOnce history final ∧
        final.values.status = some .running ∧
        history.countP polls = (stepLimit - (thread.values.steps + 1)) / 2)
      thread (.runWorkflow runId query) := by
  refine (polls_to_limit settled unmarked indirect pending).mono ?_
  intro history final ⟨running, counted⟩
  refine ⟨?_, running, counted⟩
  intro ⟨_, waiting⟩
  simp [running] at waiting

end Polling

private theorem submitted_settled :
    ∃ history thread, Run (Thread.step Host.ascii "t") Thread.initial history thread ∧
      thread.Settled ∧ thread.values.activeJobIds = [jobIdAt 5] ∧
      thread.values.completedJobIds = [] ∧ thread.values.steps = 3 := by
  obtain ⟨history, thread, run, _, observed⟩ :=
    scenario_observed Host.ascii "t" [.runWorkflow "r" "Analyze CPI", .node 0, .node 0, .node 5]
      (fun outcome => (decide outcome.2.Settled, outcome.2.values.activeJobIds,
        outcome.2.values.completedJobIds, outcome.2.values.steps))
      (true, [jobIdAt 5], [], 3) (by decide +kernel)
  obtain ⟨settled, rest⟩ := Prod.mk.inj observed
  obtain ⟨active, rest⟩ := Prod.mk.inj rest
  obtain ⟨completed, steps⟩ := Prod.mk.inj rest
  exact ⟨history, thread, run, of_decide_eq_true settled, active, completed, steps⟩

theorem pausesOnce_never_after_submission :
    ∃ history thread, Run (Thread.step Host.ascii "t") Thread.initial history thread ∧
      CallEnds Host.ascii "t" StaysPending
        (fun history final => ¬ PausesOnce history final ∧
          final.values.status = some .running ∧ history.countP polls = 10)
        thread (.runWorkflow "r" "status?") := by
  obtain ⟨history, thread, run, settled, active, completed, steps⟩ := submitted_settled
  refine ⟨history, thread, run, CallEnds.mono ?_ (pausesOnce_never settled (by decide +kernel)
    (by decide +kernel) ⟨jobIdAt 5, by simp [active], by simp [completed]⟩)⟩
  intro later final ⟨never, running, counted⟩
  refine ⟨never, running, ?_⟩
  rw [counted, steps]
  rfl

/-- The job of the thread is queued and stays so; the call does not pause. -/
theorem pausesOnce_fails_on_queued_job :
    ∃ history thread, Run (Thread.step Host.ascii "t") Thread.initial history thread ∧
      thread.values.activeJobIds = [jobIdAt 5] ∧ thread.values.completedJobIds = [] ∧
      thread.values.steps + 2 < stepLimit ∧
      ¬ CallEnds Host.ascii "t" StaysPending PausesOnce thread (.runWorkflow "r" "status?") := by
  obtain ⟨history, thread, run, settled, active, completed, steps⟩ := submitted_settled
  have within : thread.values.steps + 2 < stepLimit := by
    rw [steps]
    decide
  refine ⟨history, thread, run, active, completed, within, ?_⟩
  intro pauses
  have toLimit : CallEnds Host.ascii "t" StaysPending _ thread (.runWorkflow "r" "status?") :=
    polls_to_limit settled (by decide +kernel) (by decide +kernel)
      ⟨jobIdAt 5, by simp [active], by simp [completed]⟩
  obtain ⟨later, final, ⟨running, _⟩, _, waiting⟩ := toLimit.agree pauses
  simp [running] at waiting

end DurableAgent.Graph
