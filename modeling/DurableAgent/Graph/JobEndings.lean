import DurableAgent.Graph.Delivery

/-!
# The end of a job and the end of its workflow

A run call that polls a job whose record has reached a terminal status. The
poll names two of the three; a cancelled job is polled like one in progress.
-/

set_option autoImplicit false

namespace DurableAgent.Jobs

def JobStatus.isTerminal : JobStatus → Bool
  | .succeeded | .failed | .cancelled => true
  | .queued | .running | .cancelRequested => false

end DurableAgent.Jobs

namespace DurableAgent.Graph

open Capability Jobs Library Python

/-- Other parties act regularly and leave the thread's jobs at a status. -/
def StaysAt (status : JobStatus) (threadId : String) (thread : Thread) (store : SQLiteJobStore) :
    Prop :=
  StoreActivity (Foreign threadId) thread.store store ∧
    ∀ jobId ∈ thread.values.activeJobIds, store.statusOf jobId = some status

/-- The call executes `finalize` and leaves the workflow neither running nor
waiting. -/
structure EndsWorkflow (history : List ThreadTransition) (final : Thread) : Prop where
  finalized : history.any finalizes = true
  stopped : final.values.status ≠ some .running ∧ final.values.status ≠ some .waitingForJob

section Endings

variable {host : Host} {threadId jobId runId query : String} {thread : Thread}
  {history : List ThreadTransition} {status : JobStatus}

theorem staysAt_possible (stays : ∀ jobId ∈ thread.values.activeJobIds,
    thread.store.statusOf jobId = some status) : ∃ store, StaysAt status threadId thread store :=
  ⟨thread.store, .refl, stays⟩

theorem not_endsWorkflow_of_running {final : Thread}
    (running : final.values.status = some .running) : ¬ EndsWorkflow history final :=
  fun ends => ends.stopped.1 running

theorem endsWorkflow_of_completed {final : Thread} (finalized : history.any finalizes = true)
    (completed : final.values.status = some .completed) : EndsWorkflow history final :=
  ⟨finalized, by simp [completed]⟩

private theorem cancelled_unfinished : LeaveUnfinished (StaysAt .cancelled threadId)
    fun thread => ∀ jobId ∈ thread.values.activeJobIds,
      thread.store.statusOf jobId = some .cancelled where
  possible _ holds := staysAt_possible holds
  inProgress thread store _ stays jobId latest job found := by
    have cancelled := stays.2 jobId (List.mem_of_getLast? latest)
    rw [SQLiteJobStore.statusOf_of_getJob found] at cancelled
    simp [Option.some.inj cancelled]
  kept thread store values position _ stays same jobId member := by
    dsimp only at member
    rw [same] at member
    exact stays.2 jobId member

private theorem cancelled_ends (polling : Polling thread.values) {review : Option Dict}
    (executing : thread.position = .executing .assembleContext review)
    (cancelled : ∀ jobId ∈ thread.values.activeJobIds,
      thread.store.statusOf jobId = some .cancelled) :
    Ends host threadId (StaysAt .cancelled threadId)
      (fun later final => ¬ EndsWorkflow later final) history thread := by
  refine (polling.ends cancelled_unfinished stepLimit executing cancelled (by omega)).mono ?_
  intro later final reached
  exact not_endsWorkflow_of_running reached.1

theorem Thread.advance_fails {job : JobRecord} {store : SQLiteJobStore}
    (latest : thread.values.activeJobIds.getLast? = some jobId)
    (found : store.getJob jobId = some job) (failed : job.status = .failed)
    (review : Option Dict) (clock : Nat) :
    thread.advance host .pollJobStatus review store clock =
      ⟨thread.values.apply (failedUpdate thread.values jobId job.error),
        .executing .finalize none, store⟩ := by
  have leads : successor .pollJobStatus
      (thread.values.apply (failedUpdate thread.values jobId job.error)) = some .finalize := rfl
  rw [← Thread.proceed_to leads]
  simp [Thread.advance, Node.execute, pollJobStatusNode, latest, found, failed]

private theorem failed_poll_ends (polling : Polling thread.values) {review : Option Dict}
    (executing : thread.position = .executing .pollJobStatus review)
    (failed : ∀ jobId ∈ thread.values.activeJobIds,
      thread.store.statusOf jobId = some .failed) :
    Ends host threadId (StaysAt .failed threadId) EndsWorkflow history thread := by
  obtain ⟨jobId, latest, _⟩ := polling.pending
  refine Ends.node executing (staysAt_possible failed) ?_
  intro store clock stays
  obtain ⟨job, found, status⟩ :=
    Option.map_eq_some_iff.mp (stays.2 jobId (List.mem_of_getLast? latest))
  rw [Thread.advance_fails latest found status]
  refine Ends.deliver rfl (not_rejected polling.passed) (staysAt_possible stays.2) ?_
  intro last reading _
  exact endsWorkflow_of_completed (by simp [finalizes]) rfl

private theorem failed_ends (polling : Polling thread.values) {review : Option Dict}
    (executing : thread.position = .executing .assembleContext review)
    (within : thread.values.steps + 1 < stepLimit)
    (failed : ∀ jobId ∈ thread.values.activeJobIds,
      thread.store.statusOf jobId = some .failed) :
    Ends host threadId (StaysAt .failed threadId) EndsWorkflow history thread := by
  refine Ends.assemble executing (staysAt_possible failed) ?_
  intro store clock allowed
  rw [Thread.proceed_routed (polling.assembled.routed (by simpa using within))]
  exact failed_poll_ends polling.assembled rfl allowed.2

private theorem terminal_call_ends (booked : Booked threadId thread)
    (settled : thread.Settled) {job : JobRecord}
    (submitted : jobId ∈ thread.values.activeJobIds)
    (unrecorded : jobId ∉ thread.values.completedJobIds)
    (found : thread.store.getJob jobId = some job) (terminal : job.status.isTerminal = true)
    (unmarked : host.isMarked query = false) (indirect : host.asksDirectly query = false)
    (routed : thread.values.steps + 2 < stepLimit) :
    CallEnds host threadId (StaysAt job.status threadId)
      (fun call final => EndsWorkflow call final ↔ job.status = .failed ∨
        job.status = .succeeded ∧ thread.values.steps + 4 < stepLimit)
      thread (.runWorkflow runId query) := by
  have recorded : thread.store.statusOf jobId = some job.status :=
    SQLiteJobStore.statusOf_of_getJob found
  cases booked.accounts with
  | idle noJob => simp [noJob] at submitted
  | delivered other active finished =>
      obtain rfl : jobId = other := by simpa [active] using submitted
      simp [MacroAgentState.completedJobIds, finished] at unrecorded
  | pending other active noResult noArtifact =>
      obtain rfl : jobId = other := by simpa [active] using submitted
      have stays : ∀ other ∈ thread.values.activeJobIds,
          thread.store.statusOf other = some job.status := by
        intro other member
        rw [active] at member
        exact List.mem_singleton.mp member ▸ recorded
      have polling : Polling (opened host thread.values threadId runId query) :=
        Polling.opened thread.values unmarked indirect ⟨jobId, by simp [active], unrecorded⟩
      refine CallEnds.run settled (staysAt_possible stays) ?_
      intro store clock allowed
      cases status : job.status with
      | succeeded =>
          rw [status] at allowed
          refine (unrecorded_ends ⟨opened host thread.values threadId runId query, _, store⟩
            polling active noResult noArtifact (StoreActivity.processed allowed.1 booked.processed)
            rfl (allowed.2 jobId submitted)).mono ?_
          intro later final concluded
          have steps : (opened host thread.values threadId runId query).steps + 3 =
              thread.values.steps + 4 := by rw [opened_steps]
          by_cases within : thread.values.steps + 4 < stepLimit
          · obtain ⟨delivered, finalized⟩ := concluded.delivers (steps ▸ within)
            exact iff_of_true (endsWorkflow_of_completed finalized delivered.completed)
              (.inr ⟨rfl, within⟩)
          · exact iff_of_false (not_endsWorkflow_of_running (concluded.cutOff (steps ▸ within)))
              (by simp [within])
      | failed =>
          rw [status] at allowed
          have below : (opened host thread.values threadId runId query).steps + 1 < stepLimit := by
            rw [opened_steps]
            exact routed
          refine (failed_ends polling rfl below allowed.2).mono ?_
          intro later final ends
          exact iff_of_true ends (.inl rfl)
      | cancelled =>
          rw [status] at allowed
          refine (cancelled_ends polling rfl allowed.2).mono ?_
          intro later final unended
          exact iff_of_false unended (by simp)
      | queued | running | cancelRequested => simp [status, JobStatus.isTerminal] at terminal

/-- For a thread with an unfinished job whose record is terminal, a run call that
routes to polling ends the workflow exactly if the job has failed, or it has
succeeded and the limit leaves the steps to deliver it. -/
theorem endsWorkflow_iff (run : Run (Thread.step host threadId) Thread.initial history thread)
    (regular : ∀ transition ∈ history, Regular threadId transition)
    (settled : thread.Settled) (runId : String) {job : JobRecord}
    (submitted : jobId ∈ thread.values.activeJobIds)
    (unrecorded : jobId ∉ thread.values.completedJobIds)
    (found : thread.store.getJob jobId = some job) (terminal : job.status.isTerminal = true)
    (unmarked : host.isMarked query = false) (indirect : host.asksDirectly query = false)
    (routed : thread.values.steps + 2 < stepLimit) :
    CallEnds host threadId (StaysAt job.status threadId)
      (fun call final => EndsWorkflow call final ↔ job.status = .failed ∨
        job.status = .succeeded ∧ thread.values.steps + 4 < stepLimit)
      thread (.runWorkflow runId query) :=
  terminal_call_ends (run_booked run regular) settled submitted unrecorded found terminal
    unmarked indirect routed

end Endings

/-- A first request has submitted a job, and its record has reached a status. -/
private theorem submitted_reaching (status : JobStatus) (unsuccessful : status ≠ .succeeded) :
    ∃ history thread job, Run (Thread.step Host.ascii "t") Thread.initial history thread ∧
      (∀ transition ∈ history, Regular "t" transition) ∧ thread.Settled ∧
      jobIdAt 5 ∈ thread.values.activeJobIds ∧ jobIdAt 5 ∉ thread.values.completedJobIds ∧
      thread.store.getJob (jobIdAt 5) = some job ∧ job.status = status ∧
      thread.values.steps = 3 := by
  obtain ⟨history, thread, run, regular, observed⟩ :=
    scenario_observed Host.ascii "t" [.runWorkflow "r" "Analyze CPI", .node 0, .node 0, .node 5]
      (fun outcome => (decide outcome.2.Settled, outcome.2.values.activeJobIds,
        outcome.2.values.completedJobIds, (outcome.2.store.getJob (jobIdAt 5)).isSome,
        outcome.2.values.steps))
      (true, [jobIdAt 5], [], true, 3) (by decide +kernel)
  obtain ⟨ends, rest⟩ := Prod.mk.inj observed
  obtain ⟨active, rest⟩ := Prod.mk.inj rest
  obtain ⟨completed, rest⟩ := Prod.mk.inj rest
  obtain ⟨known, steps⟩ := Prod.mk.inj rest
  obtain ⟨job, found⟩ := Option.isSome_iff_exists.mp known
  have settled : thread.Settled := of_decide_eq_true ends
  let changed := (thread.store.updateJobStatus (jobIdAt 5) status none none).2
  have stepped : thread.step Host.ascii "t" (.others changed) =
      some { thread with store := changed } := by
    simp only [Thread.step]
    split
    · next node review executing => exact absurd executing (settled node review)
    · rfl
  refine ⟨_, { thread with store := changed }, job.transition status none none,
    run.snoc stepped, ?_, settled, active ▸ List.mem_singleton_self _, ?_, ?_, rfl, steps⟩
  · intro transition member
    rcases List.mem_append.mp member with earlier | latest
    · exact regular transition earlier
    · intro store left
      rw [List.mem_singleton.mp latest] at left ⊢
      cases left
      exact .single (.updateJobStatus _ _ _ unsuccessful)
  · exact completed ▸ List.not_mem_nil
  · simp only [changed, SQLiteJobStore.updateJobStatus, SQLiteJobStore.getJob_mutate, found]
    rfl

/-- The job has failed: the call finalizes, and is not left running. -/
theorem endsWorkflow_on_failed_job :
    ∃ history thread, Run (Thread.step Host.ascii "t") Thread.initial history thread ∧
      CallEnds Host.ascii "t" (StaysAt .failed "t") EndsWorkflow thread
        (.runWorkflow "r" "status?") := by
  obtain ⟨history, thread, job, run, regular, settled, submitted, unrecorded, found, status,
    steps⟩ := submitted_reaching .failed (by decide)
  refine ⟨history, thread, run, ?_⟩
  have ends := endsWorkflow_iff run regular settled "r" submitted unrecorded found
    (by rw [status]; rfl) (by decide +kernel : Host.ascii.isMarked "status?" = false)
    (by decide +kernel) (by rw [steps]; decide)
  rw [status] at ends
  exact ends.mono fun _ _ exactly => exactly.mpr (.inl rfl)

/-- The job has been cancelled: the call polls it until the step limit. -/
theorem endsWorkflow_fails_on_cancelled_job :
    ∃ history thread job, Run (Thread.step Host.ascii "t") Thread.initial history thread ∧
      (∀ transition ∈ history, Regular "t" transition) ∧ thread.Settled ∧
      jobIdAt 5 ∈ thread.values.activeJobIds ∧ jobIdAt 5 ∉ thread.values.completedJobIds ∧
      thread.store.getJob (jobIdAt 5) = some job ∧ job.status = .cancelled ∧
      thread.values.steps + 4 < stepLimit ∧
      ¬ CallEnds Host.ascii "t" (StaysAt .cancelled "t") EndsWorkflow thread
        (.runWorkflow "r" "status?") := by
  obtain ⟨history, thread, job, run, regular, settled, submitted, unrecorded, found, status,
    steps⟩ := submitted_reaching .cancelled (by decide)
  refine ⟨history, thread, job, run, regular, settled, submitted, unrecorded, found, status,
    by rw [steps]; decide, ?_⟩
  intro ends
  have call : CallEnds Host.ascii "t" (StaysAt job.status "t") _ thread
      (.runWorkflow "r" "status?") :=
    terminal_call_ends (run_booked run regular) settled submitted unrecorded found
      (by rw [status]; rfl) (by decide +kernel) (by decide +kernel) (by rw [steps]; decide)
  rw [status] at call
  obtain ⟨later, final, exactly, ended⟩ := call.agree ends
  simpa using exactly.mp ended

end DurableAgent.Graph
