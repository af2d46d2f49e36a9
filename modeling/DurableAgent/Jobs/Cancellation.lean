import DurableAgent.Jobs.Worker
import Mathlib.Data.List.Perm.Basic

/-!
# Cancellation requests

A withdrawn job stays withdrawn as long as the polling loop acknowledges no
cancellation whose job is still being executed: the execution itself then sees
the request at its checkpoint.
-/

set_option autoImplicit false

namespace DurableAgent.Jobs

open Library Python

/-- At most one execution of a job is in flight, and its job is running or
about to be cancelled. -/
structure InFlight (system : JobSystem) : Prop where
  indexed : system.store.Indexed
  single : (system.executions.map (·.jobId)).Nodup
  active : ∀ execution ∈ system.executions,
    system.store.statusOf execution.jobId = some .running ∨
      system.store.statusOf execution.jobId = some .cancelRequested

def Withdrawn (jobId : String) (system : JobSystem) : Prop :=
  system.store.statusOf jobId = some .cancelRequested ∨
    system.store.statusOf jobId = some .cancelled

/-- Once a cancellation has been requested, the job is only ever about to be
cancelled or cancelled. -/
def CancellationFinal (history : List (Transition JobSystem WorkerAction)) : Prop :=
  ∀ earlier transition later jobId, history = earlier ++ transition :: later →
    transition.label = .requestCancel jobId →
    ∀ moment ∈ transition :: later, Withdrawn jobId moment.target

/-- An execution does not wake up on a job that is already cancelled. -/
def WakesLive (transition : Transition JobSystem WorkerAction) : Prop :=
  ∀ jobId, transition.label = .wakeExecution jobId →
    transition.source.store.statusOf jobId ≠ some .cancelled

/-- The polling loop does not acknowledge a cancellation over the head of an
execution of the job. -/
def AcknowledgesIdle (transition : Transition JobSystem WorkerAction) : Prop :=
  transition.label = .processLoop →
    ∀ job, transition.source.store.fetchNextCancelRequestedJob = some job →
    ∀ execution ∈ transition.source.executions, execution.jobId ≠ job.jobId

namespace InFlight

theorem initial : InFlight JobSystem.initial where
  indexed := JobSystem.initial_indexed
  single := List.nodup_nil
  active := by
    intro execution member
    simp [JobSystem.initial] at member

variable {system : JobSystem}

theorem update_idle (inFlight : InFlight system) {jobId : String}
    (idle : ∀ execution ∈ system.executions, execution.jobId ≠ jobId) (status : JobStatus)
    (result : Option JobResult) (error : Option String) :
    InFlight { system with
      store := (system.store.updateJobStatus jobId status result error).2 } where
  indexed := inFlight.indexed.mutate jobId fun _ => rfl
  single := inFlight.single
  active := by
    intro execution member
    simp only [SQLiteJobStore.statusOf_update, if_neg (idle execution member)]
    exact inFlight.active execution member

theorem acknowledge (inFlight : InFlight system)
    (idle : ∀ job, system.store.fetchNextCancelRequestedJob = some job →
      ∀ execution ∈ system.executions, execution.jobId ≠ job.jobId) :
    InFlight system.acknowledge := by
  unfold JobSystem.acknowledge SQLiteJobStore.acknowledgeCancellation
  cases fetched : system.store.fetchNextCancelRequestedJob with
  | none => exact inFlight
  | some job => exact inFlight.update_idle (idle job fetched) _ _ _

theorem queued_idle (inFlight : InFlight system) {job : JobRecord}
    (fetched : system.store.fetchNextQueuedJob = some job) :
    ∀ execution ∈ system.executions, execution.jobId ≠ job.jobId := by
  intro execution member same
  obtain ⟨stored, queued⟩ := SQLiteJobStore.fetchNextQueuedJob_some fetched
  have status : system.store.statusOf job.jobId = some .queued := by
    rw [inFlight.indexed.statusOf_of_mem stored, queued]
  rcases inFlight.active execution member with running | requested
  · rw [same, status] at running
    cases running
  · rw [same, status] at requested
    cases requested

theorem claim (inFlight : InFlight system) : InFlight system.claim := by
  unfold JobSystem.claim
  cases fetched : system.store.fetchNextQueuedJob with
  | none => exact inFlight
  | some job =>
      have idle := inFlight.queued_idle fetched
      obtain ⟨stored, queued⟩ := SQLiteJobStore.fetchNextQueuedJob_some fetched
      refine ⟨inFlight.indexed.claimJob job, ?_, ?_⟩
      · refine List.nodup_cons.mpr ⟨?_, inFlight.single⟩
        intro member
        obtain ⟨execution, included, same⟩ := List.mem_map.mp member
        exact idle execution included same
      · intro execution member
        dsimp only
        rw [SQLiteJobStore.statusOf_claimJob]
        rcases List.mem_cons.mp member with rfl | old
        · left
          rw [if_pos rfl, inFlight.indexed.statusOf_of_mem stored]
          rfl
        · rw [if_neg (idle execution old)]
          exact inFlight.active execution old

theorem submit (inFlight : InFlight system) {jobType key : String} {payload : Dict}
    {clock maxAttempts : Nat} {next : JobSystem}
    (submitted : system.submit jobType key payload clock maxAttempts = some next) :
    InFlight next := by
  rcases JobSystem.submit_cases submitted with rfl | ⟨sameExecutions, free, indexed, statuses⟩
  · exact inFlight
  · refine ⟨indexed inFlight.indexed, sameExecutions ▸ inFlight.single, ?_⟩
    intro execution member
    have active := inFlight.active execution (sameExecutions ▸ member)
    have different : execution.jobId ≠ jobIdAt clock := by
      intro same
      simp [SQLiteJobStore.statusOf, same, free] at active
    rw [statuses, if_neg different]
    exact active

theorem requestCancel (inFlight : InFlight system) {jobId : String} {next : JobSystem}
    (requested : system.requestCancel jobId = some next) : InFlight next := by
  obtain ⟨job, found, _, rfl⟩ := JobSystem.requestCancel_inv requested
  refine ⟨inFlight.indexed.mutate jobId fun _ => rfl, inFlight.single, ?_⟩
  intro execution member
  dsimp only
  rw [SQLiteJobStore.statusOf_update]
  split
  · next same =>
      right
      simp [SQLiteJobStore.statusOf, same, found]
  · exact inFlight.active execution member

private theorem perm_jobIds {executions : List Execution} {execution : Execution}
    (member : execution ∈ executions) :
    (executions.map (·.jobId)).Perm
      (execution.jobId :: (executions.erase execution).map (·.jobId)) :=
  (List.perm_cons_erase member).map _

theorem startExecution (inFlight : InFlight system) {jobId : String} {next : JobSystem}
    (started : system.startExecution jobId = some next) : InFlight next := by
  obtain ⟨member, sameStore, executions⟩ := JobSystem.startExecution_inv started
  have distinct := (perm_jobIds member).nodup_iff.mp inFlight.single
  rcases executions with dropped | moved
  · refine ⟨sameStore ▸ inFlight.indexed, ?_, ?_⟩
    · rw [dropped]
      exact (List.nodup_cons.mp distinct).2
    · intro execution remains
      rw [dropped] at remains
      rw [sameStore]
      exact inFlight.active execution (List.mem_of_mem_erase remains)
  · refine ⟨sameStore ▸ inFlight.indexed, ?_, ?_⟩
    · rw [moved]
      exact distinct
    · intro execution remains
      rw [moved] at remains
      rw [sameStore]
      rcases List.mem_cons.mp remains with rfl | old
      · exact inFlight.active ⟨jobId, .created⟩ member
      · exact inFlight.active execution (List.mem_of_mem_erase old)

/-- The execution that woke up was the only one of its job. -/
theorem wake_idle (inFlight : InFlight system) {jobId : String}
    (member : ⟨jobId, .computing⟩ ∈ system.executions) :
    ∀ execution ∈ system.executions.erase ⟨jobId, .computing⟩, execution.jobId ≠ jobId := by
  have distinct := (perm_jobIds member).nodup_iff.mp inFlight.single
  intro execution remains same
  exact (List.nodup_cons.mp distinct).1 (List.mem_map.mpr ⟨execution, remains, same⟩)

theorem wakeExecution (inFlight : InFlight system) {jobId : String} {next : JobSystem}
    (woken : system.wakeExecution jobId = some next) : InFlight next := by
  obtain ⟨member, rfl⟩ := JobSystem.wakeExecution_inv woken
  have distinct := (perm_jobIds member).nodup_iff.mp inFlight.single
  refine ⟨inFlight.indexed.completeExecution jobId, (List.nodup_cons.mp distinct).2, ?_⟩
  intro execution remains
  dsimp only
  rw [SQLiteJobStore.statusOf_completeExecution,
    if_neg (inFlight.wake_idle member execution remains)]
  exact inFlight.active execution (List.mem_of_mem_erase remains)

/-- One action of any party keeps the invariant. -/
theorem step (inFlight : InFlight system) {action : WorkerAction} {next : JobSystem}
    (stepped : system.step action = some next)
    (idle : AcknowledgesIdle ⟨system, action, next⟩) : InFlight next := by
  cases action with
  | submitJob jobType key payload clock maxAttempts => exact inFlight.submit stepped
  | requestCancel jobId => exact inFlight.requestCancel stepped
  | processLoop =>
      cases stepped
      exact (inFlight.acknowledge (idle rfl)).claim
  | startExecution jobId => exact inFlight.startExecution stepped
  | wakeExecution jobId => exact inFlight.wakeExecution stepped

end InFlight

namespace Withdrawn

variable {jobId : String} {system : JobSystem}

theorem acknowledge (withdrawn : Withdrawn jobId system) : Withdrawn jobId system.acknowledge := by
  unfold JobSystem.acknowledge SQLiteJobStore.acknowledgeCancellation
  cases fetched : system.store.fetchNextCancelRequestedJob with
  | none => exact withdrawn
  | some job =>
      by_cases same : jobId = job.jobId
      · right
        rcases withdrawn with requested | cancelled
        · simp [SQLiteJobStore.statusOf_update, same, same ▸ requested]
        · simp [SQLiteJobStore.statusOf_update, same, same ▸ cancelled]
      · unfold Withdrawn
        dsimp only
        rw [SQLiteJobStore.statusOf_update, if_neg same]
        exact withdrawn

theorem not_queued (withdrawn : Withdrawn jobId system) :
    system.store.statusOf jobId ≠ some .queued ∧ system.store.statusOf jobId ≠ some .running := by
  rcases withdrawn with requested | cancelled
  · simp [requested]
  · simp [cancelled]

theorem claim (withdrawn : Withdrawn jobId system) (indexed : system.store.Indexed) :
    Withdrawn jobId system.claim := by
  unfold JobSystem.claim
  cases fetched : system.store.fetchNextQueuedJob with
  | none => exact withdrawn
  | some job =>
      obtain ⟨stored, queued⟩ := SQLiteJobStore.fetchNextQueuedJob_some fetched
      have different : jobId ≠ job.jobId := by
        intro same
        apply withdrawn.not_queued.1
        rw [same, indexed.statusOf_of_mem stored, queued]
      unfold Withdrawn
      dsimp only
      rw [SQLiteJobStore.statusOf_claimJob, if_neg different]
      exact withdrawn

theorem submit (withdrawn : Withdrawn jobId system) {jobType key : String} {payload : Dict}
    {clock maxAttempts : Nat} {next : JobSystem}
    (submitted : system.submit jobType key payload clock maxAttempts = some next) :
    Withdrawn jobId next := by
  rcases JobSystem.submit_cases submitted with rfl | ⟨_, free, _, statuses⟩
  · exact withdrawn
  · have different : jobId ≠ jobIdAt clock := by
      intro same
      simp [Withdrawn, SQLiteJobStore.statusOf, same, free] at withdrawn
    unfold Withdrawn
    rw [statuses, if_neg different]
    exact withdrawn

theorem requestCancel (withdrawn : Withdrawn jobId system) {other : String} {next : JobSystem}
    (requested : system.requestCancel other = some next) : Withdrawn jobId next := by
  obtain ⟨job, found, pending, rfl⟩ := JobSystem.requestCancel_inv requested
  have different : jobId ≠ other := by
    intro same
    have status : system.store.statusOf jobId = some job.status :=
      same ▸ SQLiteJobStore.statusOf_of_getJob found
    rcases pending with queued | running
    · exact withdrawn.not_queued.1 (queued ▸ status)
    · exact withdrawn.not_queued.2 (running ▸ status)
  unfold Withdrawn
  dsimp only
  rw [SQLiteJobStore.statusOf_update, if_neg different]
  exact withdrawn

theorem startExecution (withdrawn : Withdrawn jobId system) {other : String} {next : JobSystem}
    (started : system.startExecution other = some next) : Withdrawn jobId next := by
  obtain ⟨_, sameStore, _⟩ := JobSystem.startExecution_inv started
  unfold Withdrawn
  rw [sameStore]
  exact withdrawn

/-- A wake-up on a withdrawn job finds the request, unless the polling loop
has acknowledged it before. -/
theorem wakeExecution (withdrawn : Withdrawn jobId system) {other : String} {next : JobSystem}
    (live : system.store.statusOf other ≠ some .cancelled)
    (woken : system.wakeExecution other = some next) : Withdrawn jobId next := by
  obtain ⟨_, rfl⟩ := JobSystem.wakeExecution_inv woken
  unfold Withdrawn
  dsimp only
  rw [SQLiteJobStore.statusOf_completeExecution]
  by_cases same : jobId = other
  · subst other
    have requested : system.store.statusOf jobId = some .cancelRequested :=
      withdrawn.resolve_right live
    obtain ⟨job, found, status⟩ := Option.map_eq_some_iff.mp requested
    right
    simp [found, JobRecord.wakeOutcome, status]
  · rw [if_neg same]
    exact withdrawn

theorem step (withdrawn : Withdrawn jobId system) (indexed : system.store.Indexed)
    {action : WorkerAction} {next : JobSystem} (stepped : system.step action = some next)
    (live : WakesLive ⟨system, action, next⟩) : Withdrawn jobId next := by
  cases action with
  | submitJob jobType key payload clock maxAttempts => exact withdrawn.submit stepped
  | requestCancel other => exact withdrawn.requestCancel stepped
  | processLoop =>
      cases stepped
      exact withdrawn.acknowledge.claim indexed.acknowledgeCancellation
  | startExecution other => exact withdrawn.startExecution stepped
  | wakeExecution other => exact withdrawn.wakeExecution (live other rfl) stepped

/-- Only a client's request withdraws a job. -/
theorem origin {action : WorkerAction} {next : JobSystem} (indexed : system.store.Indexed)
    (stepped : system.step action = some next) (withdrawn : Withdrawn jobId next) :
    Withdrawn jobId system ∨ action = .requestCancel jobId := by
  cases action with
  | submitJob jobType key payload clock maxAttempts =>
      rcases JobSystem.submit_cases stepped with rfl | ⟨_, _, _, statuses⟩
      · exact .inl withdrawn
      · unfold Withdrawn at withdrawn
        rw [statuses] at withdrawn
        split at withdrawn
        · simp at withdrawn
        · exact .inl withdrawn
  | requestCancel other =>
      by_cases same : jobId = other
      · exact .inr (same ▸ rfl)
      · left
        obtain ⟨job, _, _, rfl⟩ := JobSystem.requestCancel_inv stepped
        unfold Withdrawn at withdrawn
        dsimp only at withdrawn
        rw [SQLiteJobStore.statusOf_update, if_neg same] at withdrawn
        exact withdrawn
  | processLoop =>
      left
      cases stepped
      have acknowledged : Withdrawn jobId system.acknowledge := by
        unfold JobSystem.claim at withdrawn
        split at withdrawn
        · unfold Withdrawn at withdrawn
          dsimp only at withdrawn
          rw [SQLiteJobStore.statusOf_claimJob] at withdrawn
          split at withdrawn
          · simp at withdrawn
          · exact withdrawn
        · exact withdrawn
      unfold JobSystem.acknowledge SQLiteJobStore.acknowledgeCancellation at acknowledged
      cases fetched : system.store.fetchNextCancelRequestedJob with
      | none => simpa only [fetched] using acknowledged
      | some job =>
          by_cases same : jobId = job.jobId
          · obtain ⟨member, status⟩ := SQLiteJobStore.fetchNextCancelRequestedJob_some fetched
            left
            rw [same, indexed.statusOf_of_mem member, status]
          · simp only [fetched, Withdrawn, SQLiteJobStore.statusOf_update, if_neg same]
              at acknowledged
            exact acknowledged
  | startExecution other =>
      left
      obtain ⟨_, sameStore, _⟩ := JobSystem.startExecution_inv stepped
      unfold Withdrawn at withdrawn
      rw [sameStore] at withdrawn
      exact withdrawn
  | wakeExecution other =>
      left
      obtain ⟨_, rfl⟩ := JobSystem.wakeExecution_inv stepped
      unfold Withdrawn at withdrawn
      dsimp only at withdrawn
      rw [SQLiteJobStore.statusOf_completeExecution] at withdrawn
      split at withdrawn
      · cases found : system.store.getJob jobId with
        | none => simp [found] at withdrawn
        | some job =>
            left
            by_cases requested : job.status = .cancelRequested
            · simp [SQLiteJobStore.statusOf, found, requested]
            · simp only [found, Option.map_some, JobRecord.wakeOutcome, if_neg requested]
                at withdrawn
              split_ifs at withdrawn <;> simp at withdrawn
      · exact withdrawn

end Withdrawn

/-- An execution that wakes up on a cancelled job revives it. -/
theorem wake_revives {system next : JobSystem} {jobId : String}
    (woken : system.wakeExecution jobId = some next)
    (cancelled : system.store.statusOf jobId = some .cancelled) : ¬ Withdrawn jobId next := by
  obtain ⟨_, rfl⟩ := JobSystem.wakeExecution_inv woken
  obtain ⟨job, found, status⟩ := Option.map_eq_some_iff.mp cancelled
  unfold Withdrawn
  dsimp only
  rw [SQLiteJobStore.statusOf_completeExecution, if_pos rfl, found]
  simp only [Option.map_some, JobRecord.wakeOutcome, status, reduceCtorEq, if_false]
  split_ifs <;> simp

theorem JobSystem.step_indexed {system next : JobSystem} {action : WorkerAction}
    (indexed : system.store.Indexed) (stepped : system.step action = some next) :
    next.store.Indexed := by
  cases action with
  | submitJob jobType key payload clock maxAttempts =>
      exact JobSystem.submit_indexed indexed stepped
  | requestCancel jobId =>
      obtain ⟨job, _, _, rfl⟩ := JobSystem.requestCancel_inv stepped
      exact indexed.mutate jobId fun _ => rfl
  | processLoop =>
      cases stepped
      exact JobSystem.claim_indexed indexed.acknowledgeCancellation
  | startExecution jobId => exact JobSystem.startExecution_indexed indexed stepped
  | wakeExecution jobId => exact JobSystem.wakeExecution_indexed indexed stepped

section Runs

variable {history : List (Transition JobSystem WorkerAction)} {system : JobSystem}

theorem run_indexed (run : Run JobSystem.step JobSystem.initial history system) :
    system.store.Indexed := by
  induction run with
  | nil => exact InFlight.initial.indexed
  | snoc _ stepped ih => exact JobSystem.step_indexed ih stepped

theorem run_inFlight (run : Run JobSystem.step JobSystem.initial history system)
    (idle : ∀ transition ∈ history, AcknowledgesIdle transition) : InFlight system :=
  Run.preserves AcknowledgesIdle InFlight InFlight.initial
    (fun _ _ _ inFlight stepped acknowledged => inFlight.step stepped acknowledged) run idle

/-- Every withdrawn job has been withdrawn by a client. -/
theorem run_requested (run : Run JobSystem.step JobSystem.initial history system)
    {jobId : String} (withdrawn : Withdrawn jobId system) :
    ∃ transition ∈ history, transition.label = .requestCancel jobId := by
  induction run with
  | nil => simp [Withdrawn, JobSystem.initial, SQLiteJobStore.empty, SQLiteJobStore.statusOf,
      SQLiteJobStore.getJob, OrderedDict.get?] at withdrawn
  | @snoc history system action next previous stepped ih =>
      rcases Withdrawn.origin (run_indexed previous) stepped withdrawn with before | requested
      · obtain ⟨transition, member, label⟩ := ih before
        exact ⟨transition, List.mem_append_left _ member, label⟩
      · exact ⟨_, List.mem_append_right _ (List.mem_singleton_self _), requested⟩

private theorem final_of_live (run : Run JobSystem.step JobSystem.initial history system)
    (live : ∀ transition ∈ history, WakesLive transition) :
    CancellationFinal history := by
  intro earlier transition later jobId split requested moment member
  subst split
  obtain ⟨previous, stepped, rest⟩ := run.around
  rw [requested] at stepped
  have atOnce : Withdrawn jobId transition.target := by
    obtain ⟨job, found, _, same⟩ := JobSystem.requestCancel_inv stepped
    left
    rw [same]
    dsimp only
    rw [SQLiteJobStore.statusOf_update, if_pos rfl, SQLiteJobStore.statusOf_of_getJob found]
    rfl
  rcases List.mem_cons.mp member with rfl | after
  · exact atOnce
  · obtain ⟨front, back, rfl⟩ := List.append_of_mem after
    obtain ⟨middle, momentStepped, _⟩ := rest.around
    have indexed : transition.target.store.Indexed :=
      JobSystem.step_indexed (run_indexed previous) stepped
    have upTo := Run.snoc middle momentStepped
    let held := fun state : JobSystem => Withdrawn jobId state ∧ state.store.Indexed
    have base : held transition.target := ⟨atOnce, indexed⟩
    have kept : held moment.target := by
      refine Run.preserves WakesLive held base ?_ upTo ?_
      · intro state action next held taken alive
        exact ⟨held.1.step held.2 taken alive, JobSystem.step_indexed held.2 taken⟩
      · intro step included
        apply live
        rcases List.mem_append.mp included with inFront | last
        · simp [inFront]
        · simp [List.mem_singleton.mp last]
    exact kept.1

/-- Cancellation is final exactly in the runs in which no execution wakes up on
a cancelled job. The polling loop brings this about by acknowledging only
cancellations of jobs that are not being executed. -/
theorem cancellationFinal_iff (run : Run JobSystem.step JobSystem.initial history system) :
    (CancellationFinal history ↔ ∀ transition ∈ history, WakesLive transition) ∧
      ((∀ transition ∈ history, AcknowledgesIdle transition) → CancellationFinal history) := by
  refine ⟨⟨?_, final_of_live run⟩, ?_⟩
  · intro final transition member jobId woken cancelled
    obtain ⟨earlier, later, rfl⟩ := List.append_of_mem member
    obtain ⟨previous, stepped, _⟩ := run.around
    obtain ⟨request, requestMember, label⟩ := run_requested previous (.inr cancelled)
    obtain ⟨front, back, rfl⟩ := List.append_of_mem requestMember
    have withdrawn := final front request (back ++ transition :: later) jobId (by simp) label
      transition (by simp)
    rw [woken] at stepped
    exact wake_revives stepped cancelled withdrawn
  · intro idle
    apply final_of_live run
    intro transition member jobId woken cancelled
    obtain ⟨earlier, later, rfl⟩ := List.append_of_mem member
    obtain ⟨previous, stepped, _⟩ := run.around
    have inFlight := run_inFlight previous fun step included =>
      idle step (List.mem_append_left _ included)
    rw [woken] at stepped
    obtain ⟨executed, _⟩ := JobSystem.wakeExecution_inv stepped
    rcases inFlight.active _ executed with running | requested
    · rw [running] at cancelled
      cases cancelled
    · rw [requested] at cancelled
      cases cancelled

private theorem CancellationFinal.at_end
    (run : Run JobSystem.step JobSystem.initial history system)
    (final : CancellationFinal history) {jobId : String}
    (requested : .requestCancel jobId ∈ history.map (·.label)) : Withdrawn jobId system := by
  obtain ⟨transition, member, label⟩ := List.mem_map.mp requested
  obtain ⟨earlier, later, rfl⟩ := List.append_of_mem member
  have withdrawn := final earlier transition later jobId rfl label
  rcases List.eq_nil_or_concat later with rfl | ⟨front, last, rfl⟩
  · exact run.final_eq ▸ withdrawn transition (by simp)
  · have reassociated : earlier ++ transition :: front.concat last =
        (earlier ++ transition :: front) ++ [last] := by simp
    rw [reassociated] at run
    exact run.final_eq ▸ withdrawn last (by simp)

end Runs

/-- A cancellation that arrives before the job is claimed. -/
theorem cancellationFinal_before_claim :
    ∃ history system, Run JobSystem.step JobSystem.initial history system ∧
      system.store.statusOf (jobIdAt 0) = some .cancelled ∧ CancellationFinal history := by
  obtain ⟨history, system, run, labels, cancelled⟩ :=
    execute_observed JobSystem.step JobSystem.initial
      [.submitJob "heavy_loop" "key_cancel" [] 0 3, .requestCancel (jobIdAt 0), .processLoop]
      (fun outcome => outcome.2.store.statusOf (jobIdAt 0)) (some .cancelled) (by decide +kernel)
  refine ⟨history, system, run, cancelled, (cancellationFinal_iff run).1.mpr ?_⟩
  intro transition member jobId woken
  have listed : transition.label ∈ history.map (·.label) := List.mem_map_of_mem member
  simp [labels, woken] at listed

/-- A cancellation that arrives during the computation is acknowledged by the
polling loop; the execution wakes up afterwards and reports success. -/
theorem cancellationFinal_fails_during_execution :
    ∃ history system, Run JobSystem.step JobSystem.initial history system ∧
      system.store.statusOf (jobIdAt 0) = some .succeeded ∧ ¬ CancellationFinal history := by
  obtain ⟨history, system, run, labels, succeeded⟩ :=
    execute_observed JobSystem.step JobSystem.initial
      [.submitJob "heavy_loop" "key_cancel" [] 0 3, .processLoop, .startExecution (jobIdAt 0),
        .requestCancel (jobIdAt 0), .processLoop, .wakeExecution (jobIdAt 0)]
      (fun outcome => outcome.2.store.statusOf (jobIdAt 0)) (some .succeeded) (by decide +kernel)
  refine ⟨history, system, run, succeeded, ?_⟩
  intro final
  have withdrawn : Withdrawn (jobIdAt 0) system := final.at_end run (by rw [labels]; simp)
  unfold Withdrawn at withdrawn
  simp [succeeded] at withdrawn

end DurableAgent.Jobs
