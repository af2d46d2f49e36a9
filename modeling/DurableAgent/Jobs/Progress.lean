import DurableAgent.Jobs.Retry
import DurableAgent.Library.Potential
import Mathlib.Algebra.Order.BigOperators.Group.List
import Mathlib.Algebra.Order.Group.Nat

/-!
# Progress of the pool

How much the loops and the executions can still do, and that they never get stuck before
every job has ended.
-/

set_option autoImplicit false

namespace DurableAgent.Jobs

open Library Python

/-! ## The life of one job -/

namespace JobLife

def mark (life : JobLife) (status : JobStatus) : JobLife :=
  { life with ledger := life.ledger.map fun ledger => { ledger with status := status } }

/-- The iterations, beginnings and wake-ups that a job can still cause: a claim leaves an
execution that begins, wakes up and puts the job back while it has attempts left. -/
def work (life : JobLife) : Nat :=
  match life.ledger with
  | none => 0
  | some ledger =>
      let remaining := ledger.budget - ledger.attempts
      (if ledger.status = .cancelRequested then 1 else 0) +
        (if ledger.status = .queued then 3 * max 1 remaining else 0) +
        (if 0 < life.created then 3 * remaining + 2 else 0) +
        (if 0 < life.computing then 3 * remaining + 1 else 0)

/-- What the loops and the executions do to a job. -/
inductive Worked (life : JobLife) : JobLife → Prop where
  | acknowledges (ledger : Ledger) : life.ledger = some ledger →
      ledger.status = .cancelRequested → Worked life (life.mark .cancelled)
  | dispatches (ledger : Ledger) : life.ledger = some ledger → ledger.status = .queued →
      Worked life {
        ledger := some ⟨.running, ledger.attempts + 1, ledger.budget⟩
        created := life.created + 1
        computing := life.computing }
  | begins : life.ledger ≠ none → 0 < life.created →
      Worked life {
        ledger := life.ledger
        created := life.created - 1
        computing := life.computing + 1 }
  | finishes (ledger : Ledger) (status : JobStatus) : life.ledger = some ledger →
      0 < life.computing → status ≠ .running → status ≠ .cancelRequested →
      (status = .queued → ledger.attempts < ledger.budget) →
      Worked life {
        ledger := some { ledger with status := status }
        created := life.created
        computing := life.computing - 1 }

/-- A job that runs has an execution. -/
def Manned (life : JobLife) : Prop :=
  ∀ ledger, life.ledger = some ledger → ledger.status = .running →
    0 < life.created + life.computing

variable {life next : JobLife} {dispatched begun : Nat}

theorem Worked.stored (worked : life.Worked next) : life.ledger ≠ none := by
  cases worked with
  | acknowledges ledger stored => simp [stored]
  | dispatches ledger stored => simp [stored]
  | begins known => exact known
  | finishes ledger status stored => simp [stored]

theorem Worked.less (worked : life.Worked next) (sound : life.Sound dispatched begun) :
    next.work < life.work := by
  have single := sound.single
  cases worked with
  | acknowledges ledger stored requested =>
      simp [work, mark, stored, requested]
  | dispatches ledger stored queued =>
      have idle := sound.idle ledger stored queued
      have created : life.created = 0 := by omega
      have computing : life.computing = 0 := by omega
      simp only [work, stored, queued, created, computing]
      simp
      omega
  | begins known created =>
      obtain ⟨ledger, stored⟩ := Option.ne_none_iff_exists'.mp known
      have alone : life.created = 1 := by omega
      have computing : life.computing = 0 := by omega
      simp [work, stored, alone, computing]
  | finishes ledger status stored computing notRunning notRequested retried =>
      have alone : life.computing = 1 := by omega
      have created : life.created = 0 := by omega
      simp only [work, stored, alone, created, notRequested]
      by_cases requeued : status = .queued
      · have budget := retried requeued
        simp only [requeued]
        simp
        omega
      · simp only [requeued]
        simp

theorem Worked.manned (worked : life.Worked next) : next.Manned := by
  intro after same running
  cases worked with
  | acknowledges ledger stored requested =>
      simp only [mark, stored, Option.map_some, Option.some.injEq] at same
      subst same
      cases running
  | dispatches ledger stored queued =>
      simp only
      omega
  | begins known created =>
      simp only
      omega
  | finishes ledger status stored computing notRunning =>
      cases same
      exact absurd running notRunning

theorem mark_manned (life : JobLife) {status : JobStatus} (notRunning : status ≠ .running) :
    (life.mark status).Manned := by
  intro ledger same running
  obtain ⟨before, _, rfl⟩ := Option.map_eq_some_iff.mp same
  exact absurd running notRunning

/-- A request for cancellation costs one acknowledgement at most. -/
theorem work_requested (life : JobLife) : (life.mark .cancelRequested).work ≤ life.work + 1 := by
  unfold work mark
  cases life.ledger with
  | none => simp
  | some ledger =>
      simp
      omega

end JobLife

/-! ## The pool -/

namespace JobSystem

variable {system next : JobSystem}

def work (system : JobSystem) : Nat :=
  (system.store.db.keys.map fun jobId => (system.lifeOf jobId).work).sum

/-- One job is worked on, and the others are left alone. -/
structure WorksOn (system next : JobSystem) (jobId : String) : Prop where
  worked : (system.lifeOf jobId).Worked (next.lifeOf jobId)
  others : ∀ other, other ≠ jobId → next.lifeOf other = system.lifeOf other
  keys : next.store.db.keys = system.store.db.keys

/-- Each job leads a sound life, and the running ones are executed. -/
structure Kept (system : JobSystem) : Prop where
  indexed : system.store.Indexed
  sound : ∀ jobId, ∃ dispatched begun, (system.lifeOf jobId).Sound dispatched begun
  manned : ∀ jobId, (system.lifeOf jobId).Manned

theorem lifeOf_ledger (system : JobSystem) (jobId : String) :
    (system.lifeOf jobId).ledger = (system.store.getJob jobId).map JobRecord.ledger := rfl

theorem mem_keys_of_ledger {jobId : String} (stored : (system.lifeOf jobId).ledger ≠ none) :
    jobId ∈ system.store.db.keys := by
  refine OrderedDict.get?_isSome_iff.mp (Option.isSome_iff_ne_none.mpr fun missing => stored ?_)
  rw [lifeOf_ledger, SQLiteJobStore.getJob, missing]
  rfl

theorem WorksOn.known {jobId : String} (works : WorksOn system next jobId) :
    jobId ∈ system.store.db.keys := mem_keys_of_ledger works.worked.stored

theorem WorksOn.less {jobId : String} (works : WorksOn system next jobId) (kept : system.Kept) :
    next.work < system.work := by
  obtain ⟨dispatched, begun, sound⟩ := kept.sound jobId
  have less := works.worked.less sound
  unfold work
  rw [works.keys]
  refine List.sum_lt_sum _ _ ?_ ⟨jobId, works.known, less⟩
  intro other _
  by_cases same : other = jobId
  · subst same
    exact less.le
  · rw [works.others other same]

theorem WorksOn.manned {jobId : String} (works : WorksOn system next jobId) (kept : system.Kept)
    (other : String) : (next.lifeOf other).Manned := by
  by_cases same : other = jobId
  · subst same
    exact works.worked.manned
  · rw [works.others other same]
    exact kept.manned other

theorem lifeOf_update (system : JobSystem) (jobId other : String) (status : JobStatus)
    (result : Option JobResult) (error : Option String) :
    (lifeOf { system with store := (system.store.updateJobStatus jobId status result error).2 }
        other) =
      if other = jobId then (system.lifeOf other).mark status else system.lifeOf other := by
  unfold lifeOf JobLife.mark
  rw [SQLiteJobStore.ledgerOf_update]
  split <;> rfl

theorem keys_mutate (store : SQLiteJobStore) (jobId : String) (change : JobRecord → JobRecord) :
    (store.mutate jobId change).db.keys = store.db.keys :=
  OrderedDict.keys_modify store.db jobId change

theorem acknowledge_cases (indexed : system.store.Indexed) :
    (system.store.fetchNextCancelRequestedJob = none ∧ system.acknowledge = system) ∨
      ∃ jobId, WorksOn system system.acknowledge jobId := by
  unfold acknowledge SQLiteJobStore.acknowledgeCancellation
  cases fetched : system.store.fetchNextCancelRequestedJob with
  | none => exact .inl ⟨rfl, rfl⟩
  | some job =>
      obtain ⟨member, requested⟩ := SQLiteJobStore.fetchNextCancelRequestedJob_some fetched
      refine .inr ⟨job.jobId, ?_, ?_, keys_mutate _ _ _⟩
      · rw [lifeOf_update, if_pos rfl]
        exact .acknowledges job.ledger (indexed.ledgerOf_of_mem member) requested
      · intro other different
        rw [lifeOf_update, if_neg different]

theorem claim_cases (indexed : system.store.Indexed) :
    (system.store.fetchNextQueuedJob = none ∧ system.claim = system) ∨
      ∃ jobId, WorksOn system system.claim jobId := by
  unfold claim
  cases fetched : system.store.fetchNextQueuedJob with
  | none => exact .inl ⟨rfl, rfl⟩
  | some job =>
      obtain ⟨member, queued⟩ := SQLiteJobStore.fetchNextQueuedJob_some fetched
      have stored := indexed.ledgerOf_of_mem member
      refine .inr ⟨job.jobId, ?_, ?_, ?_⟩
      · have worked : (system.lifeOf job.jobId).Worked _ := .dispatches job.ledger stored queued
        simpa [lifeOf, SQLiteJobStore.ledgerOf_claimJob, stored] using worked
      · intro other different
        simp [lifeOf, SQLiteJobStore.ledgerOf_claimJob, different, Ne.symm different]
      · exact (keys_mutate _ _ _).trans (keys_mutate _ _ _)

/-- An execution in flight is one of a stored job. -/
theorem Kept.record (kept : system.Kept) (jobId : String)
    (inFlight : 0 < (system.lifeOf jobId).created + (system.lifeOf jobId).computing) :
    ∃ job, system.store.getJob jobId = some job := by
  obtain ⟨dispatched, begun, sound⟩ := kept.sound jobId
  refine record_of_execution (fun _ unknown => ?_) inFlight
  have none := sound.absent unknown
  omega

theorem startExecution_worksOn (kept : system.Kept) {jobId : String}
    (started : system.startExecution jobId = some next) : WorksOn system next jobId := by
  obtain ⟨member, _, _⟩ := startExecution_inv started
  have created : 0 < (system.lifeOf jobId).created := List.count_pos_iff.mpr member
  obtain ⟨job, found⟩ := kept.record jobId (by omega)
  simp only [startExecution, if_pos member, found, Option.some.injEq] at started
  subst next
  refine ⟨?_, ?_, rfl⟩
  · have worked : (system.lifeOf jobId).Worked _ := .begins (by simp [lifeOf_ledger, found]) created
    simpa [lifeOf] using worked
  · intro other different
    simp [lifeOf, List.count_erase, Ne.symm different]

theorem wakeOutcome_settled (job : JobRecord) (jobId : String) :
    (job.wakeOutcome jobId).status ≠ .running ∧
      (job.wakeOutcome jobId).status ≠ .cancelRequested := by
  unfold JobRecord.wakeOutcome
  split_ifs <;> simp

theorem wakeExecution_worksOn (kept : system.Kept) {jobId : String}
    (woken : system.wakeExecution jobId = some next) : WorksOn system next jobId := by
  obtain ⟨member, rfl⟩ := wakeExecution_inv woken
  have computing : 0 < (system.lifeOf jobId).computing := List.count_pos_iff.mpr member
  obtain ⟨job, found⟩ := kept.record jobId (by omega)
  unfold SQLiteJobStore.completeExecution
  rw [found]
  obtain ⟨notRunning, notRequested⟩ := wakeOutcome_settled job jobId
  have stored : system.store.ledgerOf jobId = some job.ledger := by
    simp [SQLiteJobStore.ledgerOf, found]
  refine ⟨?_, ?_, keys_mutate _ _ _⟩
  · have worked : (system.lifeOf jobId).Worked _ :=
      .finishes job.ledger _ stored computing notRunning notRequested job.wakeOutcome_queued
    simpa [lifeOf, SQLiteJobStore.ledgerOf_update, stored, List.count_erase] using worked
  · intro other different
    simp [lifeOf, SQLiteJobStore.ledgerOf_update, different]

theorem Kept.acknowledge (kept : system.Kept) : system.acknowledge.Kept where
  indexed := kept.indexed.acknowledgeCancellation
  sound := by
    intro jobId
    obtain ⟨dispatched, begun, sound⟩ := kept.sound jobId
    exact ⟨_, _, sound.step (system.acknowledge_life jobId)⟩
  manned := by
    rcases acknowledge_cases kept.indexed with ⟨_, same⟩ | ⟨jobId, works⟩
    · rw [same]
      exact kept.manned
    · exact works.manned kept

/-- An iteration that finds a cancellation to acknowledge or a job to claim lowers the work. -/
theorem processLoop_work (kept : system.Kept) :
    system.acknowledge.claim.work ≤ system.work ∧
      (¬ (system.store.fetchNextCancelRequestedJob = none ∧
        system.store.fetchNextQueuedJob = none) →
        system.acknowledge.claim.work < system.work) := by
  have claimed : system.acknowledge.claim.work ≤ system.acknowledge.work ∧
      (system.acknowledge.store.fetchNextQueuedJob ≠ none →
        system.acknowledge.claim.work < system.acknowledge.work) := by
    rcases claim_cases kept.acknowledge.indexed with ⟨nothing, same⟩ | ⟨jobId, works⟩
    · rw [same]
      exact ⟨le_refl _, fun some => absurd nothing some⟩
    · have less := works.less kept.acknowledge
      exact ⟨less.le, fun _ => less⟩
  rcases acknowledge_cases kept.indexed with ⟨nothing, same⟩ | ⟨jobId, works⟩
  · rw [same] at claimed ⊢
    exact ⟨claimed.1, fun busy => claimed.2 fun none => busy ⟨nothing, none⟩⟩
  · have less := works.less kept
    exact ⟨claimed.1.trans less.le, fun _ => claimed.1.trans_lt less⟩

theorem processLoop_keys (kept : system.Kept) :
    system.acknowledge.claim.store.db.keys = system.store.db.keys := by
  have claimed : system.acknowledge.claim.store.db.keys = system.acknowledge.store.db.keys := by
    rcases claim_cases kept.acknowledge.indexed with ⟨_, same⟩ | ⟨_, works⟩
    · rw [same]
    · exact works.keys
  rcases acknowledge_cases kept.indexed with ⟨_, same⟩ | ⟨_, works⟩
  · rw [claimed, same]
  · exact claimed.trans works.keys

theorem requestCancel_lifeOf (system : JobSystem) (jobId other : String) :
    (system.markCancelRequested jobId).lifeOf other =
      if other = jobId then (system.lifeOf other).mark .cancelRequested
      else system.lifeOf other :=
  lifeOf_update system jobId other .cancelRequested none none

theorem requestCancel_work (system : JobSystem) (jobId : String) :
    (system.markCancelRequested jobId).work ≤ system.work + 1 := by
  have keys : (system.markCancelRequested jobId).store.db.keys = system.store.db.keys :=
    keys_mutate _ _ _
  unfold work
  rw [keys]
  refine sum_map_le_of_one (OrderedDict.keys_nodup system.store.db) jobId _ _ 1 ?_ ?_
  · rw [requestCancel_lifeOf, if_pos rfl]
    exact JobLife.work_requested _
  · intro other different
    rw [requestCancel_lifeOf, if_neg different]

section Submissions

variable {jobType key : String} {payload : Dict} {clock maxAttempts : Nat}

/-- A new record is put at the end, queued and with no attempt made. -/
theorem submit_effect
    (submitted : system.submit jobType key payload clock maxAttempts = some next) :
    next = system ∨
      (system.lifeOf (jobIdAt clock)).ledger = none ∧
      next.store.db.keys = system.store.db.keys ++ [jobIdAt clock] ∧
      ∀ jobId, next.lifeOf jobId =
        if jobId = jobIdAt clock then
          { system.lifeOf jobId with ledger := some ⟨.queued, 0, maxAttempts⟩ }
        else system.lifeOf jobId := by
  rcases submit_inv submitted with rfl | ⟨unknown, free, rfl⟩
  · exact .inl rfl
  · right
    rw [SQLiteJobStore.submitJob_of_unknown unknown]
    have absent : jobIdAt clock ∉ system.store.db.keys := OrderedDict.get?_eq_none_iff.mp free
    refine ⟨by simp [lifeOf_ledger, free], ?_, ?_⟩
    · refine (keys_mutate _ _ _).trans ?_
      rw [OrderedDict.keys_insert, if_neg absent]
    · intro jobId
      unfold lifeOf
      dsimp only
      rw [SQLiteJobStore.ledgerOf_mutate _ _ _
        (fun ledger => { ledger with budget := maxAttempts }) (fun _ => rfl)]
      by_cases same : jobId = jobIdAt clock
      · subst jobId
        simp [SQLiteJobStore.ledgerOf, SQLiteJobStore.getJob_insert_self, queuedRecord,
          JobRecord.ledger]
      · simp [SQLiteJobStore.ledgerOf, SQLiteJobStore.getJob_insert_of_ne _ same, same]

theorem submit_work (kept : system.Kept)
    (submitted : system.submit jobType key payload clock maxAttempts = some next) :
    next.work ≤ system.work + 3 * max 1 maxAttempts := by
  rcases submit_effect submitted with rfl | ⟨absent, keys, lives⟩
  · exact Nat.le_add_right _ _
  · obtain ⟨dispatched, begun, sound⟩ := kept.sound (jobIdAt clock)
    have idle := sound.absent absent
    have created : (system.lifeOf (jobIdAt clock)).created = 0 := by omega
    have computing : (system.lifeOf (jobIdAt clock)).computing = 0 := by omega
    have fresh : (next.lifeOf (jobIdAt clock)).work = 3 * max 1 maxAttempts := by
      rw [lives, if_pos rfl]
      simp [JobLife.work, created, computing]
    have known : jobIdAt clock ∉ system.store.db.keys :=
      OrderedDict.get?_eq_none_iff.mp (Option.map_eq_none_iff.mp absent)
    have old : (system.store.db.keys.map fun jobId => (next.lifeOf jobId).work) =
        system.store.db.keys.map fun jobId => (system.lifeOf jobId).work := by
      refine List.map_congr_left fun jobId member => ?_
      have different : jobId ≠ jobIdAt clock := by
        rintro rfl
        exact known member
      rw [lives, if_neg different]
    unfold work
    rw [keys, List.map_append, List.sum_append, old]
    simp [fresh]

theorem submit_manned (kept : system.Kept)
    (submitted : system.submit jobType key payload clock maxAttempts = some next)
    (jobId : String) : (next.lifeOf jobId).Manned := by
  rcases submit_effect submitted with rfl | ⟨_, _, lives⟩
  · exact kept.manned jobId
  · rw [lives]
    split
    · intro ledger same running
      cases same
      cases running
    · exact kept.manned jobId

end Submissions

theorem step_manned (kept : system.Kept) {action : PoolAction}
    (stepped : system.poolStep action = some next) (jobId : String) :
    (next.lifeOf jobId).Manned := by
  cases action with
  | submitJob jobType key payload clock maxAttempts => exact submit_manned kept stepped jobId
  | requestCancel other =>
      cases stepped
      rw [requestCancel_lifeOf]
      split
      · exact JobLife.mark_manned _ (by decide)
      · exact kept.manned jobId
  | processLoop worker =>
      cases stepped
      rcases claim_cases kept.acknowledge.indexed with ⟨_, same⟩ | ⟨claimed, works⟩
      · rw [same]
        exact kept.acknowledge.manned jobId
      · exact works.manned kept.acknowledge jobId
  | startExecution other => exact (startExecution_worksOn kept stepped).manned kept jobId
  | wakeExecution other => exact (wakeExecution_worksOn kept stepped).manned kept jobId

end JobSystem

/-! ## Runs of the pool -/

/-- A poll of the store that finds nothing to do. -/
def SQLiteJobStore.idle (store : SQLiteJobStore) : Bool :=
  store.fetchNextCancelRequestedJob.isNone && store.fetchNextQueuedJob.isNone

/-- What the loops and the executions do, idle polls apart. -/
def PoolAction.works (system : JobSystem) : PoolAction → Bool
  | .processLoop _ => !system.store.idle
  | .startExecution _ | .wakeExecution _ => true
  | .submitJob .. | .requestCancel _ => false

/-- What a client may ask the pool to do. -/
def PoolAction.charge : PoolAction → Nat
  | .submitJob _ _ _ _ maxAttempts => 3 * max 1 maxAttempts
  | .requestCancel _ => 1
  | .processLoop _ | .startExecution _ | .wakeExecution _ => 0

structure Drained (system : JobSystem) : Prop where
  executions : system.executions = []
  finished : ∀ job ∈ system.store.jobs,
    job.status = .succeeded ∨ job.status = .failed ∨ job.status = .cancelled

theorem SQLiteJobStore.not_idle {store : SQLiteJobStore} (busy : store.idle = false) :
    ¬ (store.fetchNextCancelRequestedJob = none ∧ store.fetchNextQueuedJob = none) := by
  rintro ⟨nothing, none⟩
  simp [idle, nothing, none] at busy

theorem SQLiteJobStore.idle_statuses {store : SQLiteJobStore} (idle : store.idle = true) :
    ∀ job ∈ store.jobs, job.status ≠ .cancelRequested ∧ job.status ≠ .queued := by
  obtain ⟨nothing, none⟩ := Bool.and_eq_true_iff.mp idle
  rw [Option.isNone_iff_eq_none] at nothing none
  intro job member
  have quiet := List.find?_eq_none.mp nothing job member
  have empty := List.find?_eq_none.mp none job member
  exact ⟨by simpa using quiet, by simpa using empty⟩

section Runs

variable {history : List (Transition JobSystem PoolAction)} {system next : JobSystem}

theorem run_kept (run : Run JobSystem.poolStep JobSystem.initial history system) :
    system.Kept := by
  have tracked := run_tracked run
  refine ⟨tracked.indexed, fun jobId => ⟨_, _, tracked.sound jobId⟩, ?_⟩
  induction run with
  | nil =>
      intro jobId ledger stored
      cases stored
  | snoc previous stepped ih =>
      have before := run_tracked previous
      have kept : JobSystem.Kept _ :=
        ⟨before.indexed, fun jobId => ⟨_, _, before.sound jobId⟩, ih before⟩
      exact JobSystem.step_manned kept stepped

theorem JobSystem.Kept.working (kept : system.Kept) {action : PoolAction}
    (works : action.works system = true) (stepped : system.poolStep action = some next) :
    next.work < system.work ∧ next.store.db.keys = system.store.db.keys := by
  cases action with
  | submitJob | requestCancel => cases works
  | processLoop worker =>
      cases stepped
      have busy : system.store.idle = false := by simpa [PoolAction.works] using works
      exact ⟨(JobSystem.processLoop_work kept).2 (SQLiteJobStore.not_idle busy),
        JobSystem.processLoop_keys kept⟩
  | startExecution jobId =>
      have worked := JobSystem.startExecution_worksOn kept stepped
      exact ⟨worked.less kept, worked.keys⟩
  | wakeExecution jobId =>
      have worked := JobSystem.wakeExecution_worksOn kept stepped
      exact ⟨worked.less kept, worked.keys⟩

theorem JobSystem.Kept.paid (kept : system.Kept) {action : PoolAction}
    (stepped : system.poolStep action = some next) :
    next.work + (action.works system).toNat ≤ system.work + action.charge := by
  cases works : action.works system with
  | true =>
      have less := (kept.working works stepped).1
      simp only [Bool.toNat_true]
      omega
  | false =>
      simp only [Bool.toNat_false, Nat.add_zero]
      cases action with
      | submitJob jobType key payload clock maxAttempts => exact submit_work kept stepped
      | requestCancel jobId =>
          cases stepped
          exact requestCancel_work system jobId
      | processLoop worker =>
          cases stepped
          exact (processLoop_work kept).1
      | startExecution | wakeExecution => cases works

/-- However clients, loops and executions interleave, the pool does no more than it was
asked for: three steps for each attempt of a job, and one for a cancellation. -/
theorem pool_work_bounded (run : Run JobSystem.poolStep JobSystem.initial history system) :
    system.work + (history.map fun transition =>
        (transition.label.works transition.source).toNat).sum ≤
      (history.map fun transition => transition.label.charge).sum := by
  have bounded := run.amortized JobSystem.work
    (fun transition => (transition.label.works transition.source).toNat)
    (fun transition => transition.label.charge)
    (fun _ _ _ _ previous stepped => (run_kept previous).paid stepped)
  exact bounded.trans (Nat.le_of_eq (Nat.zero_add _))

/-- Before the pool is drained there is something that it can do. -/
theorem JobSystem.Kept.enabled (kept : system.Kept) (busy : ¬ Drained system) :
    ∃ action next, PoolAction.works system action = true ∧ system.poolStep action = some next := by
  cases executions : system.executions with
  | cons execution rest =>
      obtain ⟨jobId, phase⟩ := execution
      have member : ⟨jobId, phase⟩ ∈ system.executions := by simp [executions]
      cases phase with
      | created =>
          have created : 0 < (system.lifeOf jobId).created := List.count_pos_iff.mpr member
          obtain ⟨job, found⟩ := kept.record jobId (by omega)
          have started : system.startExecution jobId = some { system with
              executions := ⟨jobId, .computing⟩ :: system.executions.erase ⟨jobId, .created⟩ } := by
            simp only [startExecution, if_pos member, found]
          exact ⟨.startExecution jobId, _, rfl, started⟩
      | computing =>
          have woken : system.wakeExecution jobId = some {
              store := system.store.completeExecution jobId
              executions := system.executions.erase ⟨jobId, .computing⟩ } := if_pos member
          exact ⟨.wakeExecution jobId, _, rfl, woken⟩
  | nil =>
      refine ⟨.processLoop 0, _, ?_, rfl⟩
      by_contra idle
      have quiet : system.store.idle = true := by simpa [PoolAction.works] using idle
      refine busy ⟨executions, fun job member => ?_⟩
      obtain ⟨notRequested, notQueued⟩ := SQLiteJobStore.idle_statuses quiet job member
      have manned := kept.manned job.jobId job.ledger (kept.indexed.ledgerOf_of_mem member)
      cases status : job.status with
      | queued => exact absurd status notQueued
      | cancelRequested => exact absurd status notRequested
      | running =>
          have inFlight := manned status
          simp [lifeOf, executions] at inFlight
      | succeeded => exact .inl rfl
      | failed => exact .inr (.inl rfl)
      | cancelled => exact .inr (.inr rfl)

/-- Once the clients are silent, every schedule of loops and executions ends every job, and
no schedule gets stuck before. -/
theorem pool_drains (run : Run JobSystem.poolStep JobSystem.initial history system) :
    Settles JobSystem.poolStep (fun state action => PoolAction.works state action = true) Drained
      (fun later final => Drained final ∧ final.store.db.keys = system.store.db.keys ∧
        later.length ≤ system.work) [] system := by
  let holds : JobSystem → Prop := fun state =>
    state.Kept ∧ (∃ past, Run JobSystem.poolStep JobSystem.initial past state) ∧
      state.store.db.keys = system.store.db.keys
  have base : holds system := ⟨run_kept run, ⟨history, run⟩, rfl⟩
  refine Settles.mono ?_ (Settles.of_measure holds JobSystem.work ?_ ?_ base system.work ?_)
  · rintro later final ⟨⟨_, _, keys⟩, drained, short⟩
    exact ⟨drained, keys, short⟩
  · rintro state action after ⟨kept, ⟨past, previous⟩, keys⟩ _ works stepped
    obtain ⟨less, same⟩ := kept.working works stepped
    have reached := previous.snoc stepped
    exact ⟨⟨run_kept reached, ⟨_, reached⟩, same.trans keys⟩, less⟩
  · rintro state ⟨kept, _, _⟩ busy
    exact kept.enabled busy
  · simp

end Runs

/-- A job that fails twice takes all of the steps that its budget pays for. -/
theorem pool_work_bounded_tight :
    ∃ history system, Run JobSystem.poolStep JobSystem.initial history system ∧
      (history.map fun transition => transition.label.charge).sum = 6 ∧
      (history.map fun transition =>
        (transition.label.works transition.source).toNat).sum = 6 ∧
      system.work + 6 ≤ 6 := by
  obtain ⟨history, system, run, _, observed⟩ :=
    execute_observed JobSystem.poolStep JobSystem.initial
      [.submitJob "backtest" "key_fail" [("force_fail", .bool true)] 0 2, .processLoop 0,
        .processLoop 1, .startExecution (jobIdAt 0), .wakeExecution (jobIdAt 0), .processLoop 1,
        .startExecution (jobIdAt 0), .processLoop 0, .wakeExecution (jobIdAt 0), .processLoop 0]
      (fun outcome => ((outcome.1.map fun transition => transition.label.charge).sum,
        (outcome.1.map fun transition =>
          (transition.label.works transition.source).toNat).sum)) (6, 6) (by decide +kernel)
  obtain ⟨charged, worked⟩ := Prod.mk.inj observed
  have bounded := pool_work_bounded run
  dsimp only at charged worked
  rw [charged, worked] at bounded
  exact ⟨history, system, run, charged, worked, bounded⟩

/-- A job in its second attempt, one that waits and one that is to be cancelled. -/
theorem pool_drains_after_retry :
    ∃ history system, Run JobSystem.poolStep JobSystem.initial history system ∧
      system.store.jobs.map (·.status) = [.running, .queued, .cancelRequested] ∧
      Settles JobSystem.poolStep (fun state action => PoolAction.works state action = true)
        Drained (fun later final => Drained final ∧
          final.store.db.keys = system.store.db.keys ∧ later.length ≤ system.work) [] system := by
  obtain ⟨history, system, run, _, statuses⟩ :=
    execute_observed JobSystem.poolStep JobSystem.initial
      [.submitJob "backtest" "key_fail" [("force_fail", .bool true)] 0 2, .processLoop 0,
        .startExecution (jobIdAt 0), .wakeExecution (jobIdAt 0), .processLoop 1,
        .submitJob "backtest" "key_wait" [] 1 3, .submitJob "backtest" "key_stop" [] 2 3,
        .requestCancel (jobIdAt 2)]
      (fun outcome => outcome.2.store.jobs.map (·.status)) [.running, .queued, .cancelRequested]
      (by decide +kernel)
  exact ⟨history, system, run, statuses, pool_drains run⟩

end DurableAgent.Jobs
