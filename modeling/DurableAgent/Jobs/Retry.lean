import DurableAgent.Jobs.Worker

/-!
# Retries and exclusive execution

Several polling loops share one store in one event loop. Every job of the store
leads a life of its own; what the loops, the executions and the clients do to
it is one step of that life.
-/

set_option autoImplicit false

namespace DurableAgent.Jobs

open Library Python

inductive PoolAction where
  | submitJob (jobType idempotencyKey : String) (payload : Dict) (clock maxAttempts : Nat)
  | requestCancel (jobId : String)
  | processLoop (worker : Nat)
  | startExecution (jobId : String)
  | wakeExecution (jobId : String)

/-- `update_job_status(job_id, "cancel_requested")`, whatever the status is. -/
def JobSystem.markCancelRequested (system : JobSystem) (jobId : String) : JobSystem :=
  { system with store := (system.store.updateJobStatus jobId .cancelRequested none none).2 }

/-- The iterations of all loops are alike: they share the store and keep nothing
of their own. -/
def JobSystem.poolStep (system : JobSystem) : PoolAction → Option JobSystem
  | .submitJob jobType idempotencyKey payload clock maxAttempts =>
      system.submit jobType idempotencyKey payload clock maxAttempts
  | .requestCancel jobId => some (system.markCancelRequested jobId)
  | .processLoop _ => some system.acknowledge.claim
  | .startExecution jobId => system.startExecution jobId
  | .wakeExecution jobId => system.wakeExecution jobId

/-- A loop claims the job and creates an execution of it. -/
def dispatches (jobId : String) (transition : Transition JobSystem PoolAction) : Bool :=
  match transition.label with
  | .processLoop _ =>
      transition.source.acknowledge.store.fetchNextQueuedJob.any fun job =>
        decide (job.jobId = jobId)
  | _ => false

def begins (jobId : String) (transition : Transition JobSystem PoolAction) : Bool :=
  match transition.label with
  | .startExecution other => decide (other = jobId)
  | _ => false

structure Ledger where
  status : JobStatus
  attempts : Nat
  budget : Nat
  deriving DecidableEq, Repr

def JobRecord.ledger (job : JobRecord) : Ledger :=
  ⟨job.status, job.attemptCount, job.maxAttempts⟩

/-- A job with its executions in flight, those created and those computing. -/
structure JobLife where
  ledger : Option Ledger
  created : Nat
  computing : Nat

inductive LifeEvent where
  | quiet
  | dispatched
  | begun
  deriving DecidableEq

def LifeEvent.dispatches (event : LifeEvent) : Nat := if event = .dispatched then 1 else 0

def LifeEvent.begins (event : LifeEvent) : Nat := if event = .begun then 1 else 0

inductive LifeStep (life : JobLife) : LifeEvent → JobLife → Prop where
  | rest : LifeStep life .quiet life
  | arrive (budget : Nat) :
      life.ledger = none →
      LifeStep life .quiet { life with ledger := some ⟨.queued, 0, budget⟩ }
  | withdraw (ledger : Ledger) (status : JobStatus) :
      life.ledger = some ledger → status = .cancelRequested ∨ status = .cancelled →
      LifeStep life .quiet { life with ledger := some { ledger with status := status } }
  | dispatch (ledger : Ledger) :
      life.ledger = some ledger → ledger.status = .queued →
      LifeStep life .dispatched {
        ledger := some ⟨.running, ledger.attempts + 1, ledger.budget⟩
        created := life.created + 1
        computing := life.computing }
  | begin :
      0 < life.created →
      LifeStep life .begun {
        ledger := life.ledger
        created := life.created - 1
        computing := life.computing + 1 }
  | settle (ledger : Ledger) (status : JobStatus) :
      life.ledger = some ledger → 0 < life.computing →
      (status = .queued → ledger.attempts < ledger.budget) →
      (status = .failed → ¬ ledger.attempts < ledger.budget) →
      LifeStep life .quiet {
        ledger := some { ledger with status := status }
        created := life.created
        computing := life.computing - 1 }

/-- The attempts within a positive budget. -/
structure Ledger.Within (ledger : Ledger) : Prop where
  bounded : ledger.attempts ≤ ledger.budget
  queued : ledger.status = .queued → ledger.attempts < ledger.budget
  failed : ledger.status = .failed → ledger.attempts = ledger.budget

def Ledger.count : Option Ledger → Nat
  | some ledger => ledger.attempts
  | none => 0

/-- A life after so many dispatches and so many beginnings. -/
structure JobLife.Sound (life : JobLife) (dispatched begun : Nat) : Prop where
  counted : Ledger.count life.ledger = dispatched
  accounted : dispatched = begun + life.created
  single : life.created + life.computing ≤ 1
  absent : life.ledger = none → life.created + life.computing = 0
  idle : ∀ ledger, life.ledger = some ledger → ledger.status = .queued →
    life.created + life.computing = 0
  within : ∀ ledger, life.ledger = some ledger → 1 ≤ ledger.budget → ledger.Within

namespace JobLife.Sound

variable {life next : JobLife} {dispatched begun : Nat} {event : LifeEvent}

theorem unborn : (⟨none, 0, 0⟩ : JobLife).Sound 0 0 := by
  constructor <;> simp [Ledger.count]

theorem step (sound : life.Sound dispatched begun) (taken : LifeStep life event next) :
    next.Sound (dispatched + event.dispatches) (begun + event.begins) := by
  obtain ⟨counted, accounted, single, absent, idle, within⟩ := sound
  cases taken with
  | rest => exact ⟨counted, accounted, single, absent, idle, within⟩
  | arrive budget unknown =>
      have none := absent unknown
      rw [unknown] at counted
      refine ⟨counted, accounted, single, by simp, ?_, ?_⟩
      · intro ledger same queued
        exact none
      · intro ledger same positive
        cases same
        exact ⟨by simp, fun _ => positive, by simp⟩
  | withdraw ledger status stored withdrawn =>
      rw [stored] at counted
      refine ⟨counted, accounted, single, by simp, ?_, ?_⟩
      · intro after same queued
        cases same
        simp only at queued
        simp [queued] at withdrawn
      · intro after same positive
        cases same
        have before := within ledger stored positive
        refine ⟨before.bounded, ?_, ?_⟩
        · intro queued
          simp only at queued
          simp [queued] at withdrawn
        · intro failed
          simp only at failed
          simp [failed] at withdrawn
  | dispatch ledger stored queued =>
      have none := idle ledger stored queued
      rw [stored] at counted
      simp only [Ledger.count] at counted
      refine ⟨?_, ?_, ?_, by simp, ?_, ?_⟩
      · simp [Ledger.count, LifeEvent.dispatches, counted]
      · simp only [LifeEvent.dispatches, LifeEvent.begins]
        simp
        omega
      · simp only
        omega
      · intro after same running
        cases same
        simp at running
      · intro after same positive
        cases same
        have before := within ledger stored positive
        exact ⟨before.queued queued, by simp, by simp⟩
  | begin created =>
      refine ⟨counted, ?_, ?_, ?_, ?_, within⟩
      · simp only [LifeEvent.dispatches, LifeEvent.begins]
        simp
        omega
      · simp only
        omega
      · intro unknown
        have none := absent unknown
        omega
      · intro ledger stored queued
        have none := idle ledger stored queued
        omega
  | settle ledger status stored computing retried exhausted =>
      rw [stored] at counted
      refine ⟨counted, accounted, ?_, by simp, ?_, ?_⟩
      · simp only
        omega
      · intro after same queued
        simp only
        omega
      · intro after same positive
        cases same
        have before := within ledger stored positive
        refine ⟨before.bounded, retried, ?_⟩
        intro failed
        have reached := exhausted failed
        have bounded := before.bounded
        simp only at bounded ⊢
        omega

end JobLife.Sound

def SQLiteJobStore.ledgerOf (store : SQLiteJobStore) (jobId : String) : Option Ledger :=
  (store.getJob jobId).map JobRecord.ledger

def JobSystem.lifeOf (system : JobSystem) (jobId : String) : JobLife where
  ledger := system.store.ledgerOf jobId
  created := system.executions.count ⟨jobId, .created⟩
  computing := system.executions.count ⟨jobId, .computing⟩

namespace SQLiteJobStore

theorem ledgerOf_mutate (store : SQLiteJobStore) (jobId other : String)
    {change : JobRecord → JobRecord} (effect : Ledger → Ledger)
    (acts : ∀ job, (change job).ledger = effect job.ledger) :
    (store.mutate jobId change).ledgerOf other =
      if other = jobId then (store.ledgerOf other).map effect else store.ledgerOf other := by
  unfold ledgerOf
  rw [getJob_mutate]
  split
  · rw [Option.map_map, Option.map_map]
    congr 1
    funext job
    exact acts job
  · rfl

theorem ledgerOf_update (store : SQLiteJobStore) (jobId other : String) (status : JobStatus)
    (result : Option JobResult) (error : Option String) :
    (store.updateJobStatus jobId status result error).2.ledgerOf other =
      if other = jobId then
        (store.ledgerOf other).map fun ledger => { ledger with status := status }
      else store.ledgerOf other := by
  unfold updateJobStatus
  apply ledgerOf_mutate _ _ _ fun ledger => { ledger with status := status }
  intro job
  rfl

theorem ledgerOf_claimJob (store : SQLiteJobStore) (job : JobRecord) (other : String) :
    (store.claimJob job).ledgerOf other =
      if other = job.jobId then
        (store.ledgerOf other).map fun ledger => ⟨.running, ledger.attempts + 1, ledger.budget⟩
      else store.ledgerOf other := by
  unfold claimJob
  rw [ledgerOf_mutate _ _ _ fun ledger => { ledger with attempts := ledger.attempts + 1 },
    ledgerOf_update]
  · split
    · rw [Option.map_map]
      rfl
    · rfl
  · intro claimed
    rfl

theorem Indexed.ledgerOf_of_mem {store : SQLiteJobStore} (indexed : store.Indexed)
    {job : JobRecord} (member : job ∈ store.jobs) :
    store.ledgerOf job.jobId = some job.ledger := by
  unfold ledgerOf
  rw [indexed.of_mem member]
  rfl

end SQLiteJobStore

theorem JobRecord.wakeOutcome_queued (job : JobRecord) {jobId : String}
    (queued : (job.wakeOutcome jobId).status = .queued) :
    job.ledger.attempts < job.ledger.budget := by
  unfold wakeOutcome at queued
  split_ifs at queued with _ _ remaining
  exact remaining

theorem JobRecord.wakeOutcome_failed (job : JobRecord) {jobId : String}
    (failed : (job.wakeOutcome jobId).status = .failed) :
    ¬ job.ledger.attempts < job.ledger.budget := by
  unfold wakeOutcome at failed
  split_ifs at failed with _ _ remaining
  exact remaining

namespace JobSystem

variable {system next : JobSystem}

theorem update_life (system : JobSystem) (jobId other : String) {status : JobStatus}
    (withdrawn : status = .cancelRequested ∨ status = .cancelled)
    (result : Option JobResult) (error : Option String) :
    LifeStep (system.lifeOf other) .quiet
      (lifeOf { system with store := (system.store.updateJobStatus jobId status result error).2 }
        other) := by
  unfold lifeOf
  rw [SQLiteJobStore.ledgerOf_update]
  split
  · cases stored : system.store.ledgerOf other with
    | none => exact .rest
    | some ledger => exact .withdraw ledger status rfl withdrawn
  · exact .rest

theorem acknowledge_life (system : JobSystem) (jobId : String) :
    LifeStep (system.lifeOf jobId) .quiet (system.acknowledge.lifeOf jobId) := by
  unfold acknowledge SQLiteJobStore.acknowledgeCancellation
  cases system.store.fetchNextCancelRequestedJob with
  | none => exact .rest
  | some job => exact system.update_life job.jobId jobId (.inr rfl) _ _

theorem claim_life (indexed : system.store.Indexed) (jobId : String) :
    LifeStep (system.lifeOf jobId)
      (if system.store.fetchNextQueuedJob.any fun job => decide (job.jobId = jobId) then
        .dispatched else .quiet)
      (system.claim.lifeOf jobId) := by
  unfold claim
  cases fetched : system.store.fetchNextQueuedJob with
  | none => exact .rest
  | some job =>
      obtain ⟨member, queued⟩ := SQLiteJobStore.fetchNextQueuedJob_some fetched
      by_cases same : job.jobId = jobId
      · subst jobId
        have stored := indexed.ledgerOf_of_mem member
        have life : (lifeOf
            { store := system.store.claimJob job
              executions := ⟨job.jobId, .created⟩ :: system.executions } job.jobId) =
            { ledger := some ⟨.running, job.ledger.attempts + 1, job.ledger.budget⟩
              created := (system.lifeOf job.jobId).created + 1
              computing := (system.lifeOf job.jobId).computing } := by
          unfold lifeOf
          rw [SQLiteJobStore.ledgerOf_claimJob, if_pos rfl, stored]
          simp
        simp only [Option.any_some, decide_true, if_true]
        rw [life]
        exact .dispatch job.ledger stored queued
      · have life : (lifeOf
            { store := system.store.claimJob job
              executions := ⟨job.jobId, .created⟩ :: system.executions } jobId) =
            system.lifeOf jobId := by
          unfold lifeOf
          rw [SQLiteJobStore.ledgerOf_claimJob, if_neg (Ne.symm same)]
          simp [same]
        simp only [Option.any_some, same, decide_false]
        rw [life]
        exact .rest

theorem submit_life {jobType key : String} {payload : Dict} {clock maxAttempts : Nat}
    (submitted : system.submit jobType key payload clock maxAttempts = some next)
    (jobId : String) : LifeStep (system.lifeOf jobId) .quiet (next.lifeOf jobId) := by
  rcases submit_inv submitted with rfl | ⟨unknown, taken, rfl⟩
  · exact .rest
  · rw [SQLiteJobStore.submitJob_of_unknown unknown]
    unfold lifeOf
    dsimp only
    rw [SQLiteJobStore.ledgerOf_mutate _ _ _ (fun ledger => { ledger with budget := maxAttempts })
      (fun _ => rfl)]
    by_cases same : jobId = jobIdAt clock
    · subst jobId
      have unknown : system.store.ledgerOf (jobIdAt clock) = none := by
        simp [SQLiteJobStore.ledgerOf, taken]
      have stored : SQLiteJobStore.ledgerOf
          ⟨system.store.db.insert (jobIdAt clock) (queuedRecord jobType key payload clock)⟩
          (jobIdAt clock) = some ⟨.queued, 0, 3⟩ := by
        unfold SQLiteJobStore.ledgerOf
        rw [SQLiteJobStore.getJob_insert_self]
        rfl
      rw [if_pos rfl]
      have arrived := @LifeStep.arrive (system.lifeOf (jobIdAt clock)) maxAttempts unknown
      exact stored ▸ arrived
    · have kept : SQLiteJobStore.ledgerOf
          ⟨system.store.db.insert (jobIdAt clock) (queuedRecord jobType key payload clock)⟩
          jobId = system.store.ledgerOf jobId := by
        unfold SQLiteJobStore.ledgerOf
        rw [SQLiteJobStore.getJob_insert_of_ne _ same]
      rw [if_neg same]
      exact kept ▸ .rest

/-- An execution belongs to a stored job. -/
theorem record_of_execution {jobId : String}
    (known : 0 < (system.lifeOf jobId).created + (system.lifeOf jobId).computing →
      (system.lifeOf jobId).ledger ≠ none)
    (execution : 0 < (system.lifeOf jobId).created + (system.lifeOf jobId).computing) :
    ∃ job, system.store.getJob jobId = some job := by
  refine Option.ne_none_iff_exists'.mp fun absent => known execution ?_
  simp [lifeOf, SQLiteJobStore.ledgerOf, absent]

theorem startExecution_life {jobId : String}
    (known : 0 < (system.lifeOf jobId).created + (system.lifeOf jobId).computing →
      (system.lifeOf jobId).ledger ≠ none)
    (started : system.startExecution jobId = some next) (other : String) :
    LifeStep (system.lifeOf other) (if jobId = other then .begun else .quiet)
      (next.lifeOf other) := by
  unfold startExecution at started
  split at started
  · next member =>
      have created : 0 < (system.lifeOf jobId).created := List.count_pos_iff.mpr member
      obtain ⟨job, found⟩ := record_of_execution known (by omega)
      simp only [found, Option.some.injEq] at started
      subst next
      by_cases same : jobId = other
      · subst other
        have life : lifeOf
            { system with
              executions := ⟨jobId, .computing⟩ :: system.executions.erase ⟨jobId, .created⟩ }
            jobId =
            { ledger := (system.lifeOf jobId).ledger
              created := (system.lifeOf jobId).created - 1
              computing := (system.lifeOf jobId).computing + 1 } := by
          simp [lifeOf]
        rw [if_pos rfl, life]
        exact .begin created
      · have life : lifeOf
            { system with
              executions := ⟨jobId, .computing⟩ :: system.executions.erase ⟨jobId, .created⟩ }
            other = system.lifeOf other := by
          simp [lifeOf, List.count_erase, same]
        rw [if_neg same, life]
        exact .rest
  · cases started

theorem wakeExecution_life {jobId : String}
    (known : 0 < (system.lifeOf jobId).created + (system.lifeOf jobId).computing →
      (system.lifeOf jobId).ledger ≠ none)
    (woken : system.wakeExecution jobId = some next) (other : String) :
    LifeStep (system.lifeOf other) .quiet (next.lifeOf other) := by
  obtain ⟨member, rfl⟩ := wakeExecution_inv woken
  have computing : 0 < (system.lifeOf jobId).computing := List.count_pos_iff.mpr member
  obtain ⟨job, found⟩ := record_of_execution known (by omega)
  unfold SQLiteJobStore.completeExecution
  rw [found]
  by_cases same : other = jobId
  · subst other
    have stored : system.store.ledgerOf jobId = some job.ledger := by
      simp [SQLiteJobStore.ledgerOf, found]
    have settled := @LifeStep.settle (system.lifeOf jobId) job.ledger
      (job.wakeOutcome jobId).status stored computing job.wakeOutcome_queued
      job.wakeOutcome_failed
    simpa [lifeOf, SQLiteJobStore.ledgerOf_update, stored, List.count_erase] using settled
  · have life : lifeOf
        { store := (system.store.updateJobStatus jobId (job.wakeOutcome jobId).status
            (job.wakeOutcome jobId).result (job.wakeOutcome jobId).error).2
          executions := system.executions.erase ⟨jobId, .computing⟩ } other =
        system.lifeOf other := by
      simp [lifeOf, SQLiteJobStore.ledgerOf_update, same]
    rw [life]
    exact .rest

end JobSystem

/-- Every job leads a sound life. -/
structure Tracked (history : List (Transition JobSystem PoolAction)) (system : JobSystem) :
    Prop where
  indexed : system.store.Indexed
  sound : ∀ jobId, (system.lifeOf jobId).Sound (history.countP (dispatches jobId))
    (history.countP (begins jobId))

namespace Tracked

variable {history : List (Transition JobSystem PoolAction)} {system next : JobSystem}

theorem initial : Tracked [] JobSystem.initial where
  indexed := JobSystem.initial_indexed
  sound _ := JobLife.Sound.unborn

theorem snoc (tracked : Tracked history system) {action : PoolAction}
    (indexed : next.store.Indexed) {event : String → LifeEvent}
    (taken : ∀ jobId, LifeStep (system.lifeOf jobId) (event jobId) (next.lifeOf jobId))
    (dispatched : ∀ jobId,
      dispatches jobId ⟨system, action, next⟩ = decide (event jobId = .dispatched))
    (begun : ∀ jobId, begins jobId ⟨system, action, next⟩ = decide (event jobId = .begun)) :
    Tracked (history ++ [⟨system, action, next⟩]) next := by
  refine ⟨indexed, ?_⟩
  intro jobId
  have advanced := (tracked.sound jobId).step (taken jobId)
  rw [List.countP_append, List.countP_append, List.countP_singleton, List.countP_singleton,
    dispatched, begun]
  simpa [LifeEvent.dispatches, LifeEvent.begins] using advanced

theorem stored_of_inFlight (tracked : Tracked history system) {jobId : String}
    (inFlight : 0 < (system.lifeOf jobId).created + (system.lifeOf jobId).computing) :
    (system.lifeOf jobId).ledger ≠ none := by
  intro unknown
  have none := (tracked.sound jobId).absent unknown
  omega

theorem snoc_quiet (tracked : Tracked history system) {action : PoolAction}
    (indexed : next.store.Indexed)
    (taken : ∀ jobId, LifeStep (system.lifeOf jobId) .quiet (next.lifeOf jobId))
    (dispatched : ∀ jobId, dispatches jobId ⟨system, action, next⟩ = false)
    (begun : ∀ jobId, begins jobId ⟨system, action, next⟩ = false) :
    Tracked (history ++ [⟨system, action, next⟩]) next :=
  tracked.snoc indexed taken dispatched begun

/-- An iteration acknowledges one cancellation and then claims one job. -/
theorem processLoop (tracked : Tracked history system) (worker : Nat) :
    Tracked (history ++ [⟨system, .processLoop worker, system.acknowledge.claim⟩])
      system.acknowledge.claim := by
  have acknowledged := tracked.indexed.acknowledgeCancellation
  refine ⟨JobSystem.claim_indexed acknowledged, ?_⟩
  intro jobId
  have withdrawn := (tracked.sound jobId).step (system.acknowledge_life jobId)
  have claimed := withdrawn.step (JobSystem.claim_life acknowledged jobId)
  rw [List.countP_append, List.countP_append, List.countP_singleton, List.countP_singleton]
  by_cases fetched : (system.acknowledge.store.fetchNextQueuedJob.any fun job =>
    decide (job.jobId = jobId)) = true
  · rw [if_pos fetched] at claimed
    simpa [dispatches, begins, fetched, LifeEvent.dispatches, LifeEvent.begins] using claimed
  · rw [if_neg fetched] at claimed
    simpa [dispatches, begins, fetched, LifeEvent.dispatches, LifeEvent.begins] using claimed

theorem step (tracked : Tracked history system) {action : PoolAction}
    (stepped : system.poolStep action = some next) :
    Tracked (history ++ [⟨system, action, next⟩]) next := by
  cases action with
  | submitJob jobType key payload clock maxAttempts =>
      exact tracked.snoc_quiet (JobSystem.submit_indexed tracked.indexed stepped)
        (JobSystem.submit_life stepped) (fun _ => rfl) (fun _ => rfl)
  | requestCancel jobId =>
      cases stepped
      exact tracked.snoc_quiet (tracked.indexed.mutate jobId fun _ => rfl)
        (fun other => system.update_life jobId other (.inl rfl) none none)
        (fun _ => rfl) (fun _ => rfl)
  | processLoop worker =>
      cases stepped
      exact tracked.processLoop worker
  | startExecution jobId =>
      refine tracked.snoc (JobSystem.startExecution_indexed tracked.indexed stepped)
        (JobSystem.startExecution_life tracked.stored_of_inFlight stepped) ?_ ?_
      · intro other
        by_cases same : jobId = other <;> simp [dispatches, same]
      · intro other
        by_cases same : jobId = other <;> simp [begins, same]
  | wakeExecution jobId =>
      exact tracked.snoc_quiet (JobSystem.wakeExecution_indexed tracked.indexed stepped)
        (JobSystem.wakeExecution_life tracked.stored_of_inFlight stepped)
        (fun _ => rfl) (fun _ => rfl)

end Tracked

def JobSystem.inFlight (system : JobSystem) (jobId : String) : List Execution :=
  system.executions.filter fun execution => decide (execution.jobId = jobId)

theorem JobSystem.inFlight_length (system : JobSystem) (jobId : String) :
    (system.inFlight jobId).length =
      (system.lifeOf jobId).created + (system.lifeOf jobId).computing := by
  unfold inFlight lifeOf
  dsimp only
  induction system.executions with
  | nil => rfl
  | cons execution rest ih =>
      rcases execution with ⟨owner, phase⟩
      by_cases same : owner = jobId
      · subst owner
        cases phase with
        | created => simp [ih]; omega
        | computing => simp [ih]; omega
      · simp [same, ih]

section Runs

variable {history : List (Transition JobSystem PoolAction)} {system : JobSystem}

theorem run_tracked (run : Run JobSystem.poolStep JobSystem.initial history system) :
    Tracked history system := by
  induction run with
  | nil => exact Tracked.initial
  | snoc _ stepped ih => exact ih.step stepped

/-- The attempt counter counts the executions created, those that have begun and
the one that has not; it keeps within the budget and reaches it in a failure. -/
theorem attempts_within_budget (run : Run JobSystem.poolStep JobSystem.initial history system)
    {jobId : String} {job : JobRecord} (stored : system.store.getJob jobId = some job)
    (positive : 1 ≤ job.maxAttempts) :
    job.attemptCount = history.countP (dispatches jobId) ∧
      job.attemptCount =
        history.countP (begins jobId) + system.executions.count ⟨jobId, .created⟩ ∧
      job.attemptCount ≤ job.maxAttempts ∧
      (system.inFlight jobId).length ≤ 1 ∧
      (job.status = .failed → job.attemptCount = job.maxAttempts) := by
  have sound := (run_tracked run).sound jobId
  have ledger : (system.lifeOf jobId).ledger = some job.ledger := by
    simp [JobSystem.lifeOf, SQLiteJobStore.ledgerOf, stored]
  have counted := sound.counted
  rw [ledger] at counted
  have within := sound.within job.ledger ledger positive
  refine ⟨counted, ?_, within.bounded, ?_, within.failed⟩
  · exact counted.trans sound.accounted
  · rw [system.inFlight_length]
    exact sound.single

end Runs

/-- Two loops share a job that fails twice. -/
theorem attempts_within_budget_after_retry :
    ∃ history system job, Run JobSystem.poolStep JobSystem.initial history system ∧
      system.store.getJob (jobIdAt 0) = some job ∧ job.status = .failed ∧
      job.attemptCount = 2 ∧ history.countP (dispatches (jobIdAt 0)) = 2 := by
  obtain ⟨history, system, run, _, observed⟩ :=
    execute_observed JobSystem.poolStep JobSystem.initial
      [.submitJob "backtest" "key_fail" [("force_fail", .bool true)] 0 2, .processLoop 0,
        .processLoop 1, .startExecution (jobIdAt 0), .wakeExecution (jobIdAt 0), .processLoop 1,
        .startExecution (jobIdAt 0), .processLoop 0, .wakeExecution (jobIdAt 0)]
      (fun outcome => (outcome.2.store.getJob (jobIdAt 0)).map fun job =>
        (job.status, job.maxAttempts)) (some (.failed, 2)) (by decide +kernel)
  obtain ⟨job, stored, seen⟩ := Option.map_eq_some_iff.mp observed
  obtain ⟨failed, budget⟩ := Prod.mk.inj seen
  obtain ⟨counted, _, _, _, exhausted⟩ :=
    attempts_within_budget run stored (by rw [budget]; decide)
  have attempts := exhausted failed
  rw [budget] at attempts
  exact ⟨history, system, job, run, stored, failed, attempts, counted ▸ attempts⟩

end DurableAgent.Jobs
