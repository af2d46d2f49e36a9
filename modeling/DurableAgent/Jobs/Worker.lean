import DurableAgent.Jobs.Store
import DurableAgent.Library.TransitionSystem

/-!
# The asynchronous worker

`jobs/worker.py`: the polling loop and the executions it starts, with the
client steps they interleave with. One action is the code between two awaits.
-/

set_option autoImplicit false

namespace DurableAgent.Jobs

open Library Python

/-- An execution has been created by the loop, or sleeps in its computation. -/
inductive Phase where
  | created
  | computing
  deriving DecidableEq, Repr

structure Execution where
  jobId : String
  phase : Phase
  deriving DecidableEq, Repr

structure JobSystem where
  store : SQLiteJobStore
  executions : List Execution

def cancellationNote : String := "Cancelled gracefully by human request."

def processedArtifact (jobId : String) : ArtifactRef where
  artifactId := "art_" ++ jobId
  uri := "storage://macro/processed_" ++ jobId ++ ".csv"

def processedResult (jobId : String) : JobResult where
  summary := "ARIMA rolling done."
  artifactRef := processedArtifact jobId

structure StatusUpdate where
  status : JobStatus
  result : Option JobResult := none
  error : Option String := none

/-- The update that an execution of the job makes when it wakes up. Records are
never removed and identifiers are unique, so the record fetched at the start of
the execution and the one fetched at its wake-up are the same object. -/
def JobRecord.wakeOutcome (job : JobRecord) (jobId : String) : StatusUpdate :=
  if job.status = .cancelRequested then
    { status := .cancelled, error := some cancellationNote }
  else if ((Dict.get? job.payload "force_fail").getD .none).truthy then
    if job.attemptCount < job.maxAttempts then
      { status := .queued }
    else
      { status := .failed, error := some "Transient math convergence error." }
  else
    { status := .succeeded, result := some (processedResult jobId) }

namespace SQLiteJobStore

/-- The cancellation branch of `_process_loop`. -/
def acknowledgeCancellation (store : SQLiteJobStore) : SQLiteJobStore :=
  match store.fetchNextCancelRequestedJob with
  | some job => (store.updateJobStatus job.jobId .cancelled none (some cancellationNote)).2
  | none => store

def claimJob (store : SQLiteJobStore) (job : JobRecord) : SQLiteJobStore :=
  (store.updateJobStatus job.jobId .running none none).2.mutate job.jobId
    fun claimed => { claimed with attemptCount := claimed.attemptCount + 1 }

/-- `_execute_job_core` from its wake-up to its end. -/
def completeExecution (store : SQLiteJobStore) (jobId : String) : SQLiteJobStore :=
  match store.getJob jobId with
  | none => store
  | some job =>
      let outcome := job.wakeOutcome jobId
      (store.updateJobStatus jobId outcome.status outcome.result outcome.error).2

end SQLiteJobStore

inductive WorkerAction where
  | submitJob (jobType idempotencyKey : String) (payload : Dict) (clock maxAttempts : Nat)
  | requestCancel (jobId : String)
  | processLoop
  | startExecution (jobId : String)
  | wakeExecution (jobId : String)

namespace JobSystem

def initial : JobSystem := ⟨.empty, []⟩

def acknowledge (system : JobSystem) : JobSystem :=
  { system with store := system.store.acknowledgeCancellation }

def claim (system : JobSystem) : JobSystem :=
  match system.store.fetchNextQueuedJob with
  | some job =>
      { store := system.store.claimJob job
        executions := ⟨job.jobId, .created⟩ :: system.executions }
  | none => system

/-- A submission whose new identifier is already taken is not enabled: job
identifiers are unique here. The client may set `max_attempts` at once. -/
def submit (system : JobSystem) (jobType idempotencyKey : String) (payload : Dict)
    (clock maxAttempts : Nat) : Option JobSystem :=
  match system.store.findByKey idempotencyKey with
  | some _ => some system
  | none =>
      match system.store.getJob (jobIdAt clock) with
      | some _ => none
      | none =>
          some { system with
            store := (system.store.submitJob jobType idempotencyKey payload clock).2.mutate
              (jobIdAt clock) fun job => { job with maxAttempts := maxAttempts } }

/-- `update_job_status(job_id, "cancel_requested")` on a queued or running job. -/
def requestCancel (system : JobSystem) (jobId : String) : Option JobSystem :=
  match system.store.getJob jobId with
  | some job =>
      if job.status = .queued ∨ job.status = .running then
        some { system with
          store := (system.store.updateJobStatus jobId .cancelRequested none none).2 }
      else none
  | none => none

/-- `_execute_job_core` up to its sleep. -/
def startExecution (system : JobSystem) (jobId : String) : Option JobSystem :=
  if ⟨jobId, .created⟩ ∈ system.executions then
    let remaining := system.executions.erase ⟨jobId, .created⟩
    match system.store.getJob jobId with
    | some _ => some { system with executions := ⟨jobId, .computing⟩ :: remaining }
    | none => some { system with executions := remaining }
  else none

def wakeExecution (system : JobSystem) (jobId : String) : Option JobSystem :=
  if ⟨jobId, .computing⟩ ∈ system.executions then
    some {
      store := system.store.completeExecution jobId
      executions := system.executions.erase ⟨jobId, .computing⟩ }
  else none

def step (system : JobSystem) : WorkerAction → Option JobSystem
  | .submitJob jobType idempotencyKey payload clock maxAttempts =>
      system.submit jobType idempotencyKey payload clock maxAttempts
  | .requestCancel jobId => system.requestCancel jobId
  | .processLoop => some system.acknowledge.claim
  | .startExecution jobId => system.startExecution jobId
  | .wakeExecution jobId => system.wakeExecution jobId

end JobSystem

namespace SQLiteJobStore

theorem Indexed.getJob {store : SQLiteJobStore} (indexed : store.Indexed) {jobId : String}
    {job : JobRecord} (found : store.getJob jobId = some job) : job.jobId = jobId :=
  indexed jobId job (OrderedDict.get?_eq_some_iff.mp found)

theorem Indexed.of_mem {store : SQLiteJobStore} (indexed : store.Indexed) {job : JobRecord}
    (member : job ∈ store.jobs) : store.getJob job.jobId = some job := by
  obtain ⟨jobId, found⟩ := mem_jobs_iff.mp member
  rw [indexed.getJob found]
  exact found

theorem Indexed.mutate {store : SQLiteJobStore} (indexed : store.Indexed) (jobId : String)
    {change : JobRecord → JobRecord} (keeps : ∀ job, (change job).jobId = job.jobId) :
    (store.mutate jobId change).Indexed := by
  intro other job stored
  have found : (store.mutate jobId change).getJob other = some job :=
    OrderedDict.get?_eq_some_iff.mpr stored
  rw [getJob_mutate] at found
  split at found
  · obtain ⟨before, earlier, rfl⟩ := Option.map_eq_some_iff.mp found
    exact (keeps before).trans (indexed.getJob earlier)
  · exact indexed.getJob found

theorem Indexed.insert {store : SQLiteJobStore} (indexed : store.Indexed) (record : JobRecord) :
    (⟨store.db.insert record.jobId record⟩ : SQLiteJobStore).Indexed := by
  intro other job stored
  rcases OrderedDict.mem_entries_insert.mp stored with ⟨rfl, rfl⟩ | ⟨_, old⟩
  · rfl
  · exact indexed other job old

theorem fetchNextQueuedJob_some {store : SQLiteJobStore} {job : JobRecord}
    (fetched : store.fetchNextQueuedJob = some job) : job ∈ store.jobs ∧ job.status = .queued := by
  have status := List.find?_some fetched
  exact ⟨List.mem_of_find?_eq_some fetched, by simpa using status⟩

theorem fetchNextCancelRequestedJob_some {store : SQLiteJobStore} {job : JobRecord}
    (fetched : store.fetchNextCancelRequestedJob = some job) :
    job ∈ store.jobs ∧ job.status = .cancelRequested := by
  have status := List.find?_some fetched
  exact ⟨List.mem_of_find?_eq_some fetched, by simpa using status⟩

def statusOf (store : SQLiteJobStore) (jobId : String) : Option JobStatus :=
  (store.getJob jobId).map (·.status)

theorem statusOf_of_getJob {store : SQLiteJobStore} {jobId : String} {job : JobRecord}
    (found : store.getJob jobId = some job) : store.statusOf jobId = some job.status := by
  unfold statusOf
  rw [found]
  rfl

theorem statusOf_update (store : SQLiteJobStore) (jobId other : String) (status : JobStatus)
    (result : Option JobResult) (error : Option String) :
    (store.updateJobStatus jobId status result error).2.statusOf other =
      if other = jobId then (store.statusOf other).map fun _ => status
      else store.statusOf other := by
  unfold statusOf updateJobStatus
  rw [getJob_mutate]
  split
  · simp only [Option.map_map]
    rfl
  · rfl

theorem statusOf_mutate (store : SQLiteJobStore) (jobId other : String)
    {change : JobRecord → JobRecord} (keeps : ∀ job, (change job).status = job.status) :
    (store.mutate jobId change).statusOf other = store.statusOf other := by
  unfold statusOf
  rw [getJob_mutate]
  split
  · rw [Option.map_map]
    congr 1
    funext job
    exact keeps job
  · rfl

theorem statusOf_insert (store : SQLiteJobStore) (record : JobRecord) (other : String) :
    (⟨store.db.insert record.jobId record⟩ : SQLiteJobStore).statusOf other =
      if other = record.jobId then some record.status else store.statusOf other := by
  unfold statusOf
  split
  · next same =>
      subst other
      rw [getJob_insert_self]
      rfl
  · next different => rw [getJob_insert_of_ne store different]

theorem Indexed.statusOf_of_mem {store : SQLiteJobStore} (indexed : store.Indexed)
    {job : JobRecord} (member : job ∈ store.jobs) :
    store.statusOf job.jobId = some job.status :=
  statusOf_of_getJob (indexed.of_mem member)

theorem Indexed.acknowledgeCancellation {store : SQLiteJobStore} (indexed : store.Indexed) :
    store.acknowledgeCancellation.Indexed := by
  unfold SQLiteJobStore.acknowledgeCancellation
  split
  · exact indexed.mutate _ fun _ => rfl
  · exact indexed

theorem Indexed.claimJob {store : SQLiteJobStore} (indexed : store.Indexed) (job : JobRecord) :
    (store.claimJob job).Indexed := by
  unfold SQLiteJobStore.claimJob
  apply Indexed.mutate
  · exact indexed.mutate _ fun _ => rfl
  · intro claimed
    rfl

theorem Indexed.completeExecution {store : SQLiteJobStore} (indexed : store.Indexed)
    (jobId : String) : (store.completeExecution jobId).Indexed := by
  unfold SQLiteJobStore.completeExecution
  split
  · exact indexed
  · exact indexed.mutate _ fun _ => rfl

theorem statusOf_claimJob (store : SQLiteJobStore) (job : JobRecord) (other : String) :
    (store.claimJob job).statusOf other =
      if other = job.jobId then (store.statusOf other).map fun _ => .running
      else store.statusOf other := by
  unfold claimJob
  rw [statusOf_mutate, statusOf_update]
  intro claimed
  rfl

theorem statusOf_completeExecution (store : SQLiteJobStore) (jobId other : String) :
    (store.completeExecution jobId).statusOf other =
      if other = jobId then (store.getJob other).map fun job => (job.wakeOutcome jobId).status
      else store.statusOf other := by
  unfold completeExecution
  cases found : store.getJob jobId with
  | none =>
      by_cases same : other = jobId
      · subst other
        simp [statusOf, found]
      · simp [same]
  | some job =>
      dsimp only
      rw [statusOf_update]
      by_cases same : other = jobId
      · subst other
        simp [statusOf, found]
      · simp [same]

end SQLiteJobStore

theorem JobSystem.requestCancel_inv {system next : JobSystem} {jobId : String}
    (requested : system.requestCancel jobId = some next) :
    ∃ job, system.store.getJob jobId = some job ∧
      (job.status = .queued ∨ job.status = .running) ∧
      next = { system with
        store := (system.store.updateJobStatus jobId .cancelRequested none none).2 } := by
  unfold requestCancel at requested
  cases found : system.store.getJob jobId with
  | none => simp [found] at requested
  | some job =>
      simp only [found] at requested
      split at requested
      · next pending =>
          cases requested
          exact ⟨job, rfl, pending, rfl⟩
      · cases requested

theorem JobSystem.startExecution_inv {system next : JobSystem} {jobId : String}
    (started : system.startExecution jobId = some next) :
    ⟨jobId, .created⟩ ∈ system.executions ∧ next.store = system.store ∧
      (next.executions = system.executions.erase ⟨jobId, .created⟩ ∨
        next.executions = ⟨jobId, .computing⟩ :: system.executions.erase ⟨jobId, .created⟩) := by
  unfold startExecution at started
  split at started
  · next member =>
      cases found : system.store.getJob jobId with
      | none =>
          simp only [found, Option.some.injEq] at started
          subst next
          exact ⟨member, rfl, .inl rfl⟩
      | some job =>
          simp only [found, Option.some.injEq] at started
          subst next
          exact ⟨member, rfl, .inr rfl⟩
  · cases started

theorem JobSystem.wakeExecution_inv {system next : JobSystem} {jobId : String}
    (woken : system.wakeExecution jobId = some next) :
    ⟨jobId, .computing⟩ ∈ system.executions ∧
      next = {
        store := system.store.completeExecution jobId
        executions := system.executions.erase ⟨jobId, .computing⟩ } := by
  unfold wakeExecution at woken
  split at woken
  · next member =>
      cases woken
      exact ⟨member, rfl⟩
  · cases woken

theorem JobSystem.submit_inv {system next : JobSystem} {jobType key : String} {payload : Dict}
    {clock maxAttempts : Nat}
    (submitted : system.submit jobType key payload clock maxAttempts = some next) :
    next = system ∨
      (system.store.findByKey key = none ∧ system.store.getJob (jobIdAt clock) = none ∧
        next = { system with
          store := (system.store.submitJob jobType key payload clock).2.mutate (jobIdAt clock)
            fun job => { job with maxAttempts := maxAttempts } }) := by
  unfold submit at submitted
  cases found : system.store.findByKey key with
  | some existing =>
      simp only [found, Option.some.injEq] at submitted
      exact .inl submitted.symm
  | none =>
      cases taken : system.store.getJob (jobIdAt clock) with
      | some job => simp [found, taken] at submitted
      | none =>
          simp only [found, taken, Option.some.injEq] at submitted
          exact .inr ⟨rfl, rfl, submitted.symm⟩

theorem JobSystem.submit_cases {system next : JobSystem} {jobType key : String} {payload : Dict}
    {clock maxAttempts : Nat}
    (submitted : system.submit jobType key payload clock maxAttempts = some next) :
    next = system ∨
      (next.executions = system.executions ∧
        system.store.getJob (jobIdAt clock) = none ∧
        (system.store.Indexed → next.store.Indexed) ∧
        ∀ other, next.store.statusOf other =
          if other = jobIdAt clock then some .queued else system.store.statusOf other) := by
  rcases submit_inv submitted with same | ⟨unknown, free, rfl⟩
  · exact .inl same
  · rw [SQLiteJobStore.submitJob_of_unknown unknown]
    refine .inr ⟨rfl, free, ?_, ?_⟩
    · intro indexed
      apply SQLiteJobStore.Indexed.mutate
      · exact indexed.insert (queuedRecord jobType key payload clock)
      · intro job
        rfl
    · intro other
      rw [SQLiteJobStore.statusOf_mutate _ _ _ (by intro job; rfl)]
      exact SQLiteJobStore.statusOf_insert system.store
        (queuedRecord jobType key payload clock) other

namespace JobSystem

variable {system next : JobSystem} {jobId : String}

theorem initial_indexed : initial.store.Indexed := by
  intro jobId job stored
  simp [initial, SQLiteJobStore.empty] at stored

theorem submit_indexed (indexed : system.store.Indexed) {jobType key : String} {payload : Dict}
    {clock maxAttempts : Nat}
    (submitted : system.submit jobType key payload clock maxAttempts = some next) :
    next.store.Indexed := by
  rcases submit_cases submitted with rfl | ⟨_, _, kept, _⟩
  · exact indexed
  · exact kept indexed

theorem claim_indexed (indexed : system.store.Indexed) : system.claim.store.Indexed := by
  unfold claim
  split
  · exact indexed.claimJob _
  · exact indexed

theorem startExecution_indexed (indexed : system.store.Indexed)
    (started : system.startExecution jobId = some next) : next.store.Indexed := by
  obtain ⟨_, sameStore, _⟩ := startExecution_inv started
  exact sameStore ▸ indexed

theorem wakeExecution_indexed (indexed : system.store.Indexed)
    (woken : system.wakeExecution jobId = some next) : next.store.Indexed := by
  obtain ⟨_, rfl⟩ := wakeExecution_inv woken
  exact indexed.completeExecution jobId

end JobSystem

end DurableAgent.Jobs
