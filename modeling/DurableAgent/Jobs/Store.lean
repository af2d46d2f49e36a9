import DurableAgent.Library.OrderedDict
import DurableAgent.Python.Value
import DurableAgent.Python.Text

/-!
# Job records and the job store

`jobs/models.py` and `jobs/store.py`. Every clock reading is a parameter, in
the milliseconds that job identifiers are built from.
-/

set_option autoImplicit false

namespace DurableAgent.Jobs

open Library Python

inductive JobStatus where
  | queued
  | running
  | succeeded
  | failed
  | cancelRequested
  | cancelled
  deriving DecidableEq, Repr

structure ArtifactRef where
  artifactId : String
  uri : String
  deriving DecidableEq, Repr

structure JobResult where
  summary : String
  artifactRef : ArtifactRef
  deriving DecidableEq, Repr

structure JobRecord where
  jobId : String
  jobType : String
  idempotencyKey : String
  status : JobStatus
  payload : Dict
  result : Option JobResult := none
  error : Option String := none
  attemptCount : Nat := 0
  maxAttempts : Nat := 3

structure SQLiteJobStore where
  db : OrderedDict String JobRecord

namespace SQLiteJobStore

def empty : SQLiteJobStore := ⟨.empty⟩

def jobs (store : SQLiteJobStore) : List JobRecord := store.db.values

def findByKey (store : SQLiteJobStore) (idempotencyKey : String) : Option JobRecord :=
  store.jobs.find? fun job => decide (job.idempotencyKey = idempotencyKey)

end SQLiteJobStore

def jobIdAt (clock : Nat) : String := "job_async_" ++ clock.repr

/-- The record that `submit_job` creates for a key it does not know. -/
def queuedRecord (jobType idempotencyKey : String) (payload : Dict) (clock : Nat) : JobRecord where
  jobId := jobIdAt clock
  jobType := jobType
  idempotencyKey := idempotencyKey
  status := .queued
  payload := payload

namespace SQLiteJobStore

def submitJob (store : SQLiteJobStore) (jobType idempotencyKey : String) (payload : Dict)
    (clock : Nat) : JobRecord × SQLiteJobStore :=
  match store.findByKey idempotencyKey with
  | some existing => (existing, store)
  | none =>
      let record := queuedRecord jobType idempotencyKey payload clock
      (record, ⟨store.db.insert record.jobId record⟩)

def getJob (store : SQLiteJobStore) (jobId : String) : Option JobRecord := store.db.get? jobId

/-- Mutation of the record object stored under an identifier. -/
def mutate (store : SQLiteJobStore) (jobId : String) (change : JobRecord → JobRecord) :
    SQLiteJobStore :=
  ⟨store.db.modify jobId change⟩

end SQLiteJobStore

/-- The fields that `update_job_status` writes; an absent result or error is kept. -/
def JobRecord.transition (job : JobRecord) (status : JobStatus) (result : Option JobResult)
    (error : Option String) : JobRecord :=
  { job with
    status := status
    result := result.or job.result
    error := error.or job.error }

namespace SQLiteJobStore

def updateJobStatus (store : SQLiteJobStore) (jobId : String) (status : JobStatus)
    (result : Option JobResult) (error : Option String) : Option JobRecord × SQLiteJobStore :=
  let updated := store.mutate jobId fun job => job.transition status result error
  (updated.getJob jobId, updated)

def fetchNextQueuedJob (store : SQLiteJobStore) : Option JobRecord :=
  store.jobs.find? fun job => decide (job.status = .queued)

def fetchNextCancelRequestedJob (store : SQLiteJobStore) : Option JobRecord :=
  store.jobs.find? fun job => decide (job.status = .cancelRequested)

def Indexed (store : SQLiteJobStore) : Prop :=
  ∀ jobId job, (jobId, job) ∈ store.db.entries → job.jobId = jobId

@[simp] theorem getJob_empty (jobId : String) : empty.getJob jobId = none := rfl

theorem mem_jobs_iff {store : SQLiteJobStore} {job : JobRecord} :
    job ∈ store.jobs ↔ ∃ jobId, store.getJob jobId = some job := by
  simp [jobs, getJob, OrderedDict.mem_values_iff, OrderedDict.get?_eq_some_iff]

theorem findByKey_eq_none_iff {store : SQLiteJobStore} {idempotencyKey : String} :
    store.findByKey idempotencyKey = none ↔
      ∀ job ∈ store.jobs, job.idempotencyKey ≠ idempotencyKey := by
  simp [findByKey, List.find?_eq_none]

theorem findByKey_some {store : SQLiteJobStore} {idempotencyKey : String} {job : JobRecord}
    (found : store.findByKey idempotencyKey = some job) :
    job ∈ store.jobs ∧ job.idempotencyKey = idempotencyKey := by
  have same := List.find?_some found
  exact ⟨List.mem_of_find?_eq_some found, by simpa using same⟩

theorem submitJob_cases (store : SQLiteJobStore) (jobType idempotencyKey : String)
    (payload : Dict) (clock : Nat) :
    (∃ existing, store.findByKey idempotencyKey = some existing ∧
      store.submitJob jobType idempotencyKey payload clock = (existing, store)) ∨
    (store.findByKey idempotencyKey = none ∧
      store.submitJob jobType idempotencyKey payload clock =
        (queuedRecord jobType idempotencyKey payload clock,
          ⟨store.db.insert (jobIdAt clock)
            (queuedRecord jobType idempotencyKey payload clock)⟩)) := by
  unfold submitJob
  cases found : store.findByKey idempotencyKey with
  | some existing => exact .inl ⟨existing, rfl, rfl⟩
  | none => exact .inr ⟨rfl, rfl⟩

theorem submitJob_of_unknown {store : SQLiteJobStore} {idempotencyKey : String}
    (unknown : store.findByKey idempotencyKey = none) (jobType : String) (payload : Dict)
    (clock : Nat) :
    store.submitJob jobType idempotencyKey payload clock =
      (queuedRecord jobType idempotencyKey payload clock,
        ⟨store.db.insert (jobIdAt clock)
          (queuedRecord jobType idempotencyKey payload clock)⟩) := by
  unfold submitJob
  rw [unknown]
  rfl

theorem submitJob_key (store : SQLiteJobStore) (jobType idempotencyKey : String)
    (payload : Dict) (clock : Nat) :
    (store.submitJob jobType idempotencyKey payload clock).1.idempotencyKey = idempotencyKey := by
  rcases store.submitJob_cases jobType idempotencyKey payload clock with
    ⟨existing, found, outcome⟩ | ⟨_, outcome⟩
  · rw [outcome]
    exact (findByKey_some found).2
  · rw [outcome]
    rfl

theorem getJob_mutate (store : SQLiteJobStore) (jobId other : String)
    (change : JobRecord → JobRecord) :
    (store.mutate jobId change).getJob other =
      if other = jobId then (store.getJob other).map change else store.getJob other :=
  OrderedDict.get?_modify store.db jobId other change

theorem mem_jobs_mutate {store : SQLiteJobStore} {jobId : String}
    {change : JobRecord → JobRecord} {job : JobRecord}
    (member : job ∈ (store.mutate jobId change).jobs) :
    job ∈ store.jobs ∨ ∃ before ∈ store.jobs, store.getJob jobId = some before ∧
      change before = job := by
  obtain ⟨other, found⟩ := mem_jobs_iff.mp member
  rw [getJob_mutate] at found
  split at found
  · next same =>
      subst other
      obtain ⟨before, stored, changed⟩ := Option.map_eq_some_iff.mp found
      exact .inr ⟨before, mem_jobs_iff.mpr ⟨jobId, stored⟩, stored, changed⟩
  · exact .inl (mem_jobs_iff.mpr ⟨other, found⟩)

theorem getJob_insert_of_ne (store : SQLiteJobStore) {jobId other : String}
    (different : other ≠ jobId) (record : JobRecord) :
    (⟨store.db.insert jobId record⟩ : SQLiteJobStore).getJob other = store.getJob other :=
  OrderedDict.get?_insert_of_ne store.db different record

theorem getJob_insert_self (store : SQLiteJobStore) (jobId : String) (record : JobRecord) :
    (⟨store.db.insert jobId record⟩ : SQLiteJobStore).getJob jobId = some record :=
  OrderedDict.get?_insert_self store.db jobId record

theorem mem_jobs_insert {store : SQLiteJobStore} {jobId : String} {record job : JobRecord}
    (member : job ∈ (⟨store.db.insert jobId record⟩ : SQLiteJobStore).jobs) :
    job = record ∨ job ∈ store.jobs := by
  obtain ⟨other, found⟩ := mem_jobs_iff.mp member
  by_cases same : other = jobId
  · subst other
    rw [getJob_insert_self] at found
    exact .inl (Option.some.inj found).symm
  · rw [getJob_insert_of_ne store same] at found
    exact .inr (mem_jobs_iff.mpr ⟨other, found⟩)

end SQLiteJobStore

theorem jobIdAt_injective {left right : Nat} (same : jobIdAt left = jobIdAt right) :
    left = right :=
  Python.repr_injective ((String.append_right_inj _).mp same)

end DurableAgent.Jobs
