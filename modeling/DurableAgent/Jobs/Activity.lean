import DurableAgent.Jobs.Worker
import Mathlib.Logic.Relation

/-!
# What other parties do to the job store

The changes that workers, clients and other threads make to a shared store,
without the order in which a worker makes them. Every action of the worker
system is a sequence of such changes.
-/

set_option autoImplicit false

namespace DurableAgent.Jobs

open Library Python

/-- One change of the store. Submissions carry a foreign key, at any reading of
the clock; only an execution reports a success, with the artifact it wrote. -/
inductive StoreChange (foreign : String → Prop) (store : SQLiteJobStore) :
    SQLiteJobStore → Prop where
  | submitJob (jobType idempotencyKey : String) (payload : Dict) (clock : Nat) :
      foreign idempotencyKey →
      StoreChange foreign store (store.submitJob jobType idempotencyKey payload clock).2
  | updateJobStatus (jobId : String) (status : JobStatus) (error : Option String) :
      status ≠ .succeeded →
      StoreChange foreign store (store.updateJobStatus jobId status none error).2
  | succeed (jobId : String) :
      StoreChange foreign store
        (store.updateJobStatus jobId .succeeded (some (processedResult jobId)) none).2
  | recount (jobId : String) (attempts budget : JobRecord → Nat) :
      StoreChange foreign store
        (store.mutate jobId fun job =>
          { job with attemptCount := attempts job, maxAttempts := budget job })

abbrev StoreActivity (foreign : String → Prop) : SQLiteJobStore → SQLiteJobStore → Prop :=
  Relation.ReflTransGen (StoreChange foreign)

/-- Every success carries the artifact of its own job. -/
def SQLiteJobStore.Processed (store : SQLiteJobStore) : Prop :=
  ∀ jobId job, store.getJob jobId = some job → job.status = .succeeded →
    job.result = some (processedResult jobId)

section Changes

variable {foreign : String → Prop} {source target : SQLiteJobStore}

private theorem processed_mutate (processed : source.Processed) {jobId : String}
    {change : JobRecord → JobRecord}
    (changed : ∀ job, (job.status = .succeeded → job.result = some (processedResult jobId)) →
      (change job).status = .succeeded → (change job).result = some (processedResult jobId)) :
    (source.mutate jobId change).Processed := by
  intro other job found succeeded
  rw [SQLiteJobStore.getJob_mutate] at found
  by_cases same : other = jobId
  · rw [if_pos same] at found
    obtain ⟨before, stored, rfl⟩ := Option.map_eq_some_iff.mp found
    subst other
    exact changed before (processed jobId before stored) succeeded
  · rw [if_neg same] at found
    exact processed other job found succeeded

theorem SQLiteJobStore.Processed.submitJob (processed : source.Processed)
    (jobType idempotencyKey : String) (payload : Dict) (clock : Nat) :
    (source.submitJob jobType idempotencyKey payload clock).2.Processed := by
  rcases source.submitJob_cases jobType idempotencyKey payload clock with
    ⟨existing, _, outcome⟩ | ⟨_, outcome⟩
  · rw [outcome]
    exact processed
  · rw [outcome]
    intro other job found succeeded
    by_cases same : other = jobIdAt clock
    · subst other
      rw [SQLiteJobStore.getJob_insert_self] at found
      cases found
      cases succeeded
    · rw [SQLiteJobStore.getJob_insert_of_ne source same] at found
      exact processed other job found succeeded

theorem StoreChange.processed (change : StoreChange foreign source target)
    (processed : source.Processed) : target.Processed := by
  cases change with
  | submitJob jobType idempotencyKey payload clock _ =>
      exact processed.submitJob jobType idempotencyKey payload clock
  | updateJobStatus jobId status error unsuccessful =>
      exact processed_mutate processed fun _ _ succeeded => absurd succeeded unsuccessful
  | succeed jobId => exact processed_mutate processed fun _ _ _ => rfl
  | recount jobId attempts budget => exact processed_mutate processed fun _ before => before

theorem StoreActivity.processed (activity : StoreActivity foreign source target)
    (processed : source.Processed) : target.Processed := by
  induction activity with
  | refl => exact processed
  | tail _ change ih => exact change.processed ih

private theorem key_of_mutate {jobId other : String} {change : JobRecord → JobRecord}
    {job : JobRecord} (found : (source.mutate jobId change).getJob other = some job)
    (keeps : ∀ job, (change job).idempotencyKey = job.idempotencyKey) :
    ∃ earlier, source.getJob other = some earlier ∧
      earlier.idempotencyKey = job.idempotencyKey := by
  rw [SQLiteJobStore.getJob_mutate] at found
  split at found
  · obtain ⟨before, stored, rfl⟩ := Option.map_eq_some_iff.mp found
    exact ⟨before, stored, (keeps before).symm⟩
  · exact ⟨job, found, rfl⟩

/-- Other parties add no record under a key that is not theirs. -/
theorem StoreChange.own_known (change : StoreChange foreign source target) {jobId : String}
    {job : JobRecord} (found : target.getJob jobId = some job)
    (own : ¬ foreign job.idempotencyKey) :
    ∃ earlier, source.getJob jobId = some earlier ∧
      earlier.idempotencyKey = job.idempotencyKey := by
  cases change with
  | submitJob jobType idempotencyKey payload clock isForeign =>
      rcases source.submitJob_cases jobType idempotencyKey payload clock with
        ⟨existing, _, outcome⟩ | ⟨_, outcome⟩
      · rw [outcome] at found
        exact ⟨job, found, rfl⟩
      · rw [outcome] at found
        by_cases same : jobId = jobIdAt clock
        · subst jobId
          rw [SQLiteJobStore.getJob_insert_self] at found
          cases found
          exact absurd isForeign own
        · rw [SQLiteJobStore.getJob_insert_of_ne source same] at found
          exact ⟨job, found, rfl⟩
  | updateJobStatus jobId status error _ => exact key_of_mutate found fun _ => rfl
  | succeed jobId => exact key_of_mutate found fun _ => rfl
  | recount jobId attempts budget => exact key_of_mutate found fun _ => rfl

theorem StoreActivity.own_known (activity : StoreActivity foreign source target)
    {jobId : String} {job : JobRecord} (found : target.getJob jobId = some job)
    (own : ¬ foreign job.idempotencyKey) :
    ∃ earlier, source.getJob jobId = some earlier ∧
      earlier.idempotencyKey = job.idempotencyKey := by
  induction activity generalizing job with
  | refl => exact ⟨job, found, rfl⟩
  | tail _ change ih =>
      obtain ⟨between, stored, sameKey⟩ := change.own_known found own
      obtain ⟨earlier, known, keyBefore⟩ := ih stored (sameKey ▸ own)
      exact ⟨earlier, known, keyBefore.trans sameKey⟩

/-- No record is replaced by one with another key. -/
def KeepsRecords (source target : SQLiteJobStore) : Prop :=
  ∀ jobId job, source.getJob jobId = some job →
    ∃ kept, target.getJob jobId = some kept ∧ kept.idempotencyKey = job.idempotencyKey

theorem KeepsRecords.refl (store : SQLiteJobStore) : KeepsRecords store store :=
  fun _ job found => ⟨job, found, rfl⟩

theorem KeepsRecords.mutate (store : SQLiteJobStore) (jobId : String)
    {change : JobRecord → JobRecord}
    (keeps : ∀ job, (change job).idempotencyKey = job.idempotencyKey) :
    KeepsRecords store (store.mutate jobId change) := by
  intro other job found
  rw [SQLiteJobStore.getJob_mutate, found]
  by_cases same : other = jobId
  · exact ⟨change job, by simp [same], keeps job⟩
  · exact ⟨job, by simp [same], rfl⟩

theorem KeepsRecords.submitJob (store : SQLiteJobStore) (jobType idempotencyKey : String)
    (payload : Dict) {clock : Nat} (free : store.getJob (jobIdAt clock) = none) :
    KeepsRecords store (store.submitJob jobType idempotencyKey payload clock).2 := by
  intro jobId job found
  rcases store.submitJob_cases jobType idempotencyKey payload clock with
    ⟨existing, _, outcome⟩ | ⟨_, outcome⟩
  · rw [outcome]
    exact ⟨job, found, rfl⟩
  · have different : jobId ≠ jobIdAt clock := by
      rintro rfl
      cases free.symm.trans found
    rw [outcome, SQLiteJobStore.getJob_insert_of_ne store different]
    exact ⟨job, found, rfl⟩

/-- A change under which job identifiers are unique. -/
def UniqueChange (foreign : String → Prop) (source target : SQLiteJobStore) : Prop :=
  StoreChange foreign source target ∧ KeepsRecords source target

abbrev UniqueActivity (foreign : String → Prop) : SQLiteJobStore → SQLiteJobStore → Prop :=
  Relation.ReflTransGen (UniqueChange foreign)

theorem UniqueActivity.activity (unique : UniqueActivity foreign source target) :
    StoreActivity foreign source target := by
  induction unique with
  | refl => exact .refl
  | tail _ change ih => exact ih.tail change.1

def Produced (jobId : String) (store : SQLiteJobStore) : Prop :=
  ∃ job, store.getJob jobId = some job ∧ job.result = some (processedResult jobId)

private theorem Produced.mutate {jobId other : String} (produced : Produced jobId source)
    {change : JobRecord → JobRecord}
    (keeps : ∀ job, job.result = some (processedResult jobId) → jobId = other →
      (change job).result = some (processedResult jobId)) :
    Produced jobId (source.mutate other change) := by
  obtain ⟨job, found, result⟩ := produced
  unfold Produced
  rw [SQLiteJobStore.getJob_mutate, found]
  by_cases same : jobId = other
  · exact ⟨change job, by simp [same], keeps job result same⟩
  · exact ⟨job, by simp [same], result⟩

/-- A submission that replaces no record leaves the results where they were. -/
theorem Produced.submitJob {jobId : String} (produced : Produced jobId source)
    (jobType idempotencyKey : String) (payload : Dict) (clock : Nat)
    (keeps : KeepsRecords source (source.submitJob jobType idempotencyKey payload clock).2) :
    Produced jobId (source.submitJob jobType idempotencyKey payload clock).2 := by
  obtain ⟨job, found, result⟩ := produced
  obtain ⟨kept, stays, sameKey⟩ := keeps jobId job found
  rcases source.submitJob_cases jobType idempotencyKey payload clock with
    ⟨existing, _, outcome⟩ | ⟨unknown, outcome⟩
  · rw [outcome]
    exact ⟨job, found, result⟩
  · rw [outcome] at stays ⊢
    by_cases same : jobId = jobIdAt clock
    · subst jobId
      rw [SQLiteJobStore.getJob_insert_self] at stays
      cases stays
      have member : job ∈ source.jobs := SQLiteJobStore.mem_jobs_iff.mpr ⟨_, found⟩
      exact absurd sameKey.symm (SQLiteJobStore.findByKey_eq_none_iff.mp unknown job member)
    · refine ⟨job, ?_, result⟩
      rw [SQLiteJobStore.getJob_insert_of_ne source same]
      exact found

theorem UniqueChange.produced {jobId : String} (change : UniqueChange foreign source target)
    (produced : Produced jobId source) : Produced jobId target := by
  obtain ⟨changed, keeps⟩ := change
  cases changed with
  | submitJob jobType idempotencyKey payload clock _ =>
      exact produced.submitJob jobType idempotencyKey payload clock keeps
  | updateJobStatus other status error _ =>
      exact produced.mutate fun job result _ => by simp [JobRecord.transition, result]
  | succeed other =>
      exact produced.mutate fun job _ same => by simp [JobRecord.transition, same]
  | recount other attempts budget => exact produced.mutate fun _ result _ => result

theorem UniqueActivity.produced {jobId : String} (unique : UniqueActivity foreign source target)
    (produced : Produced jobId source) : Produced jobId target := by
  induction unique with
  | refl => exact produced
  | tail _ change ih => exact change.produced ih

end Changes

section Worker

variable {foreign : String → Prop}

private theorem unique_update (store : SQLiteJobStore) (jobId : String) {status : JobStatus}
    (error : Option String) (unsuccessful : status ≠ .succeeded) :
    UniqueChange foreign store (store.updateJobStatus jobId status none error).2 :=
  ⟨.updateJobStatus jobId status error unsuccessful, .mutate store jobId fun _ => rfl⟩

private theorem acknowledge_unique (store : SQLiteJobStore) :
    UniqueActivity foreign store store.acknowledgeCancellation := by
  unfold SQLiteJobStore.acknowledgeCancellation
  cases store.fetchNextCancelRequestedJob with
  | none => exact .refl
  | some job => exact .single (unique_update store _ _ (by decide))

private theorem claim_unique (system : JobSystem) :
    UniqueActivity foreign system.store system.claim.store := by
  unfold JobSystem.claim
  cases system.store.fetchNextQueuedJob with
  | none => exact .refl
  | some job =>
      have running : UniqueChange foreign system.store
          (system.store.updateJobStatus job.jobId .running none none).2 :=
        unique_update system.store job.jobId none (by decide)
      exact .tail (.single running)
        ⟨.recount job.jobId (fun claimed => claimed.attemptCount + 1) (·.maxAttempts),
          .mutate _ _ fun _ => rfl⟩

private theorem complete_unique (store : SQLiteJobStore) (jobId : String) :
    UniqueActivity foreign store (store.completeExecution jobId) := by
  unfold SQLiteJobStore.completeExecution
  cases store.getJob jobId with
  | none => exact .refl
  | some job =>
      apply Relation.ReflTransGen.single
      dsimp only
      unfold JobRecord.wakeOutcome
      by_cases requested : job.status = .cancelRequested
      · rw [if_pos requested]
        exact unique_update store jobId _ (by decide)
      · rw [if_neg requested]
        split_ifs
        · exact unique_update store jobId _ (by decide)
        · exact unique_update store jobId _ (by decide)
        · exact ⟨.succeed jobId, .mutate store jobId fun _ => rfl⟩

/-- The worker and its clients change the store as the other parties may, and
replace no record. -/
theorem JobSystem.step_unique {system next : JobSystem} {action : WorkerAction}
    (stepped : system.step action = some next)
    (submits : ∀ jobType key payload clock maxAttempts,
      action = .submitJob jobType key payload clock maxAttempts → foreign key) :
    UniqueActivity foreign system.store next.store := by
  cases action with
  | submitJob jobType key payload clock maxAttempts =>
      rcases JobSystem.submit_inv stepped with rfl | ⟨_, taken, rfl⟩
      · exact .refl
      · have submitted : UniqueChange foreign system.store _ :=
          ⟨.submitJob jobType key payload clock
            (submits jobType key payload clock maxAttempts rfl),
            .submitJob system.store jobType key payload taken⟩
        exact .tail (.single submitted)
          ⟨.recount (jobIdAt clock) (·.attemptCount) (fun _ => maxAttempts),
            .mutate _ _ fun _ => rfl⟩
  | requestCancel jobId =>
      obtain ⟨job, _, _, rfl⟩ := JobSystem.requestCancel_inv stepped
      exact .single (unique_update _ _ _ (by decide))
  | processLoop =>
      cases stepped
      exact (acknowledge_unique system.store).trans (claim_unique system.acknowledge)
  | startExecution jobId =>
      obtain ⟨_, sameStore, _⟩ := JobSystem.startExecution_inv stepped
      rw [sameStore]
  | wakeExecution jobId =>
      obtain ⟨_, rfl⟩ := JobSystem.wakeExecution_inv stepped
      exact complete_unique system.store jobId

end Worker

end DurableAgent.Jobs
