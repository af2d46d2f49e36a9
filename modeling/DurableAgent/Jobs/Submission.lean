import DurableAgent.Jobs.Store
import DurableAgent.Library.TransitionSystem

/-!
# Runs of one job store

Sequences of `submit_job` and `update_job_status` calls. The first submission
of a key decides the identifier under which its record lives; whether that
identifier stays the key's own depends on the clock readings alone.
-/

set_option autoImplicit false

namespace DurableAgent.Jobs

open Library Python

inductive StoreCall where
  | submitJob (jobType idempotencyKey : String) (payload : Dict) (clock : Nat)
  | updateJobStatus (jobId : String) (status : JobStatus) (result : Option JobResult)
      (error : Option String)

namespace StoreCall

def perform (store : SQLiteJobStore) : StoreCall → Option JobRecord × SQLiteJobStore
  | submitJob jobType idempotencyKey payload clock =>
      let outcome := store.submitJob jobType idempotencyKey payload clock
      (some outcome.1, outcome.2)
  | updateJobStatus jobId status result error =>
      store.updateJobStatus jobId status result error

def key? : StoreCall → Option String
  | submitJob _ idempotencyKey _ _ => some idempotencyKey
  | updateJobStatus _ _ _ _ => none

def step (store : SQLiteJobStore) (call : StoreCall) : Option SQLiteJobStore :=
  some (call.perform store).2

end StoreCall

abbrev StoreTransition := Transition SQLiteJobStore StoreCall

def StoreTransition.returned (transition : StoreTransition) : Option JobRecord :=
  (transition.label.perform transition.source).1

/-- Adds the clock reading of a submission whose key is new. -/
def noteSubmission (firsts : List (String × Nat)) : StoreCall → List (String × Nat)
  | .submitJob _ idempotencyKey _ clock =>
      if idempotencyKey ∈ firsts.map Prod.fst then firsts
      else firsts ++ [(idempotencyKey, clock)]
  | .updateJobStatus _ _ _ _ => firsts

/-- The submitted keys in order, each with the reading at its first submission. -/
def firstSubmissions (calls : List StoreCall) : List (String × Nat) :=
  calls.foldl noteSubmission []

def firstReadings (calls : List StoreCall) : List Nat := (firstSubmissions calls).map Prod.snd

/-- The store still answers for a record returned earlier. -/
def SQLiteJobStore.Holds (store : SQLiteJobStore) (job : JobRecord) : Prop :=
  ∃ stored, store.getJob job.jobId = some stored ∧ stored.jobId = job.jobId ∧
    stored.idempotencyKey = job.idempotencyKey ∧ stored.payload = job.payload

structure NoJobLost (history : List StoreTransition) : Prop where
  distinct : ∀ left ∈ history, ∀ right ∈ history, ∀ leftKey rightKey leftJob rightJob,
    left.label.key? = some leftKey → right.label.key? = some rightKey → leftKey ≠ rightKey →
    left.returned = some leftJob → right.returned = some rightJob →
    leftJob.jobId ≠ rightJob.jobId
  retained : ∀ earlier transition later, history = earlier ++ transition :: later →
    ∀ job, transition.returned = some job →
    ∀ moment ∈ transition :: later, moment.target.Holds job
  remembered : ∀ first ∈ history, ∀ again ∈ history, ∀ key firstJob againJob,
    first.label.key? = some key → again.label.key? = some key →
    first.returned = some firstJob → again.returned = some againJob →
    againJob.jobId = firstJob.jobId ∧ againJob.idempotencyKey = firstJob.idempotencyKey ∧
      againJob.payload = firstJob.payload

/-- What the store contains, told by the first submissions. -/
structure Accounted (firsts : List (String × Nat)) (store : SQLiteJobStore) : Prop where
  indexed : store.Indexed
  traced : ∀ jobId job, store.getJob jobId = some job →
    ∃ clock, (job.idempotencyKey, clock) ∈ firsts ∧ jobId = jobIdAt clock
  complete : ∀ key clock, (key, clock) ∈ firsts →
    ∃ job, store.getJob (jobIdAt clock) = some job ∧ job.idempotencyKey = key

private theorem firstSubmissions_snoc (calls : List StoreCall) (call : StoreCall) :
    firstSubmissions (calls ++ [call]) = noteSubmission (firstSubmissions calls) call := by
  simp [firstSubmissions]

private theorem noteSubmission_extends (firsts : List (String × Nat)) (call : StoreCall) :
    ∃ added, noteSubmission firsts call = firsts ++ added := by
  cases call with
  | submitJob jobType idempotencyKey payload clock =>
      simp only [noteSubmission]
      split
      · exact ⟨[], by simp⟩
      · exact ⟨[(idempotencyKey, clock)], rfl⟩
  | updateJobStatus jobId status result error => exact ⟨[], by simp [noteSubmission]⟩

private theorem firstReadings_nodup_of_append {calls later : List StoreCall}
    (distinct : (firstReadings (calls ++ later)).Nodup) : (firstReadings calls).Nodup := by
  induction later using List.reverseRecOn with
  | nil => simpa using distinct
  | append_singleton later call ih =>
      apply ih
      rw [← List.append_assoc] at distinct
      simp only [firstReadings, firstSubmissions_snoc] at distinct
      obtain ⟨added, extended⟩ :=
        noteSubmission_extends (firstSubmissions (calls ++ later)) call
      rw [extended, List.map_append] at distinct
      exact (List.nodup_append.mp distinct).1

theorem firstSubmissions_keys_nodup (calls : List StoreCall) :
    ((firstSubmissions calls).map Prod.fst).Nodup := by
  induction calls using List.reverseRecOn with
  | nil => simp [firstSubmissions]
  | append_singleton calls call ih =>
      rw [firstSubmissions_snoc]
      cases call with
      | submitJob jobType idempotencyKey payload clock =>
          simp only [noteSubmission]
          split
          · exact ih
          · next new =>
              rw [List.map_append, List.nodup_append]
              refine ⟨ih, by simp, ?_⟩
              intro key member added single equal
              have same : added = idempotencyKey := by simpa using single
              exact new (same ▸ equal ▸ member)
      | updateJobStatus jobId status result error => exact ih

private theorem SQLiteJobStore.Holds.mutate {store : SQLiteJobStore} {job : JobRecord}
    (held : store.Holds job) (jobId : String) (status : JobStatus) (result : Option JobResult)
    (error : Option String) :
    (store.mutate jobId fun record => record.transition status result error).Holds job := by
  obtain ⟨stored, found, identifier, key, payload⟩ := held
  by_cases same : job.jobId = jobId
  · refine ⟨stored.transition status result error, ?_, identifier, key, payload⟩
    rw [SQLiteJobStore.getJob_mutate, if_pos same, found]
    rfl
  · refine ⟨stored, ?_, identifier, key, payload⟩
    rw [SQLiteJobStore.getJob_mutate, if_neg same, found]

private theorem Accounted.of_getJob {firsts : List (String × Nat)} {store : SQLiteJobStore}
    (indexed : ∀ jobId job, store.getJob jobId = some job → job.jobId = jobId)
    (traced : ∀ jobId job, store.getJob jobId = some job →
      ∃ clock, (job.idempotencyKey, clock) ∈ firsts ∧ jobId = jobIdAt clock)
    (complete : ∀ key clock, (key, clock) ∈ firsts →
      ∃ job, store.getJob (jobIdAt clock) = some job ∧ job.idempotencyKey = key) :
    Accounted firsts store where
  indexed := fun jobId job stored =>
    indexed jobId job (OrderedDict.get?_eq_some_iff.mpr stored)
  traced := traced
  complete := complete

theorem Accounted.own_id {firsts : List (String × Nat)} {store : SQLiteJobStore}
    (accounted : Accounted firsts store) {jobId : String} {job : JobRecord}
    (found : store.getJob jobId = some job) : job.jobId = jobId :=
  accounted.indexed jobId job (OrderedDict.get?_eq_some_iff.mp found)

private theorem Accounted.mutate {firsts : List (String × Nat)} {store : SQLiteJobStore}
    (accounted : Accounted firsts store) (jobId : String) (status : JobStatus)
    (result : Option JobResult) (error : Option String) :
    Accounted firsts
      (store.mutate jobId fun record => record.transition status result error) := by
  -- every record afterwards is a record from before, up to the fields a transition writes
  have origin : ∀ other job,
      (store.mutate jobId fun record => record.transition status result error).getJob other =
        some job →
      ∃ before, store.getJob other = some before ∧ job.jobId = before.jobId ∧
        job.idempotencyKey = before.idempotencyKey := by
    intro other job found
    rw [SQLiteJobStore.getJob_mutate] at found
    split at found
    · obtain ⟨before, stored, rfl⟩ := Option.map_eq_some_iff.mp found
      exact ⟨before, stored, rfl, rfl⟩
    · exact ⟨job, found, rfl, rfl⟩
  apply Accounted.of_getJob
  · intro other job found
    obtain ⟨before, stored, identifier, _⟩ := origin other job found
    exact identifier.trans (accounted.own_id stored)
  · intro other job found
    obtain ⟨before, stored, _, key⟩ := origin other job found
    exact key ▸ accounted.traced other before stored
  · intro key clock member
    obtain ⟨job, stored, rfl⟩ := accounted.complete key clock member
    by_cases same : jobIdAt clock = jobId
    · refine ⟨job.transition status result error, ?_, rfl⟩
      rw [SQLiteJobStore.getJob_mutate, if_pos same, stored]
      rfl
    · exact ⟨job, by rw [SQLiteJobStore.getJob_mutate, if_neg same, stored], rfl⟩

private theorem Accounted.fresh_id {firsts : List (String × Nat)} {store : SQLiteJobStore}
    (accounted : Accounted firsts store) {clock : Nat} (fresh : clock ∉ firsts.map Prod.snd) :
    store.getJob (jobIdAt clock) = none := by
  apply Option.eq_none_iff_forall_ne_some.mpr
  intro job found
  obtain ⟨other, member, same⟩ := accounted.traced _ job found
  have equal := jobIdAt_injective same
  subst other
  exact fresh (List.mem_map.mpr ⟨_, member, rfl⟩)

private theorem Accounted.insert {firsts : List (String × Nat)} {store : SQLiteJobStore}
    (accounted : Accounted firsts store) (jobType key : String) (payload : Dict) {clock : Nat}
    (fresh : clock ∉ firsts.map Prod.snd) :
    Accounted (firsts ++ [(key, clock)])
      ⟨store.db.insert (jobIdAt clock) (queuedRecord jobType key payload clock)⟩ := by
  apply Accounted.of_getJob
  · intro other job found
    by_cases same : other = jobIdAt clock
    · subst other
      rw [SQLiteJobStore.getJob_insert_self] at found
      cases found
      rfl
    · rw [SQLiteJobStore.getJob_insert_of_ne store same] at found
      exact accounted.own_id found
  · intro other job found
    by_cases same : other = jobIdAt clock
    · subst other
      rw [SQLiteJobStore.getJob_insert_self] at found
      cases found
      exact ⟨clock, by simp [queuedRecord], rfl⟩
    · rw [SQLiteJobStore.getJob_insert_of_ne store same] at found
      obtain ⟨earlier, member, identifier⟩ := accounted.traced other job found
      exact ⟨earlier, List.mem_append_left _ member, identifier⟩
  · intro other earlier member
    rcases List.mem_append.mp member with old | new
    · obtain ⟨job, stored, named⟩ := accounted.complete other earlier old
      have different : jobIdAt earlier ≠ jobIdAt clock := by
        intro same
        have equal := jobIdAt_injective same
        subst earlier
        exact fresh (List.mem_map.mpr ⟨_, old, rfl⟩)
      exact ⟨job, by rw [SQLiteJobStore.getJob_insert_of_ne store different, stored], named⟩
    · simp only [List.mem_singleton, Prod.mk.injEq] at new
      obtain ⟨rfl, rfl⟩ := new
      exact ⟨_, SQLiteJobStore.getJob_insert_self store _ _, rfl⟩

private theorem Accounted.key_known {firsts : List (String × Nat)} {store : SQLiteJobStore}
    (accounted : Accounted firsts store) {key : String} :
    store.findByKey key = none ↔ key ∉ firsts.map Prod.fst := by
  rw [SQLiteJobStore.findByKey_eq_none_iff]
  constructor
  · intro missing member
    obtain ⟨⟨first, clock⟩, submitted, rfl⟩ := List.mem_map.mp member
    obtain ⟨job, stored, named⟩ := accounted.complete first clock submitted
    exact missing job (SQLiteJobStore.mem_jobs_iff.mpr ⟨_, stored⟩) named
  · intro unknown job member named
    obtain ⟨jobId, stored⟩ := SQLiteJobStore.mem_jobs_iff.mp member
    obtain ⟨clock, submitted, _⟩ := accounted.traced jobId job stored
    exact unknown (named ▸ List.mem_map.mpr ⟨_, submitted, rfl⟩)

/-- The store together with the records handed out so far. -/
private structure Recorded (history : List StoreTransition) (store : SQLiteJobStore) : Prop where
  accounted : Accounted (firstSubmissions (history.map (·.label))) store
  retained : ∀ transition ∈ history, ∀ job, transition.returned = some job → store.Holds job

private theorem Recorded.snoc {history : List StoreTransition} {store : SQLiteJobStore}
    {call : StoreCall} (recorded : Recorded history store)
    (accounted : Accounted (noteSubmission (firstSubmissions (history.map (·.label))) call)
      (call.perform store).2)
    (kept : ∀ job, store.Holds job → (call.perform store).2.Holds job)
    (answered : ∀ job, (call.perform store).1 = some job → (call.perform store).2.Holds job) :
    Recorded (history ++ [⟨store, call, (call.perform store).2⟩]) (call.perform store).2 := by
  constructor
  · rw [List.map_append, List.map_cons, List.map_nil, firstSubmissions_snoc]
    exact accounted
  · intro transition member job returned
    rcases List.mem_append.mp member with old | new
    · exact kept job (recorded.retained transition old job returned)
    · rw [List.mem_singleton.mp new] at returned
      exact answered job returned

private theorem Recorded.update {history : List StoreTransition} {store : SQLiteJobStore}
    (recorded : Recorded history store) (jobId : String) (status : JobStatus)
    (result : Option JobResult) (error : Option String) :
    Recorded (history ++ [⟨store, .updateJobStatus jobId status result error,
      (store.updateJobStatus jobId status result error).2⟩])
      (store.updateJobStatus jobId status result error).2 := by
  have accounted := recorded.accounted.mutate jobId status result error
  refine recorded.snoc accounted (fun job held => held.mutate jobId status result error) ?_
  intro job found
  have own : job.jobId = jobId := accounted.own_id found
  exact ⟨job, own ▸ found, rfl, rfl, rfl⟩

private theorem Recorded.submit {history : List StoreTransition} {store : SQLiteJobStore}
    (recorded : Recorded history store) (jobType key : String) (payload : Dict) (clock : Nat)
    (fresh : key ∉ (firstSubmissions (history.map (·.label))).map Prod.fst →
      clock ∉ (firstSubmissions (history.map (·.label))).map Prod.snd) :
    Recorded (history ++ [⟨store, .submitJob jobType key payload clock,
      (store.submitJob jobType key payload clock).2⟩])
      (store.submitJob jobType key payload clock).2 := by
  have accounted := recorded.accounted
  rcases store.submitJob_cases jobType key payload clock with
    ⟨existing, found, submitted⟩ | ⟨missing, submitted⟩
  · have known : key ∈ (firstSubmissions (history.map (·.label))).map Prod.fst := by
      by_contra unknown
      rw [accounted.key_known.mpr unknown] at found
      cases found
    have unchanged : ((StoreCall.submitJob jobType key payload clock).perform store).2 = store := by
      simp only [StoreCall.perform, submitted]
    refine recorded.snoc ?_ ?_ ?_
    · rw [unchanged]
      simpa only [noteSubmission, if_pos known] using accounted
    · intro job held
      rw [unchanged]
      exact held
    · intro job returned
      have same : existing = job := by
        simpa [StoreCall.perform, submitted] using returned
      subst job
      obtain ⟨jobId, stored⟩ :=
        SQLiteJobStore.mem_jobs_iff.mp (SQLiteJobStore.findByKey_some found).1
      have own := accounted.own_id stored
      rw [unchanged]
      exact ⟨existing, own ▸ stored, rfl, rfl, rfl⟩
  · have unknown := accounted.key_known.mp missing
    have inserted : ((StoreCall.submitJob jobType key payload clock).perform store).2 =
        ⟨store.db.insert (jobIdAt clock) (queuedRecord jobType key payload clock)⟩ := by
      simp only [StoreCall.perform, submitted]
    refine recorded.snoc ?_ ?_ ?_
    · rw [inserted]
      simpa only [noteSubmission, if_neg unknown] using
        accounted.insert jobType key payload (fresh unknown)
    · intro job held
      obtain ⟨stored, found, rest⟩ := held
      have different : job.jobId ≠ jobIdAt clock := by
        intro same
        rw [same, accounted.fresh_id (fresh unknown)] at found
        cases found
      rw [inserted]
      exact ⟨stored, by rw [SQLiteJobStore.getJob_insert_of_ne store different, found], rest⟩
    · intro job returned
      have same : queuedRecord jobType key payload clock = job := by
        simpa [StoreCall.perform, submitted] using returned
      subst job
      rw [inserted]
      exact ⟨_, SQLiteJobStore.getJob_insert_self store _ _, rfl, rfl, rfl⟩

private theorem run_recorded {history : List StoreTransition} {store : SQLiteJobStore}
    (run : Run StoreCall.step SQLiteJobStore.empty history store) :
    (firstReadings (history.map (·.label))).Nodup → Recorded history store := by
  induction run with
  | nil =>
      intro _
      refine ⟨Accounted.of_getJob ?_ ?_ ?_, by simp⟩
      · intro jobId job found
        simp at found
      · intro jobId job found
        simp at found
      · intro key clock member
        simp [firstSubmissions] at member
  | @snoc history store call next _ stepped ih =>
      intro distinct
      rw [List.map_append] at distinct
      have recorded := ih (firstReadings_nodup_of_append distinct)
      have outcome : (call.perform store).2 = next := Option.some.inj stepped
      subst next
      cases call with
      | updateJobStatus jobId status result error => exact recorded.update jobId status result error
      | submitJob jobType key payload clock =>
          refine recorded.submit jobType key payload clock ?_
          intro unknown member
          simp only [firstReadings, List.map_cons, List.map_nil, firstSubmissions_snoc,
            noteSubmission, if_neg unknown, List.map_append] at distinct
          exact (List.nodup_append.mp distinct).2.2 clock member clock (by simp) rfl

/-- Whatever the readings are, each key is first answered with the record of
the reading at its first submission. -/
private theorem run_first_answers {history : List StoreTransition} {store : SQLiteJobStore}
    (run : Run StoreCall.step SQLiteJobStore.empty history store) :
    (∀ job ∈ store.jobs,
      job.idempotencyKey ∈ (firstSubmissions (history.map (·.label))).map Prod.fst) ∧
    ∀ key clock, (key, clock) ∈ firstSubmissions (history.map (·.label)) →
      ∃ transition ∈ history, ∃ job, transition.label.key? = some key ∧
        transition.returned = some job ∧ job.jobId = jobIdAt clock := by
  induction run with
  | nil => simp [SQLiteJobStore.empty, SQLiteJobStore.jobs, firstSubmissions]
  | @snoc history store call next _ stepped ih =>
      obtain ⟨keys, answers⟩ := ih
      have outcome : (call.perform store).2 = next := Option.some.inj stepped
      subst next
      have earlier : ∀ key clock, (key, clock) ∈ firstSubmissions (history.map (·.label)) →
          ∃ transition : StoreTransition,
            transition ∈ history ++ [⟨store, call, (call.perform store).2⟩] ∧ ∃ job,
            transition.label.key? = some key ∧ transition.returned = some job ∧
              job.jobId = jobIdAt clock := by
        intro key clock member
        obtain ⟨transition, included, rest⟩ := answers key clock member
        exact ⟨transition, List.mem_append_left _ included, rest⟩
      simp only [List.map_append, List.map_cons, List.map_nil, firstSubmissions_snoc]
      cases call with
      | updateJobStatus jobId status result error =>
          refine ⟨?_, earlier⟩
          intro job member
          rcases SQLiteJobStore.mem_jobs_mutate member with old | ⟨before, old, _, rfl⟩
          · exact keys job old
          · exact keys before old
      | submitJob jobType key payload clock =>
          simp only [noteSubmission, StoreCall.perform]
          rcases store.submitJob_cases jobType key payload clock with
            ⟨existing, found, submitted⟩ | ⟨missing, submitted⟩
          · obtain ⟨member, same⟩ := SQLiteJobStore.findByKey_some found
            have known := same ▸ keys existing member
            rw [if_pos known, submitted]
            exact ⟨keys, submitted ▸ earlier⟩
          · rw [submitted]
            split
            · next known =>
                refine ⟨?_, submitted ▸ earlier⟩
                intro job member
                rcases SQLiteJobStore.mem_jobs_insert member with rfl | old
                · exact known
                · exact keys job old
            · next unknown =>
                constructor
                · intro job member
                  rw [List.map_append]
                  rcases SQLiteJobStore.mem_jobs_insert member with rfl | old
                  · simp [queuedRecord]
                  · exact List.mem_append_left _ (keys job old)
                · intro other reading member
                  rcases List.mem_append.mp member with old | new
                  · exact submitted ▸ earlier other reading old
                  · simp only [List.mem_singleton, Prod.mk.injEq] at new
                    obtain ⟨rfl, rfl⟩ := new
                    refine ⟨_, List.mem_append_right _ (List.mem_singleton_self _),
                      queuedRecord jobType other payload reading, rfl, ?_, rfl⟩
                    simp [StoreTransition.returned, StoreCall.perform, submitted]

private theorem Recorded.submission {history : List StoreTransition} {store : SQLiteJobStore}
    (recorded : Recorded history store) {transition : StoreTransition}
    (member : transition ∈ history) {key : String} {job : JobRecord}
    (submits : transition.label.key? = some key) (returned : transition.returned = some job) :
    job.idempotencyKey = key ∧ store.Holds job ∧
      ∃ clock, (key, clock) ∈ firstSubmissions (history.map (·.label)) ∧
        job.jobId = jobIdAt clock := by
  have named : job.idempotencyKey = key := by
    rcases transition with ⟨source, call, target⟩
    cases call with
    | updateJobStatus jobId status result error => cases submits
    | submitJob jobType idempotencyKey payload clock =>
        cases submits
        cases returned
        exact source.submitJob_key jobType key payload clock
  have held := recorded.retained transition member job returned
  obtain ⟨stored, found, _, sameKey, _⟩ := id held
  obtain ⟨clock, first, identifier⟩ := recorded.accounted.traced _ stored found
  rw [sameKey, named] at first
  exact ⟨named, held, clock, first, identifier⟩

private theorem clock_unique {calls : List StoreCall} {key : String} {left right : Nat}
    (leftMember : (key, left) ∈ firstSubmissions calls)
    (rightMember : (key, right) ∈ firstSubmissions calls) : left = right := by
  have same := List.inj_on_of_nodup_map (firstSubmissions_keys_nodup calls) leftMember
    rightMember rfl
  exact congrArg Prod.snd same

private theorem noJobLost_of_distinct {history : List StoreTransition} {store : SQLiteJobStore}
    (run : Run StoreCall.step SQLiteJobStore.empty history store)
    (distinct : (firstReadings (history.map (·.label))).Nodup) : NoJobLost history := by
  have recorded := run_recorded run distinct
  constructor
  · intro left leftMember right rightMember leftKey rightKey leftJob rightJob leftSubmits
      rightSubmits different leftReturned rightReturned same
    obtain ⟨_, _, leftClock, leftFirst, leftId⟩ :=
      recorded.submission leftMember leftSubmits leftReturned
    obtain ⟨_, _, rightClock, rightFirst, rightId⟩ :=
      recorded.submission rightMember rightSubmits rightReturned
    have clocks : leftClock = rightClock :=
      jobIdAt_injective (leftId.symm.trans (same.trans rightId))
    have pairs := List.inj_on_of_nodup_map distinct leftFirst rightFirst clocks
    exact different (congrArg Prod.fst pairs)
  · intro earlier transition later split job returned moment member
    -- the run up to `moment` is itself a run with distinct first readings
    obtain ⟨before, after, around⟩ := List.append_of_mem member
    have whole : history = (earlier ++ before) ++ moment :: after := by
      rw [split, around, List.append_assoc]
    subst whole
    obtain ⟨previous, stepped, _⟩ := run.around
    have upTo := Run.snoc previous stepped
    have earlierRecorded := run_recorded upTo (by
      have reassociated : (earlier ++ before) ++ moment :: after =
          ((earlier ++ before) ++ [moment]) ++ after := by simp
      rw [reassociated, List.map_append] at distinct
      exact firstReadings_nodup_of_append distinct)
    refine earlierRecorded.retained transition ?_ job returned
    cases before with
    | nil =>
        simp only [List.nil_append, List.cons.injEq] at around
        simp [around.1]
    | cons head front =>
        simp only [List.cons_append, List.cons.injEq] at around
        simp [around.1]
  · intro first firstMember again againMember key firstJob againJob firstSubmits againSubmits
      firstReturned againReturned
    obtain ⟨firstKey, firstHeld, firstClock, firstListed, firstId⟩ :=
      recorded.submission firstMember firstSubmits firstReturned
    obtain ⟨againKey, againHeld, againClock, againListed, againId⟩ :=
      recorded.submission againMember againSubmits againReturned
    have clocks := clock_unique firstListed againListed
    have identifiers : againJob.jobId = firstJob.jobId := by rw [againId, firstId, clocks]
    obtain ⟨firstStored, firstFound, _, _, firstPayload⟩ := firstHeld
    obtain ⟨againStored, againFound, _, _, againPayload⟩ := againHeld
    rw [identifiers, firstFound, Option.some.injEq] at againFound
    subst againStored
    exact ⟨identifiers, againKey.trans firstKey.symm, againPayload.symm.trans firstPayload⟩

/-- Nothing is lost or merged exactly when the readings at the first
submissions of the keys are pairwise distinct. -/
theorem noJobLost_iff_readings_distinct {history : List StoreTransition} {store : SQLiteJobStore}
    (run : Run StoreCall.step SQLiteJobStore.empty history store) :
    NoJobLost history ↔ (firstReadings (history.map (·.label))).Nodup := by
  constructor
  · intro lossless
    obtain ⟨_, answers⟩ := run_first_answers run
    refine List.Nodup.map_on ?_ (List.Nodup.of_map _ (firstSubmissions_keys_nodup _))
    intro left leftMember right rightMember sameClock
    by_cases sameKey : left.1 = right.1
    · exact Prod.ext sameKey sameClock
    · obtain ⟨leftTransition, leftIncluded, leftJob, leftSubmits, leftReturned, leftId⟩ :=
        answers left.1 left.2 leftMember
      obtain ⟨rightTransition, rightIncluded, rightJob, rightSubmits, rightReturned, rightId⟩ :=
        answers right.1 right.2 rightMember
      have separate := lossless.distinct leftTransition leftIncluded rightTransition rightIncluded
        left.1 right.1 leftJob rightJob leftSubmits rightSubmits sameKey leftReturned rightReturned
      exact absurd (by rw [leftId, rightId, sameClock]) separate
  · exact noJobLost_of_distinct run

/-- Two keys submitted at different readings, the first one submitted again. -/
theorem noJobLost_two_keys :
    ∃ history store, Run StoreCall.step SQLiteJobStore.empty history store ∧
      history.length = 3 ∧ NoJobLost history := by
  let calls : List StoreCall := [.submitJob "arima" "key_cpi" [] 7,
    .submitJob "backtest" "key_fail" [] 8, .submitJob "arima" "key_cpi" [] 8]
  have ran : (execute StoreCall.step SQLiteJobStore.empty calls).isSome := rfl
  obtain ⟨outcome, executed⟩ := Option.isSome_iff_exists.mp ran
  have run := execute_run executed
  cases executed
  exact ⟨_, _, run, rfl, (noJobLost_iff_readings_distinct run).mpr (by decide)⟩

/-- Two keys submitted in one millisecond share an identifier. -/
theorem noJobLost_fails_on_clash :
    ∃ history store, Run StoreCall.step SQLiteJobStore.empty history store ∧
      ¬ NoJobLost history := by
  let calls : List StoreCall :=
    [.submitJob "arima" "key_cpi" [] 7, .submitJob "backtest" "key_fail" [] 7]
  have ran : (execute StoreCall.step SQLiteJobStore.empty calls).isSome := rfl
  obtain ⟨outcome, executed⟩ := Option.isSome_iff_exists.mp ran
  have run := execute_run executed
  cases executed
  refine ⟨_, _, run, ?_⟩
  intro lossless
  exact lossless.distinct _ (List.mem_cons_self) _ (List.mem_cons_of_mem _ List.mem_cons_self)
    "key_cpi" "key_fail" _ _ rfl rfl (by decide) rfl rfl rfl

end DurableAgent.Jobs
