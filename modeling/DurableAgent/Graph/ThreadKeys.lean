import DurableAgent.Graph.Nodes
import DurableAgent.Library.Delimited
import DurableAgent.Library.TransitionSystem

/-!
# Keys of several threads

A thread identifier is any text, and it stands unescaped in the key. The step behind it is
still found again: it is what follows the last underscore.
-/

set_option autoImplicit false

namespace DurableAgent.Graph

open Jobs Library Python

private theorem toList_threadKey (threadId : String) (step : Nat) :
    (threadKey threadId step).toList =
      ("thread_" ++ threadId ++ "_step").toList ++ '_' :: step.repr.toList := by
  simp [threadKey]

theorem threadKey_inj {left right : String} {leftStep rightStep : Nat} :
    threadKey left leftStep = threadKey right rightStep ↔ left = right ∧ leftStep = rightStep := by
  constructor
  · intro same
    have chars := congrArg String.toList same
    rw [toList_threadKey, toList_threadKey] at chars
    have plain : ∀ step : Nat, '_' ∉ step.repr.toList := fun step member => by
      simpa using isDigit_of_mem_repr member
    obtain ⟨front, digits⟩ := last_separator_unique (plain leftStep) (plain rightStep) chars
    have named : "thread_" ++ left ++ "_step" = "thread_" ++ right ++ "_step" :=
      String.toList_inj.mp front
    exact ⟨(String.append_right_inj _).mp ((String.append_left_inj _).mp named),
      repr_injective (String.toList_inj.mp digits)⟩
  · rintro ⟨rfl, rfl⟩
    rfl

/-! ## Threads that share a store -/

/-- A submission of a thread at one of its steps, or what workers and clients do to a record. -/
inductive ThreadCall where
  | submitJob (threadId : String) (currentStep : Nat) (jobType : String) (payload : Dict)
      (clock : Nat)
  | updateJobStatus (jobId : String) (status : JobStatus) (result : Option JobResult)
      (error : Option String)
  | recount (jobId : String) (attempts budget : JobRecord → Nat)

namespace ThreadCall

def step (store : SQLiteJobStore) : ThreadCall → Option SQLiteJobStore
  | submitJob threadId currentStep jobType payload clock =>
      some (store.submitJob jobType (threadKey threadId currentStep) payload clock).2
  | updateJobStatus jobId status result error =>
      some (store.updateJobStatus jobId status result error).2
  | recount jobId attempts budget =>
      some (store.mutate jobId fun job =>
        { job with attemptCount := attempts job, maxAttempts := budget job })

end ThreadCall

abbrev SharedTransition := Transition SQLiteJobStore ThreadCall

/-- The call made the record for the thread at this step, and returned no existing one. -/
def SharedTransition.Creates (transition : SharedTransition) (threadId : String)
    (currentStep : Nat) (job : JobRecord) : Prop :=
  ∃ clock,
    transition.label = .submitJob threadId currentStep job.jobType job.payload clock ∧
    transition.source.findByKey (threadKey threadId currentStep) = none ∧
    job.jobId = jobIdAt clock ∧ job.idempotencyKey = threadKey threadId currentStep

/-- Every submission returns a record that a submission of the same thread at the same step
made, and of no other thread or step. -/
def HandsOutOwn (history : List SharedTransition) : Prop :=
  ∀ earlier transition later, history = earlier ++ transition :: later →
    ∀ threadId currentStep jobType payload clock,
      transition.label = .submitJob threadId currentStep jobType payload clock →
      ∀ job, (transition.source.submitJob jobType (threadKey threadId currentStep) payload
          clock).1 = job →
        (∃ creation ∈ earlier ++ [transition], creation.Creates threadId currentStep job) ∧
        ∀ creation ∈ history, ∀ other otherStep,
          creation.Creates other otherStep job → other = threadId ∧ otherStep = currentStep

/-- Every record of the store was made by a call of the history. -/
def Created (history : List SharedTransition) (store : SQLiteJobStore) : Prop :=
  ∀ jobId job, store.getJob jobId = some job →
    ∃ creation ∈ history, ∃ threadId currentStep, creation.Creates threadId currentStep job

section Runs

variable {history : List SharedTransition} {store : SQLiteJobStore}

theorem Created.snoc (created : Created history store) (transition : SharedTransition) :
    Created (history ++ [transition]) store := by
  intro jobId job found
  obtain ⟨creation, member, made⟩ := created jobId job found
  exact ⟨creation, List.mem_append_left _ member, made⟩

/-- What workers and clients write leaves the creation of a record as it was. -/
theorem Created.mutate (created : Created history store) (jobId : String)
    {change : JobRecord → JobRecord}
    (keeps : ∀ job, (change job).jobId = job.jobId ∧ (change job).jobType = job.jobType ∧
      (change job).payload = job.payload ∧ (change job).idempotencyKey = job.idempotencyKey) :
    Created history (store.mutate jobId change) := by
  intro other job found
  rw [SQLiteJobStore.getJob_mutate] at found
  split at found
  · obtain ⟨before, stored, rfl⟩ := Option.map_eq_some_iff.mp found
    obtain ⟨creation, member, threadId, currentStep, clock, label, new, identifier, key⟩ :=
      created other before stored
    obtain ⟨sameId, sameType, samePayload, sameKey⟩ := keeps before
    refine ⟨creation, member, threadId, currentStep, clock, ?_, new, ?_, ?_⟩
    · rw [label, sameType, samePayload]
    · rw [sameId, identifier]
    · rw [sameKey, key]
  · exact created other job found

/-- The record that a submission returns was made by it or by a call before it. -/
theorem Created.submitJob (created : Created history store) (threadId : String)
    (currentStep : Nat) (jobType : String) (payload : Dict) (clock : Nat)
    (next : SQLiteJobStore) :
    ∃ creation ∈ history ++
        [⟨store, .submitJob threadId currentStep jobType payload clock, next⟩],
      ∃ creator step, creation.Creates creator step
        (store.submitJob jobType (threadKey threadId currentStep) payload clock).1 := by
  rcases store.submitJob_cases jobType (threadKey threadId currentStep) payload clock with
    ⟨existing, found, outcome⟩ | ⟨unknown, outcome⟩
  · obtain ⟨jobId, stored⟩ := SQLiteJobStore.mem_jobs_iff.mp
      (SQLiteJobStore.findByKey_some found).1
    rw [outcome]
    exact created.snoc _ jobId existing stored
  · rw [outcome]
    exact ⟨_, List.mem_append_right _ List.mem_cons_self, threadId, currentStep, clock, rfl,
      unknown, rfl, rfl⟩

theorem Created.step (created : Created history store) {call : ThreadCall}
    {next : SQLiteJobStore} (stepped : call.step store = some next) :
    Created (history ++ [⟨store, call, next⟩]) next := by
  cases call with
  | submitJob threadId currentStep jobType payload clock =>
      obtain ⟨creation, member, made⟩ :=
        created.submitJob threadId currentStep jobType payload clock next
      cases stepped
      rcases store.submitJob_cases jobType (threadKey threadId currentStep) payload clock with
        ⟨existing, found, outcome⟩ | ⟨unknown, outcome⟩
      · intro jobId job stored
        rw [outcome] at stored
        exact created.snoc _ jobId job stored
      · intro jobId job stored
        rw [outcome] at stored made
        by_cases same : jobId = jobIdAt clock
        · subst jobId
          rw [SQLiteJobStore.getJob_insert_self] at stored
          cases stored
          exact ⟨creation, member, made⟩
        · rw [SQLiteJobStore.getJob_insert_of_ne store same] at stored
          exact created.snoc _ jobId job stored
  | updateJobStatus jobId status result error =>
      cases stepped
      apply Created.snoc
      exact created.mutate jobId fun _ => ⟨rfl, rfl, rfl, rfl⟩
  | recount jobId attempts budget =>
      cases stepped
      apply Created.snoc
      exact created.mutate jobId fun _ => ⟨rfl, rfl, rfl, rfl⟩

theorem run_created (run : Run ThreadCall.step .empty history store) :
    Created history store := by
  induction run with
  | nil => exact fun jobId job found => by simp at found
  | snoc _ stepped created => exact created.step stepped

/-- No thread is ever handed the job of another thread or of another step through its key. -/
theorem threadKeys_separate (run : Run ThreadCall.step .empty history store) :
    (∀ left right leftStep rightStep, threadKey left leftStep = threadKey right rightStep →
      left = right ∧ leftStep = rightStep) ∧ HandsOutOwn history := by
  refine ⟨fun _ _ _ _ => threadKey_inj.mp, ?_⟩
  rintro earlier transition later rfl threadId currentStep jobType payload clock label job rfl
  have returned := SQLiteJobStore.submitJob_key transition.source jobType
    (threadKey threadId currentStep) payload clock
  -- a creator has the key of the record it made
  have own : ∀ creation : SharedTransition, ∀ other otherStep,
      creation.Creates other otherStep (transition.source.submitJob jobType
        (threadKey threadId currentStep) payload clock).1 →
      other = threadId ∧ otherStep = currentStep := by
    rintro creation other otherStep ⟨_, _, _, _, key⟩
    exact threadKey_inj.mp (key.symm.trans returned)
  refine ⟨?_, fun creation _ => own creation⟩
  obtain ⟨creation, member, creator, step, made⟩ :=
    (run_created run.around.1).submitJob threadId currentStep jobType payload clock
      transition.target
  obtain ⟨rfl, rfl⟩ := own creation creator step made
  rw [← label] at member
  exact ⟨creation, member, made⟩

end Runs

/-- A thread whose name looks like the key of another one. -/
theorem threadKeys_separate_lookalike :
    ∃ history store, Run ThreadCall.step .empty history store ∧
      history.map (fun transition => transition.target.jobs.map (·.idempotencyKey)) =
        [["thread_cpi_step_1_step_2"],
          ["thread_cpi_step_1_step_2", "thread_cpi_step_1"],
          ["thread_cpi_step_1_step_2", "thread_cpi_step_1"]] ∧
      HandsOutOwn history := by
  obtain ⟨history, store, run, _, keys⟩ := execute_observed ThreadCall.step .empty
    [.submitJob "cpi_step_1" 2 "arima" [] 7, .submitJob "cpi" 1 "arima" [] 8,
      .submitJob "cpi" 1 "arima" [] 9]
    (fun outcome => outcome.1.map fun transition =>
      transition.target.jobs.map (·.idempotencyKey))
    [["thread_cpi_step_1_step_2"], ["thread_cpi_step_1_step_2", "thread_cpi_step_1"],
      ["thread_cpi_step_1_step_2", "thread_cpi_step_1"]] (by decide +kernel)
  exact ⟨history, store, run, keys, (threadKeys_separate run).2⟩

end DurableAgent.Graph
