import DurableAgent.Graph.Delivery

/-!
# Job bookkeeping against the job store

The three job channels of a thread and the records that workers and clients
change meanwhile, with unique job identifiers.
-/

set_option autoImplicit false

namespace DurableAgent.Graph

open Capability Jobs Library Python

/-- Other parties act regularly, and neither they nor the thread take a job
identifier that is in use. -/
def Orderly (threadId : String) (transition : ThreadTransition) : Prop :=
  ∀ store, transition.label.leftStore = some store →
    UniqueActivity (Foreign threadId) transition.source.store store ∧
      KeepsRecords store transition.target.store

theorem Orderly.regular {threadId : String} {transition : ThreadTransition}
    (orderly : Orderly threadId transition) : Regular threadId transition :=
  fun store left => (orderly store left).1.activity

/-- The channels are in order, and a result has been produced for each completed job. -/
structure Vouched (threadId : String) (thread : Thread) : Prop where
  booked : Booked threadId thread
  produced : ∀ jobId ∈ thread.values.completedJobIds, Produced jobId thread.store

/-- A completed job and the artifact that its record holds. -/
def ReferencesResult (store : SQLiteJobStore) (jobId : String) (artifact : ArtifactRef) : Prop :=
  ∃ job result, store.getJob jobId = some job ∧ job.result = some result ∧
    artifact = result.artifactRef ∧ artifact.artifactId = "art_" ++ jobId

structure BooksAgree (thread : Thread) : Prop where
  single : thread.values.activeJobIds.length ≤ 1
  submitted : thread.values.completedJobIds ⊆ thread.values.activeJobIds
  distinct : thread.values.completedJobIds.Nodup
  artifacts : List.Forall₂ (ReferencesResult thread.store) thread.values.completedJobIds
    thread.values.artifactRefs
  latest : ∀ jobId ∈ thread.values.pendingJobs, thread.values.activeJobIds.getLast? = some jobId

section Vouched

variable {host : Host} {threadId : String} {history : List ThreadTransition}
  {thread next : Thread}

theorem Vouched.agrees (vouched : Vouched threadId thread) : BooksAgree thread := by
  cases vouched.booked.accounts with
  | idle noJob noResult noArtifact =>
      refine ⟨by simp [noJob], ?_, ?_, ?_, ?_⟩ <;>
        simp [MacroAgentState.completedJobIds, MacroAgentState.pendingJobs, noJob, noResult,
          noArtifact]
  | pending jobId active noResult noArtifact =>
      refine ⟨by simp [active], ?_, ?_, ?_, ?_⟩ <;>
        simp [MacroAgentState.completedJobIds, MacroAgentState.pendingJobs, active, noResult,
          noArtifact]
  | delivered jobId active recorded referenced =>
      have completed : thread.values.completedJobIds = [jobId] := by
        simp [MacroAgentState.completedJobIds, recorded]
      obtain ⟨job, found, result⟩ := vouched.produced jobId (by simp [completed])
      refine ⟨by simp [active], ?_, ?_, ?_, ?_⟩
      · simp [completed, active]
      · simp [completed]
      · rw [completed, referenced]
        exact .cons ⟨job, processedResult jobId, found, result, rfl, rfl⟩ .nil
      · simp [MacroAgentState.pendingJobs, completed, active]

private theorem advance_produced {jobId : String} (thread : Thread) (host : Host) (node : Node)
    (review : Option Dict) {store : SQLiteJobStore} (clock : Nat)
    (keeps : KeepsRecords store (thread.advance host node review store clock).store)
    (produced : Produced jobId store) :
    Produced jobId (thread.advance host node review store clock).store := by
  refine Thread.advance_store_keeps
    (motive := fun changed => KeepsRecords store changed → Produced jobId changed)
    thread host node review clock (fun _ => produced) ?_ keeps
  exact fun _ jobType payload keeps => produced.submitJob jobType _ payload clock keeps

private theorem completed_produced {values : MacroAgentState} {store changed : SQLiteJobStore}
    {clock : Nat} {node : Node} {review : Option Dict} {update : StateUpdate}
    (processed : store.Processed)
    (executed : Executed host values store clock node review (.updated update changed))
    {jobId : String} (member : jobId ∈ (values.apply update).completedJobIds) :
    jobId ∈ values.completedJobIds ∨ Produced jobId store := by
  cases executed with
  | completes _ latest job result _ found succeeded produced =>
      obtain ⟨entry, listed, rfl⟩ := List.mem_map.mp member
      rcases mem_reduceArtifactRefs listed with old | new
      · exact .inl (List.mem_map_of_mem old)
      · rw [List.mem_singleton.mp new]
        exact .inr ⟨job, found, processed latest job found succeeded⟩
  | parseRequest | assembleContext | decides | denies | submits | skips | fails | waits
  | aborts | delivers => exact .inl member

private theorem Vouched.node (vouched : Vouched threadId thread) {node : Node}
    {review : Option Dict} {store : SQLiteJobStore} (clock : Nat)
    (activity : UniqueActivity (Foreign threadId) thread.store store)
    (keeps : KeepsRecords store (thread.advance host node review store clock).store)
    {jobId : String}
    (member : jobId ∈ (thread.advance host node review store clock).values.completedJobIds) :
    Produced jobId (thread.advance host node review store clock).store := by
  refine advance_produced thread host node review clock keeps ?_
  have processed := StoreActivity.processed activity.activity vouched.booked.processed
  rcases thread.advance_values host node review store clock with
    ⟨update, changed, executed, outcome⟩ | outcome
  · rw [outcome] at member
    rcases completed_produced processed executed member with old | produced
    · exact activity.produced (vouched.produced jobId old)
    · exact produced
  · rw [outcome] at member
    exact activity.produced (vouched.produced jobId member)

theorem Vouched.step (vouched : Vouched threadId thread) {action : ThreadAction}
    (stepped : thread.step host threadId action = some next)
    (orderly : Orderly threadId ⟨thread, action, next⟩) : Vouched threadId next where
  booked := vouched.booked.step stepped orderly.regular
  produced := by
    intro jobId member
    cases Thread.step_cases stepped with
    | runWorkflow runId userQuery settled => exact vouched.produced jobId member
    | resumeWorkflow review paused => exact vouched.produced jobId member
    | node node review store clock executing =>
        obtain ⟨activity, keeps⟩ := orderly store rfl
        exact vouched.node clock activity keeps member
    | others store settled =>
        obtain ⟨activity, _⟩ := orderly store rfl
        exact activity.produced (vouched.produced jobId member)
    | crash node review store clock executing =>
        obtain ⟨activity, keeps⟩ := orderly store rfl
        have produced := activity.produced (vouched.produced jobId member)
        cases clock with
        | none => exact produced
        | some reading => exact advance_produced thread host node review reading keeps produced

theorem run_vouched (run : Run (Thread.step host threadId) Thread.initial history thread)
    (orderly : ∀ transition ∈ history, Orderly threadId transition) : Vouched threadId thread := by
  refine Run.preserves (Orderly threadId) (Vouched threadId) ?_ ?_ run orderly
  · exact ⟨Booked.initial, by simp [MacroAgentState.completedJobIds, Thread.initial]⟩
  · intro state action following vouched stepped permitted
    exact vouched.step stepped permitted

def PollsSafely (transition : ThreadTransition) : Prop :=
  ∀ review exception, transition.source.position = .executing .pollJobStatus review →
    transition.target.position ≠ .raised exception

private theorem Vouched.polls (vouched : Vouched threadId thread) {action : ThreadAction}
    (stepped : thread.step host threadId action = some next)
    (orderly : Orderly threadId ⟨thread, action, next⟩) :
    PollsSafely ⟨thread, action, next⟩ := by
  intro held exception polling raised
  cases Thread.step_cases stepped with
  | runWorkflow runId userQuery settled => exact settled _ _ polling
  | resumeWorkflow review paused => cases paused.symm.trans polling
  | others store settled => exact settled _ _ polling
  | crash => cases raised
  | node node review store clock executing =>
      cases executing.symm.trans polling
      have processed := StoreActivity.processed (orderly.regular store rfl) vouched.booked.processed
      rcases thread.advance_cases host .pollJobStatus held store clock with
        ⟨update, changed, _, outcome⟩ | ⟨_, outcome⟩ | ⟨_, executed, _⟩
      · rw [outcome] at raised
        unfold Thread.proceed at raised
        dsimp only at raised
        split at raised <;> cases raised
      · rw [outcome] at raised
        cases raised
      · cases executed with
        | subscripts _ jobId job _ found succeeded missing =>
            cases (processed jobId job found succeeded).symm.trans missing

/-- In every state that calls, other parties and crashes can lead to, the job
channels agree with the store, and no poll on the way has raised. -/
theorem books_agree (run : Run (Thread.step host threadId) Thread.initial history thread)
    (orderly : ∀ transition ∈ history, Orderly threadId transition) :
    BooksAgree thread ∧ ∀ transition ∈ history, PollsSafely transition := by
  refine ⟨(run_vouched run orderly).agrees, ?_⟩
  intro transition member
  obtain ⟨earlier, later, rfl⟩ := List.append_of_mem member
  obtain ⟨before, stepped, _⟩ := run.around
  have vouched : Vouched threadId transition.source :=
    run_vouched before fun taken included => orderly taken (List.mem_append_left _ included)
  exact vouched.polls stepped (orderly transition member)

end Vouched

private def fresh (transition : ThreadTransition) : Bool :=
  match transition.label with
  | .node store clock | .crash store (some clock) => (store.getJob (jobIdAt clock)).isNone
  | _ => true

private theorem keepsRecords_advance (thread : Thread) (host : Host) (node : Node)
    (review : Option Dict) {store : SQLiteJobStore} {clock : Nat}
    (free : store.getJob (jobIdAt clock) = none) :
    KeepsRecords store (thread.advance host node review store clock).store :=
  thread.advance_store_keeps host node review clock (.refl store) fun _ jobType payload =>
    .submitJob store jobType _ payload free

private theorem Command.orderly {host : Host} {threadId : String} {thread next : Thread}
    (command : Command) (stepped : thread.step host threadId (command.resolve thread) = some next)
    (free : fresh ⟨thread, command.resolve thread, next⟩ = true) :
    Orderly threadId ⟨thread, command.resolve thread, next⟩ := by
  intro store left
  cases command with
  | runWorkflow | resumeWorkflow => cases left
  | node clock =>
      cases left
      obtain ⟨node, review, _, rfl⟩ := Thread.step_node_inv stepped
      exact ⟨.refl, keepsRecords_advance thread host node review (Option.isNone_iff_eq_none.mp free)⟩
  | crash clock =>
      cases left
      cases Thread.step_cases stepped with
      | crash node review _ _ executing =>
          refine ⟨.refl, ?_⟩
          cases clock with
          | none => exact .refl _
          | some reading =>
              exact keepsRecords_advance thread host node review
                (Option.isNone_iff_eq_none.mp free)
  | succeed jobId =>
      cases left
      cases Thread.step_cases stepped with
      | others =>
          exact ⟨.single ⟨.succeed jobId, .mutate _ _ fun _ => rfl⟩, .refl _⟩
  | fail jobId =>
      cases left
      cases Thread.step_cases stepped with
      | others =>
          exact ⟨.single ⟨.updateJobStatus jobId .failed none (by decide), .mutate _ _ fun _ => rfl⟩,
            .refl _⟩

/-- The job of a first request succeeds, and a second request delivers it. -/
theorem books_agree_after_delivery :
    ∃ history thread, Run (Thread.step Host.ascii "t") Thread.initial history thread ∧
      thread.values.completedJobIds = [jobIdAt 5] ∧ BooksAgree thread ∧
      ∀ transition ∈ history, PollsSafely transition := by
  obtain ⟨history, thread, run, commanded, observed⟩ :=
    scenario_commanded Host.ascii "t"
      [.runWorkflow "r1" "Analyze CPI", .node 0, .node 0, .node 5, .succeed (jobIdAt 5),
        .runWorkflow "r2" "status?", .node 0, .node 0, .node 0, .node 0, .node 0]
      (fun outcome => (outcome.1.all fresh, outcome.2.values.completedJobIds))
      (true, [jobIdAt 5]) (by decide +kernel)
  obtain ⟨free, completed⟩ := Prod.mk.inj observed
  refine ⟨history, thread, run, completed, books_agree run ?_⟩
  intro transition member
  have stepped := run.stepped_of_mem member
  have unused := List.all_eq_true.mp free transition member
  obtain ⟨command, _, label⟩ := commanded transition member
  obtain ⟨source, action, target⟩ := transition
  dsimp only at label
  subst label
  exact command.orderly stepped unused

end DurableAgent.Graph
