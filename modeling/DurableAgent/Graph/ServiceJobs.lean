import DurableAgent.Graph.Approval
import DurableAgent.Graph.Service

/-!
# Jobs and approvals of several threads

What the threads of a service have of their own: the jobs they submitted, the artifacts
they refer to and the approvals of their reviewers.
-/

set_option autoImplicit false

namespace DurableAgent.Graph

open Jobs Library Python

/-! ## Jobs -/

theorem indexed_submitJob {store : SQLiteJobStore} (indexed : store.Indexed)
    (jobType idempotencyKey : String) (payload : Dict) (clock : Nat) :
    (store.submitJob jobType idempotencyKey payload clock).2.Indexed := by
  rcases store.submitJob_cases jobType idempotencyKey payload clock with
    ⟨existing, _, outcome⟩ | ⟨_, outcome⟩
  · rw [outcome]
    exact indexed
  · rw [outcome]
    exact indexed.insert (queuedRecord jobType idempotencyKey payload clock)

theorem StoreChange.indexed {foreign : String → Prop} {source target : SQLiteJobStore}
    (change : StoreChange foreign source target) (indexed : source.Indexed) : target.Indexed := by
  cases change with
  | submitJob jobType idempotencyKey payload clock _ =>
      exact indexed_submitJob indexed jobType idempotencyKey payload clock
  | updateJobStatus jobId status error _ => exact indexed.mutate jobId fun _ => rfl
  | succeed jobId => exact indexed.mutate jobId fun _ => rfl
  | recount jobId attempts budget => exact indexed.mutate jobId fun _ => rfl

theorem UniqueActivity.indexed {foreign : String → Prop} {source target : SQLiteJobStore}
    (activity : UniqueActivity foreign source target) (indexed : source.Indexed) :
    target.Indexed := by
  induction activity with
  | refl => exact indexed
  | tail _ change ih => exact StoreChange.indexed change.1 ih

theorem UniqueActivity.keepsRecords {foreign : String → Prop} {source target : SQLiteJobStore}
    (activity : UniqueActivity foreign source target) : KeepsRecords source target := by
  induction activity with
  | refl => exact .refl _
  | tail _ change ih =>
      intro jobId job found
      obtain ⟨between, stored, sameKey⟩ := ih jobId job found
      obtain ⟨kept, stays, keptKey⟩ := change.2 jobId between stored
      exact ⟨kept, stays, keptKey.trans sameKey⟩

/-- The record is stored under a key of the thread. -/
def SubmittedBy (threadId jobId : String) (store : SQLiteJobStore) : Prop :=
  ∃ job step, store.getJob jobId = some job ∧ job.idempotencyKey = threadKey threadId step

theorem SubmittedBy.kept {threadId jobId : String} {source target : SQLiteJobStore}
    (submitted : SubmittedBy threadId jobId source) (keeps : KeepsRecords source target) :
    SubmittedBy threadId jobId target := by
  obtain ⟨job, step, found, key⟩ := submitted
  obtain ⟨kept, stays, sameKey⟩ := keeps jobId job found
  exact ⟨kept, step, stays, sameKey.trans key⟩

theorem SubmittedBy.unique {left right jobId : String} {store : SQLiteJobStore}
    (first : SubmittedBy left jobId store) (second : SubmittedBy right jobId store) :
    left = right := by
  obtain ⟨job, step, found, key⟩ := first
  obtain ⟨other, otherStep, stored, otherKey⟩ := second
  cases found.symm.trans stored
  exact (threadKey_inj.mp (key.symm.trans otherKey)).1

/-- A submission hands out a record under its own key. -/
theorem submittedBy_submitJob {store : SQLiteJobStore} (indexed : store.Indexed)
    (threadId : String) (step : Nat) (jobType : String) (payload : Dict) (clock : Nat) :
    SubmittedBy threadId
      (store.submitJob jobType (threadKey threadId step) payload clock).1.jobId
      (store.submitJob jobType (threadKey threadId step) payload clock).2 := by
  rcases store.submitJob_cases jobType (threadKey threadId step) payload clock with
    ⟨existing, found, outcome⟩ | ⟨_, outcome⟩
  · obtain ⟨member, key⟩ := SQLiteJobStore.findByKey_some found
    rw [outcome]
    exact ⟨existing, step, indexed.of_mem member, key⟩
  · rw [outcome]
    exact ⟨_, step, SQLiteJobStore.getJob_insert_self _ _ _, rfl⟩

/-- The jobs of a thread are stored, and under its own keys. -/
structure OwnsJobs (threadId : String) (thread : Thread) : Prop where
  vouched : Vouched threadId thread
  indexed : thread.store.Indexed
  own : ∀ jobId ∈ thread.values.activeJobIds, SubmittedBy threadId jobId thread.store

section Threads

variable {host : Host} {threadId : String} {history : List ThreadTransition}
  {thread next : Thread}

theorem OwnsJobs.behind (owns : OwnsJobs threadId thread) {store : SQLiteJobStore}
    (activity : UniqueActivity (Foreign threadId) thread.store store) :
    OwnsJobs threadId { thread with store := store } where
  vouched := {
    booked := {
      controlled := ⟨owns.vouched.booked.controlled.routed, owns.vouched.booked.controlled.paused,
        owns.vouched.booked.controlled.named⟩
      processed := StoreActivity.processed activity.activity owns.vouched.booked.processed
      accounts := owns.vouched.booked.accounts }
    produced := fun jobId member => activity.produced (owns.vouched.produced jobId member) }
  indexed := UniqueActivity.indexed activity owns.indexed
  own := fun jobId member => (owns.own jobId member).kept (UniqueActivity.keepsRecords activity)

private theorem OwnsJobs.advance (owns : OwnsJobs threadId thread) {node : Node}
    {review : Option Dict} (executing : thread.position = .executing node review) (clock : Nat)
    (keeps : KeepsRecords thread.store (thread.advance host node review thread.store clock).store)
    {jobId : String}
    (member : jobId ∈
      (thread.advance host node review thread.store clock).values.activeJobIds) :
    SubmittedBy threadId jobId (thread.advance host node review thread.store clock).store := by
  rcases thread.advance_cases host node review thread.store clock with
    ⟨update, changed, executed, outcome⟩ | ⟨_, outcome⟩ | ⟨exception, _, outcome⟩
  · rw [outcome] at member keeps ⊢
    cases executed with
    | submits _ jobType payload decision admitted =>
        rcases mem_reduceUniqueStrList.mp member with old | new
        · exact (owns.own jobId old).kept keeps
        · rw [List.mem_singleton.mp new]
          have named : thread.values.threadId = some threadId :=
            owns.vouched.booked.controlled.named (.inr ⟨_, _, executing⟩)
          have key : thread.values.idempotencyKey = threadKey threadId thread.values.steps := by
            simp [MacroAgentState.idempotencyKey, named]
          rw [key]
          exact submittedBy_submitJob owns.indexed threadId _ jobType payload clock
    | parseRequest | assembleContext | decides | denies | skips | completes | fails | waits
    | aborts | delivers => exact (owns.own jobId member).kept keeps
  · rw [outcome] at member keeps ⊢
    exact (owns.own jobId member).kept keeps
  · rw [outcome] at member keeps ⊢
    exact (owns.own jobId member).kept keeps

theorem Thread.advance_indexed (thread : Thread) (host : Host) (node : Node)
    (review : Option Dict) {store : SQLiteJobStore} (clock : Nat) (indexed : store.Indexed) :
    (thread.advance host node review store clock).store.Indexed :=
  thread.advance_store_keeps host node review clock indexed fun _ jobType payload =>
    indexed_submitJob indexed jobType _ payload clock

theorem OwnsJobs.step (owns : OwnsJobs threadId thread) {action : ThreadAction}
    (stepped : thread.step host threadId action = some next)
    (orderly : Orderly threadId ⟨thread, action, next⟩) : OwnsJobs threadId next := by
  have vouched := owns.vouched.step stepped orderly
  cases Thread.step_cases stepped with
  | runWorkflow runId userQuery settled => exact ⟨vouched, owns.indexed, owns.own⟩
  | resumeWorkflow review paused => exact ⟨vouched, owns.indexed, owns.own⟩
  | node node review store clock executing =>
      obtain ⟨activity, keeps⟩ := orderly store rfl
      have beside := owns.behind activity
      exact ⟨vouched, Thread.advance_indexed _ host node review clock beside.indexed,
        fun jobId member => beside.advance executing clock keeps member⟩
  | others store settled =>
      obtain ⟨activity, _⟩ := orderly store rfl
      exact owns.behind activity
  | crash node review store clock executing =>
      obtain ⟨activity, keeps⟩ := orderly store rfl
      have beside := owns.behind activity
      refine ⟨vouched, ?_, fun jobId member => (beside.own jobId member).kept keeps⟩
      cases clock with
      | none => exact beside.indexed
      | some reading => exact Thread.advance_indexed _ host node review reading beside.indexed

theorem run_ownsJobs (run : Run (Thread.step host threadId) Thread.initial history thread)
    (orderly : ∀ transition ∈ history, Orderly threadId transition) :
    OwnsJobs threadId thread := by
  induction run with
  | nil =>
      have started : Run (Thread.step host threadId) Thread.initial [] Thread.initial := .nil
      have vouched : Vouched threadId Thread.initial := run_vouched started (by simp)
      refine ⟨vouched, ?_, by simp [Thread.initial]⟩
      intro jobId job member
      cases member
  | snoc _ stepped ih =>
      have before := ih fun transition member => orderly transition (List.mem_append_left _ member)
      exact before.step stepped (orderly _ (by simp))

end Threads

/-- What the threads of a service refer to is their own. -/
structure JobsApart (service : MacroAgentGraphService) : Prop where
  agree : ∀ threadId, BooksAgree (service.threadAt threadId)
  own : ∀ threadId, ∀ jobId ∈ (service.threads threadId).values.activeJobIds,
    SubmittedBy threadId jobId service.jobs.store
  jobs : ∀ left right, left ≠ right →
    List.Disjoint (service.threads left).values.activeJobIds
      (service.threads right).values.activeJobIds
  artifacts : ∀ left right, left ≠ right →
    List.Disjoint (service.threads left).values.artifactRefs
      (service.threads right).values.artifactRefs

/-- An approval of the plan on this thread that no later review on it has withdrawn. -/
def ApprovedOn (threadId : String) (history : List ServiceTransition) (plan : Value) : Prop :=
  ∃ earlier approval later review, history = earlier ++ approval :: later ∧
    approval.label = .thread threadId (.resumeWorkflow review) ∧
    reviewAction review = .str "approved" ∧
    reviewedPlan (approval.source.threads threadId).values.plan review = plan ∧
    ∀ moment ∈ later, ∀ withdrawal,
      moment.label = .thread threadId (.resumeWorkflow withdrawal) →
      (reviewAction withdrawal = .str "edited" ∨ reviewAction withdrawal = .str "rejected") →
      (moment.source.threads threadId).values.plan ≠ plan

theorem label_of_own {threadId : String} {transition : ServiceTransition} {review : Dict}
    (owned : ownAction threadId transition = some (.resumeWorkflow review)) :
    transition.label = .thread threadId (.resumeWorkflow review) := by
  unfold ownAction at owned
  cases label : transition.label with
  | pool action => simp [label] at owned
  | thread other command =>
      by_cases same : other = threadId
      · subst same
        cases command with
        | resumeWorkflow answer =>
            simp only [label, ↓reduceIte, ThreadCommand.resolve, Option.some.injEq,
              ThreadAction.resumeWorkflow.injEq] at owned
            rw [owned]
        | runWorkflow | node | crash => simp [label, ThreadCommand.resolve] at owned
      · simp [label, same] at owned

section Services

variable {host : Host} {history : List ServiceTransition} {service : MacroAgentGraphService}

theorem ShowsThread.ownsJobs {threadId : String} {thread : Thread}
    (shown : ShowsThread UniqueChange threadId service thread) (owns : OwnsJobs threadId thread) :
    OwnsJobs threadId (service.threadAt threadId) := by
  rw [shown.threadAt]
  exact owns.behind shown.store

theorem run_threads_ownJobs
    (run : Run (MacroAgentGraphService.step host) .initial history service)
    (apart : ∀ transition ∈ history, ClientsApart transition)
    (fresh : ∀ transition ∈ history, FreshReading transition) (threadId : String) :
    OwnsJobs threadId (service.threadAt threadId) := by
  obtain ⟨taken, thread, ran, shown, attended, _⟩ :=
    thread_projects run (run_undisturbed_orderly run apart fresh) threadId
  exact shown.ownsJobs (run_ownsJobs ran attended)

private theorem BooksAgree.artifact {thread : Thread} (agrees : BooksAgree thread)
    {artifact : ArtifactRef} (member : artifact ∈ thread.values.artifactRefs) :
    ∃ jobId ∈ thread.values.activeJobIds, artifact.artifactId = "art_" ++ jobId := by
  obtain ⟨jobId, completed, _, _, _, _, _, named⟩ :=
    counterpart_of_mem agrees.artifacts.flip member
  exact ⟨jobId, agrees.submitted completed, named⟩

/-- In every interleaving the channels of each thread agree with the store that all share,
and no job or artifact is in the channels of two threads. -/
theorem jobs_apart (run : Run (MacroAgentGraphService.step host) .initial history service)
    (apart : ∀ transition ∈ history, ClientsApart transition)
    (fresh : ∀ transition ∈ history, FreshReading transition) : JobsApart service := by
  have owns := run_threads_ownJobs run apart fresh
  have jobs : ∀ left right, left ≠ right →
      List.Disjoint (service.threads left).values.activeJobIds
        (service.threads right).values.activeJobIds := by
    intro left right different jobId first second
    exact different (((owns left).own jobId first).unique ((owns right).own jobId second))
  refine ⟨fun threadId => (owns threadId).vouched.agrees, fun threadId => (owns threadId).own,
    jobs, ?_⟩
  intro left right different artifact first second
  obtain ⟨jobId, active, named⟩ := (owns left).vouched.agrees.artifact first
  obtain ⟨other, otherActive, otherNamed⟩ := (owns right).vouched.agrees.artifact second
  obtain rfl : jobId = other := (String.append_right_inj _).mp (named.symm.trans otherNamed)
  exact jobs left right different active otherActive

/-- A thread that submits as approved was approved by a review of its own: no review on
another thread releases its plan. -/
theorem approvals_apart (run : Run (MacroAgentGraphService.step host) .initial history service)
    (apart : ∀ transition ∈ history, ClientsApart transition) (threadId : String)
    {review : Option Dict}
    (executing : (service.threads threadId).position = .executing .submitMcpJob review)
    (approved : (service.threads threadId).values.approvalStatus = .str "approved") :
    ApprovedOn threadId history (service.threads threadId).values.plan := by
  obtain ⟨taken, thread, ran, shown, _, matched⟩ :=
    thread_projects run (run_undisturbed_regular run apart) threadId
  rw [← shown.values] at approved ⊢
  obtain ⟨earlier, approval, later, split, ⟨answer, label, action, plan⟩, kept⟩ :=
    approvedFor_of_executing ran (shown.position.trans executing) (by decide) (by decide) approved
  obtain ⟨before, transition, after, parts, takes, _, matchedAfter⟩ :=
    Component.taken_split matched split
  refine ⟨before, transition, after, answer, parts, ?_, action, ?_, ?_⟩
  · exact label_of_own (takes.own.trans (congrArg some label))
  · rw [← takes.source.values]
    exact plan
  · intro moment member withdrawal named withdraws same
    have owned : moment ∈ after.filter (threadOf StoreChange threadId).owns := by
      refine List.mem_filter.mpr ⟨member, ?_⟩
      simp [Component.owns, threadOf, ownAction, named]
    obtain ⟨counterpart, listed, corresponds⟩ := counterpart_of_mem matchedAfter owned
    refine kept counterpart listed ⟨withdrawal, ?_, withdraws, ?_⟩
    · have labelled := corresponds.own
      simp only [threadOf, ownAction, named, ↓reduceIte, ThreadCommand.resolve] at labelled
      exact (Option.some.inj labelled).symm
    · rw [corresponds.source.values]
      exact same

end Services

private def sharedCalls : List ServiceAction :=
  [.thread "cpi" (.runWorkflow "r1" "Analyze CPI"), .thread "gdp" (.runWorkflow "r2" "Analyze GDP"),
    .thread "cpi" (.node 0), .thread "gdp" (.node 0), .thread "gdp" (.node 0),
    .thread "cpi" (.node 0), .thread "cpi" (.node 7), .pool (.processLoop 0),
    .thread "gdp" (.node 8), .pool (.processLoop 1), .pool (.startExecution (jobIdAt 8)),
    .pool (.wakeExecution (jobIdAt 8)), .thread "gdp" (.runWorkflow "r3" "status?"),
    .thread "gdp" (.node 0), .thread "gdp" (.node 0), .thread "gdp" (.node 0)]

def readsFresh (transition : ServiceTransition) : Bool :=
  match transition.label with
  | .thread _ command =>
      command.clock.all fun clock =>
        (transition.source.jobs.store.getJob (jobIdAt clock)).isNone
  | .pool _ => true

theorem freshReading_of_readsFresh {transition : ServiceTransition}
    (fresh : readsFresh transition = true) : FreshReading transition := by
  intro threadId command clock label reading
  simpa [readsFresh, label, reading] using fresh

/-- Two threads that work at a time: one has its artifact, and the job of the other runs. -/
theorem jobs_apart_two_threads :
    ∃ history service,
      Run (MacroAgentGraphService.step Host.ascii) .initial history service ∧
        (service.threads "cpi").values.activeJobIds = [jobIdAt 7] ∧
        (service.threads "gdp").values.artifactRefs = [processedArtifact (jobIdAt 8)] ∧
        JobsApart service := by
  obtain ⟨history, service, run, labels, observed⟩ :=
    execute_observed (MacroAgentGraphService.step Host.ascii) .initial sharedCalls
      (fun outcome => (outcome.1.all readsFresh,
        (outcome.2.threads "cpi").values.activeJobIds,
        (outcome.2.threads "gdp").values.artifactRefs))
      (true, [jobIdAt 7], [processedArtifact (jobIdAt 8)]) (by decide +kernel)
  obtain ⟨fresh, rest⟩ := Prod.mk.inj observed
  obtain ⟨active, artifacts⟩ := Prod.mk.inj rest
  exact ⟨history, service, run, active, artifacts,
    jobs_apart run (clientsApart_of_threads labels (by decide)) fun transition member =>
      freshReading_of_readsFresh (List.all_eq_true.mp fresh transition member)⟩

private def reviewedCalls : List ServiceAction :=
  [.thread "cpi" (.runWorkflow "r1" "Diagnose CPI trends"),
    .thread "gdp" (.runWorkflow "r2" "Diagnose GDP trends"),
    .thread "cpi" (.node 0), .thread "cpi" (.node 0), .thread "cpi" (.node 0),
    .thread "gdp" (.node 0), .thread "gdp" (.node 0), .thread "gdp" (.node 0),
    .thread "gdp" (.resumeWorkflow [("action", .str "rejected")]),
    .thread "cpi" (.resumeWorkflow [("action", .str "approved")]),
    .thread "gdp" (.node 0), .thread "cpi" (.node 0), .thread "cpi" (.node 0)]

private def atSubmission : Position → Bool
  | .executing .submitMcpJob _ => true
  | _ => false

private theorem atSubmission_executing {position : Position} (stands : atSubmission position = true) :
    ∃ review, position = .executing .submitMcpJob review := by
  unfold atSubmission at stands
  split at stands
  · exact ⟨_, rfl⟩
  · cases stands

/-- Two reviews at a time: the approved thread is about to submit. -/
theorem approvals_apart_two_threads :
    ∃ history service review,
      Run (MacroAgentGraphService.step Host.ascii) .initial history service ∧
        (service.threads "cpi").position = .executing .submitMcpJob review ∧
        ApprovedOn "cpi" history (service.threads "cpi").values.plan := by
  obtain ⟨history, service, run, labels, observed⟩ :=
    execute_observed (MacroAgentGraphService.step Host.ascii) .initial reviewedCalls
      (fun outcome => (atSubmission (outcome.2.threads "cpi").position,
        (outcome.2.threads "cpi").values.approvalStatus.isStr "approved"))
      (true, true) (by decide +kernel)
  obtain ⟨stands, approved⟩ := Prod.mk.inj observed
  obtain ⟨review, executing⟩ := atSubmission_executing stands
  have apart := clientsApart_of_threads labels (by decide)
  exact ⟨history, service, review, run, executing,
    approvals_apart run apart "cpi" executing (Value.isStr_iff.mp approved)⟩

end DurableAgent.Graph
