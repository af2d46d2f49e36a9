import DurableAgent.Graph.Calls
import DurableAgent.Graph.ThreadKeys

/-!
# Submission under crashes

A key names the step at which a plan is submitted. After a crash the next run
submits at a later step, so a submission that was made and not noted is made
again under another key. Every other crash is harmless.
-/

set_option autoImplicit false

namespace DurableAgent.Graph

open Capability Jobs Library Python

/-- The store and the clock that a node's side effects have used. -/
def ThreadAction.effects : ThreadAction → Option (SQLiteJobStore × Nat)
  | .node store clock => some (store, clock)
  | .crash store clock => clock.map fun reading => (store, reading)
  | _ => none

/-- The key of a `submit_job` call and the record it returns. -/
def submission (host : Host) (transition : ThreadTransition) : Option (String × JobRecord) :=
  match transition.source.position, transition.label.effects with
  | .executing .submitMcpJob _, some (store, clock) =>
      match assess host.registry transition.source.values.plan with
      | .admitted jobType payload _ =>
          let key := transition.source.values.idempotencyKey
          some (key, (store.submitJob jobType key payload clock).1)
      | _ => none
  | _, _ => none

/-- A crash between the submission of a job and the checkpoint that notes it. -/
def LosesSubmission (host : Host) (transition : ThreadTransition) : Prop :=
  transition.label.isCrash = true ∧ (submission host transition).isSome = true

instance (host : Host) (transition : ThreadTransition) :
    Decidable (LosesSubmission host transition) :=
  inferInstanceAs (Decidable (_ ∧ _))

def AllForeign (threadId : String) (store : SQLiteJobStore) : Prop :=
  ∀ jobId job, store.getJob jobId = some job → Foreign threadId job.idempotencyKey

structure SubmittedOnce (host : Host) (threadId : String) (history : List ThreadTransition)
    (store : SQLiteJobStore) : Prop where
  single : ∀ left right leftJob rightJob, store.getJob left = some leftJob →
    store.getJob right = some rightJob → ¬ Foreign threadId leftJob.idempotencyKey →
    ¬ Foreign threadId rightJob.idempotencyKey → left = right
  sameRecord : ∀ first ∈ history, ∀ again ∈ history, ∀ key job againKey againJob,
    submission host first = some (key, job) → submission host again = some (againKey, againJob) →
    againKey = key ∧ againJob.jobId = job.jobId

/-- While no job is noted, none has been submitted. -/
structure Unrepeated (host : Host) (threadId : String) (history : List ThreadTransition)
    (thread : Thread) : Prop where
  controlled : Controlled threadId thread
  fresh : thread.values.activeJobIds = [] →
    AllForeign threadId thread.store ∧ ∀ transition ∈ history, submission host transition = none
  once : SubmittedOnce host threadId history thread.store

section Stores

variable {threadId : String} {source target : SQLiteJobStore}

theorem AllForeign.activity (foreign : AllForeign threadId source)
    (activity : StoreActivity (Foreign threadId) source target) : AllForeign threadId target := by
  intro jobId job found
  by_contra own
  obtain ⟨earlier, known, sameKey⟩ := StoreActivity.own_known activity found own
  exact own (sameKey ▸ foreign jobId earlier known)

theorem AllForeign.unknown {values : MacroAgentState} (foreign : AllForeign threadId source)
    (named : values.threadId = some threadId) : source.findByKey values.idempotencyKey = none := by
  rw [SQLiteJobStore.findByKey_eq_none_iff]
  intro job member same
  obtain ⟨jobId, found⟩ := SQLiteJobStore.mem_jobs_iff.mp member
  apply foreign jobId job found values.steps
  rw [same, MacroAgentState.idempotencyKey, named]
  rfl

/-- The thread has submitted under keys of steps below the bound only. -/
def KeyedBelow (threadId : String) (bound : Nat) (store : SQLiteJobStore) : Prop :=
  ∀ jobId job step, store.getJob jobId = some job →
    job.idempotencyKey = threadKey threadId step → step < bound

private theorem own_of_key {job : JobRecord} {step : Nat}
    (same : job.idempotencyKey = threadKey threadId step) :
    ¬ Foreign threadId job.idempotencyKey := fun foreign => foreign step same

theorem KeyedBelow.mono {lower upper : Nat} (below : KeyedBelow threadId lower source)
    (ordered : lower ≤ upper) : KeyedBelow threadId upper source :=
  fun jobId job step found key => (below jobId job step found key).trans_le ordered

theorem KeyedBelow.activity {bound : Nat} (below : KeyedBelow threadId bound source)
    (activity : StoreActivity (Foreign threadId) source target) :
    KeyedBelow threadId bound target := by
  intro jobId job step found key
  obtain ⟨earlier, known, sameKey⟩ := StoreActivity.own_known activity found (own_of_key key)
  exact below jobId earlier step known (sameKey.trans key)

/-- The key of the present step is unknown while all known keys are older. -/
theorem KeyedBelow.unknown {values : MacroAgentState}
    (below : KeyedBelow threadId values.steps source) (named : values.threadId = some threadId) :
    source.findByKey values.idempotencyKey = none := by
  rw [SQLiteJobStore.findByKey_eq_none_iff]
  intro job member same
  obtain ⟨jobId, found⟩ := SQLiteJobStore.mem_jobs_iff.mp member
  rw [MacroAgentState.idempotencyKey, named] at same
  exact absurd (below jobId job values.steps found same) (Nat.lt_irrefl _)

theorem KeyedBelow.submitJob {values : MacroAgentState}
    (below : KeyedBelow threadId values.steps source) (named : values.threadId = some threadId)
    (jobType : String) (payload : Dict) (clock : Nat) :
    KeyedBelow threadId (values.steps + 1)
      (source.submitJob jobType values.idempotencyKey payload clock).2 := by
  rw [SQLiteJobStore.submitJob_of_unknown (below.unknown named)]
  intro jobId job step found key
  by_cases same : jobId = jobIdAt clock
  · subst jobId
    rw [SQLiteJobStore.getJob_insert_self] at found
    cases found
    rw [MacroAgentState.idempotencyKey, named] at key
    have equal : values.steps = step := (threadKey_inj.mp key).2
    omega
  · rw [SQLiteJobStore.getJob_insert_of_ne source same] at found
    exact (below jobId job step found key).trans (Nat.lt_succ_self _)

theorem SubmittedOnce.activity {host : Host} {history : List ThreadTransition}
    (once : SubmittedOnce host threadId history source)
    (activity : StoreActivity (Foreign threadId) source target) :
    SubmittedOnce host threadId history target where
  single := by
    intro left right leftJob rightJob leftFound rightFound leftOwn rightOwn
    obtain ⟨leftBefore, leftKnown, leftKey⟩ := StoreActivity.own_known activity leftFound leftOwn
    obtain ⟨rightBefore, rightKnown, rightKey⟩ :=
      StoreActivity.own_known activity rightFound rightOwn
    exact once.single left right leftBefore rightBefore leftKnown rightKnown
      (leftKey ▸ leftOwn) (rightKey ▸ rightOwn)
  sameRecord := once.sameRecord

theorem SubmittedOnce.silent {host : Host} {history : List ThreadTransition}
    {transition : ThreadTransition} (once : SubmittedOnce host threadId history source)
    (silent : submission host transition = none) :
    SubmittedOnce host threadId (history ++ [transition]) source where
  single := once.single
  sameRecord := by
    intro first firstMember again againMember key job againKey againJob submitted resubmitted
    have earlier : ∀ moment ∈ history ++ [transition], submission host moment ≠ none →
        moment ∈ history := by
      intro moment member submits
      rcases List.mem_append.mp member with old | new
      · exact old
      · rw [List.mem_singleton.mp new] at submits
        exact absurd silent submits
    exact once.sameRecord first (earlier first firstMember (by simp [submitted])) again
      (earlier again againMember (by simp [resubmitted])) key job againKey againJob submitted
      resubmitted

theorem SubmittedOnce.first {host : Host} {history : List ThreadTransition}
    {transition : ThreadTransition} (foreign : AllForeign threadId source)
    (nothing : ∀ moment ∈ history, submission host moment = none) (jobId : String)
    (record : JobRecord) :
    SubmittedOnce host threadId (history ++ [transition]) ⟨source.db.insert jobId record⟩ where
  single := by
    have inserted : ∀ other job,
        (⟨source.db.insert jobId record⟩ : SQLiteJobStore).getJob other = some job →
        ¬ Foreign threadId job.idempotencyKey → other = jobId := by
      intro other job found own
      by_contra different
      rw [SQLiteJobStore.getJob_insert_of_ne source different] at found
      exact own (foreign other job found)
    intro left right leftJob rightJob leftFound rightFound leftOwn rightOwn
    rw [inserted left leftJob leftFound leftOwn, inserted right rightJob rightFound rightOwn]
  sameRecord := by
    have latest : ∀ moment ∈ history ++ [transition], submission host moment ≠ none →
        moment = transition := by
      intro moment member submits
      rcases List.mem_append.mp member with old | new
      · exact absurd (nothing moment old) submits
      · exact List.mem_singleton.mp new
    intro first firstMember again againMember key job againKey againJob submitted resubmitted
    rw [latest first firstMember (by simp [submitted])] at submitted
    rw [latest again againMember (by simp [resubmitted]), submitted] at resubmitted
    cases resubmitted
    exact ⟨rfl, rfl⟩

end Stores

section Runs

variable {host : Host} {threadId : String} {history : List ThreadTransition} {thread : Thread}

private theorem submission_of_idle {transition : ThreadTransition}
    (idle : transition.label.effects = none) : submission host transition = none := by
  unfold submission
  rw [idle]
  split
  · next used =>
      cases used
  · rfl

private theorem submission_some {transition : ThreadTransition} {key : String} {job : JobRecord}
    (submits : submission host transition = some (key, job)) :
    ∃ review store clock jobType payload decision,
      transition.source.position = .executing .submitMcpJob review ∧
      transition.label.effects = some (store, clock) ∧
      assess host.registry transition.source.values.plan =
        .admitted jobType payload decision := by
  unfold submission at submits
  split at submits
  · next review store clock executing effects =>
      split at submits
      · next jobType payload decision admitted =>
          exact ⟨review, store, clock, jobType, payload, decision, executing, effects, admitted⟩
      · cases submits
  · cases submits

/-- A node that submits nothing leaves the store as it found it. -/
private theorem advance_store_of_silent {action : ThreadAction} {next : Thread} {node : Node}
    {review : Option Dict} {store : SQLiteJobStore} {clock : Nat}
    (executing : thread.position = .executing node review)
    (effects : action.effects = some (store, clock))
    (silent : submission host ⟨thread, action, next⟩ = none) :
    (thread.advance host node review store clock).store = store := by
  rcases thread.advance_store host node review store clock with
    unchanged | ⟨rfl, jobType, payload, decision, admitted⟩
  · exact unchanged
  · simp [submission, executing, effects, admitted] at silent

private theorem Unrepeated.silent {action : ThreadAction} {next : Thread}
    (unrepeated : Unrepeated host threadId history thread)
    (stepped : thread.step host threadId action = some next)
    (activity : StoreActivity (Foreign threadId) thread.store next.store)
    (nothing : submission host ⟨thread, action, next⟩ = none) :
    Unrepeated host threadId (history ++ [⟨thread, action, next⟩]) next where
  controlled := unrepeated.controlled.step stepped
  fresh := by
    intro idle
    obtain ⟨foreign, earlier⟩ := unrepeated.fresh ((Grows.step stepped).idle idle)
    refine ⟨foreign.activity activity, ?_⟩
    intro transition member
    rcases List.mem_append.mp member with old | new
    · exact earlier transition old
    · exact List.mem_singleton.mp new ▸ nothing
  once := (unrepeated.once.activity activity).silent nothing

private theorem Unrepeated.submitted {review : Option Dict} {store : SQLiteJobStore}
    {clock : Nat} {jobType : String} {payload : Dict} {decision : Decision}
    (unrepeated : Unrepeated host threadId history thread)
    (executing : thread.position = .executing .submitMcpJob review)
    (activity : StoreActivity (Foreign threadId) thread.store store)
    (admitted : assess host.registry thread.values.plan = .admitted jobType payload decision) :
    Unrepeated host threadId
      (history ++ [⟨thread, .node store clock,
        thread.advance host .submitMcpJob review store clock⟩])
      (thread.advance host .submitMcpJob review store clock) := by
  have routed := unrepeated.controlled.routed _ _ _ executing rfl
  have idle := (decideNextAction_submitMcpJob_iff.mp routed).2.2
  obtain ⟨foreignBefore, nothing⟩ := unrepeated.fresh idle
  have foreign := foreignBefore.activity activity
  have named := unrepeated.controlled.named (.inr ⟨_, _, executing⟩)
  have entered := SQLiteJobStore.submitJob_of_unknown (foreign.unknown named) jobType payload clock
  refine ⟨unrepeated.controlled.advance executing store clock, ?_, ?_⟩
  · intro stillIdle
    rw [Thread.advance_submitMcpJob admitted] at stillIdle
    exact absurd stillIdle (List.ne_nil_of_mem (submittedUpdate_active thread.values _))
  · rw [Thread.advance_submitMcpJob admitted, entered]
    exact SubmittedOnce.first foreign nothing _ _

private theorem Unrepeated.step {action : ThreadAction} {next : Thread}
    (unrepeated : Unrepeated host threadId history thread)
    (stepped : thread.step host threadId action = some next)
    (regular : Regular threadId ⟨thread, action, next⟩)
    (noted : ¬ LosesSubmission host ⟨thread, action, next⟩) :
    Unrepeated host threadId (history ++ [⟨thread, action, next⟩]) next := by
  cases Thread.step_cases stepped with
  | runWorkflow runId userQuery settled =>
      exact unrepeated.silent stepped .refl (submission_of_idle rfl)
  | resumeWorkflow review paused =>
      exact unrepeated.silent stepped .refl (submission_of_idle rfl)
  | others store settled =>
      exact unrepeated.silent stepped (regular store rfl) (submission_of_idle rfl)
  | node node review store clock executing =>
      let transition : ThreadTransition :=
        ⟨thread, .node store clock, thread.advance host node review store clock⟩
      have activity := regular store rfl
      cases submits : submission host transition with
      | none =>
          have unchanged : transition.target.store = store :=
            advance_store_of_silent executing rfl submits
          exact unrepeated.silent stepped (unchanged.symm ▸ activity) submits
      | some submitted =>
          obtain ⟨_, _, _, jobType, payload, decision, entered, _, admitted⟩ :=
            submission_some submits
          cases executing.symm.trans entered
          exact unrepeated.submitted executing activity admitted
  | crash node review store clock executing =>
      have activity := regular store rfl
      have nothing := Option.not_isSome_iff_eq_none.mp (not_and.mp noted rfl)
      cases clock with
      | none => exact unrepeated.silent stepped activity nothing
      | some reading =>
          have unchanged := advance_store_of_silent executing rfl nothing
          refine unrepeated.silent stepped ?_ nothing
          simp only [Thread.lostStore, unchanged]
          exact activity

theorem run_unrepeated (run : Run (Thread.step host threadId) Thread.initial history thread)
    (regular : ∀ transition ∈ history, Regular threadId transition)
    (noted : ∀ transition ∈ history, ¬ LosesSubmission host transition) :
    Unrepeated host threadId history thread := by
  refine Run.invariant
    (fun transition => Regular threadId transition ∧ ¬ LosesSubmission host transition)
    (Unrepeated host threadId) ?_ ?_ run
    (fun transition member => ⟨regular transition member, noted transition member⟩)
  · refine ⟨Controlled.initial, ?_, ?_, ?_⟩
    · intro _
      refine ⟨?_, by simp⟩
      intro jobId job found
      simp [Thread.initial] at found
    · intro left right leftJob rightJob found
      simp [Thread.initial] at found
    · intro first member
      cases member
  · intro history state action next _ unrepeated stepped permitted
    exact unrepeated.step stepped permitted.1 permitted.2

/-- Once its query is parsed, a thread has submitted under keys of earlier
steps only; before, a crash may have left the key of the present step. -/
structure Dated (threadId : String) (thread : Thread) : Prop where
  controlled : Controlled threadId thread
  settled : KeyedBelow threadId (thread.values.steps + 1) thread.store
  parsed : thread.Live → (∀ review, thread.position ≠ .executing .parseRequest review) →
    KeyedBelow threadId thread.values.steps thread.store

theorem Dated.entered (dated : Dated threadId thread) {node : Node}
    {review : Option Dict} (executing : thread.position = .executing node review)
    (notParse : node ≠ .parseRequest) : KeyedBelow threadId thread.values.steps thread.store := by
  refine dated.parsed (.inr ⟨node, review, executing⟩) ?_
  intro held parsing
  cases executing.symm.trans parsing
  exact notParse rfl

private theorem Dated.stored (dated : Dated threadId thread) {node : Node}
    {review : Option Dict} (executing : thread.position = .executing node review)
    {store : SQLiteJobStore} (clock : Nat)
    (activity : StoreActivity (Foreign threadId) thread.store store) :
    KeyedBelow threadId (thread.values.steps + 1)
      (thread.advance host node review store clock).store := by
  refine thread.advance_store_keeps host node review clock (dated.settled.activity activity) ?_
  rintro rfl jobType payload
  have named := dated.controlled.named (.inr ⟨_, _, executing⟩)
  have below := (dated.entered executing (by decide)).activity activity
  exact below.submitJob named jobType payload clock

private theorem Dated.advance (dated : Dated threadId thread) {node : Node}
    {review : Option Dict} (executing : thread.position = .executing node review)
    {store : SQLiteJobStore} (clock : Nat)
    (activity : StoreActivity (Foreign threadId) thread.store store) :
    Dated threadId (thread.advance host node review store clock) := by
  have controlled : Controlled threadId (thread.advance host node review store clock) :=
    dated.controlled.advance executing store clock
  have stored : KeyedBelow threadId _ (thread.advance host node review store clock).store :=
    dated.stored executing clock activity
  rcases thread.advance_cases host node review store clock with
    ⟨update, changed, executed, outcome⟩ | ⟨executed, outcome⟩ | ⟨exception, _, outcome⟩
  · obtain ⟨event, traced, _⟩ := executed.traced
    have advanced := thread.values.steps_apply traced
    rw [outcome] at controlled stored ⊢
    rw [← advanced] at stored
    exact ⟨controlled, stored.mono (Nat.le_succ _), fun _ _ => stored⟩
  · rw [outcome] at controlled stored ⊢
    cases executed
    exact ⟨controlled, stored, fun _ _ => (dated.entered executing (by decide)).activity activity⟩
  · rw [outcome] at controlled stored ⊢
    refine ⟨controlled, stored, ?_⟩
    intro live
    rcases live with paused | ⟨other, held, elsewhere⟩
    · cases paused
    · cases elsewhere

theorem Dated.step {action : ThreadAction} {next : Thread} (dated : Dated threadId thread)
    (stepped : thread.step host threadId action = some next)
    (regular : Regular threadId ⟨thread, action, next⟩) : Dated threadId next := by
  have controlled := dated.controlled.step stepped
  cases Thread.step_cases stepped with
  | runWorkflow runId userQuery settled =>
      exact ⟨controlled, dated.settled, fun _ parsed => absurd rfl (parsed none)⟩
  | resumeWorkflow review paused =>
      refine ⟨controlled, dated.settled, fun _ _ => dated.parsed (.inl paused) ?_⟩
      intro held parsing
      cases paused.symm.trans parsing
  | node node review store clock executing =>
      exact dated.advance executing clock (regular store rfl)
  | others store settled =>
      exact ⟨controlled, dated.settled.activity (regular store rfl), fun live parsed =>
        (dated.parsed live parsed).activity (regular store rfl)⟩
  | crash node review store clock executing =>
      have activity := regular store rfl
      refine ⟨controlled, ?_, ?_⟩
      · cases clock with
        | none => exact dated.settled.activity activity
        | some reading => exact dated.stored executing reading activity
      · intro live
        rcases live with paused | ⟨other, held, elsewhere⟩
        · cases paused
        · cases elsewhere

/-- Wherever crashes strike, no key of a later step is known. -/
theorem run_dated (run : Run (Thread.step host threadId) Thread.initial history thread)
    (regular : ∀ transition ∈ history, Regular threadId transition) : Dated threadId thread := by
  refine Run.preserves (Regular threadId) (Dated threadId) ?_ ?_ run regular
  · refine ⟨Controlled.initial, ?_, ?_⟩
    · intro jobId job step found
      simp [Thread.initial] at found
    · intro _ _ jobId job step found
      simp [Thread.initial] at found
  · intro state action following dated stepped permitted
    exact dated.step stepped permitted

/-- However often a thread crashes and is run again, it submits one job only,
if no crash comes between a submission and the checkpoint that notes it. -/
theorem submittedOnce_of_noted
    (run : Run (Thread.step host threadId) Thread.initial history thread)
    (regular : ∀ transition ∈ history, Regular threadId transition)
    (noted : ∀ transition ∈ history, ¬ LosesSubmission host transition) :
    SubmittedOnce host threadId history thread.store :=
  (run_unrepeated run regular noted).once

end Runs

/-- The service crashes in every node before the submission, and again after it. -/
theorem submittedOnce_after_crashes :
    ∃ history thread, Run (Thread.step Host.ascii "t") Thread.initial history thread ∧
      thread.store.jobs.map (·.idempotencyKey) = ["thread_t_step_3"] ∧
      SubmittedOnce Host.ascii "t" history thread.store := by
  obtain ⟨history, thread, run, regular, observed⟩ :=
    scenario_observed Host.ascii "t"
      [.runWorkflow "r" "Analyze CPI", .crash none, .runWorkflow "r" "Analyze CPI", .node 0,
        .crash (some 0), .runWorkflow "r" "Analyze CPI", .node 0, .node 0, .node 0,
        .runWorkflow "r" "Analyze CPI", .node 0, .node 0, .crash (some 0)]
      (fun outcome =>
        (outcome.2.store.jobs.map (·.idempotencyKey),
          outcome.1.all fun transition => !decide (LosesSubmission Host.ascii transition)))
      (["thread_t_step_3"], true) (by decide +kernel)
  obtain ⟨keys, noted⟩ := Prod.mk.inj observed
  refine ⟨history, thread, run, keys, submittedOnce_of_noted run regular ?_⟩
  intro transition member
  simpa using List.all_eq_true.mp noted transition member

/-- The service crashes after the job is in the store and before the thread has
noted it; the run that recovers submits a second one. -/
theorem submittedOnce_fails_unnoted :
    ∃ history thread, Run (Thread.step Host.ascii "t") Thread.initial history thread ∧
      (∀ transition ∈ history, Regular "t" transition) ∧
      ¬ SubmittedOnce Host.ascii "t" history thread.store := by
  obtain ⟨history, thread, run, regular, observed⟩ :=
    scenario_observed Host.ascii "t"
      [.runWorkflow "r" "Analyze CPI", .node 0, .node 0, .crash (some 1),
        .runWorkflow "r" "Analyze CPI", .node 0, .node 0, .node 2]
      (fun outcome =>
        ((outcome.2.store.getJob (jobIdAt 1)).map (·.idempotencyKey),
          (outcome.2.store.getJob (jobIdAt 2)).map (·.idempotencyKey)))
      (some (threadKey "t" 2), some (threadKey "t" 4)) (by decide +kernel)
  obtain ⟨first, second⟩ := Prod.mk.inj observed
  obtain ⟨earlier, earlierFound, earlierKey⟩ := Option.map_eq_some_iff.mp first
  obtain ⟨later, laterFound, laterKey⟩ := Option.map_eq_some_iff.mp second
  refine ⟨history, thread, run, regular, ?_⟩
  intro once
  have same := once.single _ _ earlier later earlierFound laterFound
    (own_of_key earlierKey) (own_of_key laterKey)
  exact absurd (jobIdAt_injective same) (by decide)

end DurableAgent.Graph
