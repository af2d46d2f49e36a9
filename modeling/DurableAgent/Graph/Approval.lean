import DurableAgent.Graph.Calls

/-!
# Approved plans

Which jobs have been approved. The router only withholds the submission while
the approval status is pending, rejected or edited, and the gate's answer
`route_to_hitl` is not looked at again: an approval is behind a submission
exactly when the approval status says `approved`.
-/

set_option autoImplicit false

namespace DurableAgent.Graph

open Capability Jobs Library Python

/-- A review approves the plan that it leaves in the state. -/
def Approves (transition : ThreadTransition) (plan : Value) : Prop :=
  ∃ review, transition.label = .resumeWorkflow review ∧
    reviewAction review = .str "approved" ∧
    reviewedPlan transition.source.values.plan review = plan

/-- A review that edits or rejects the plan it was shown. -/
def Withdraws (transition : ThreadTransition) (plan : Value) : Prop :=
  ∃ review, transition.label = .resumeWorkflow review ∧
    (reviewAction review = .str "edited" ∨ reviewAction review = .str "rejected") ∧
    transition.source.values.plan = plan

def ApprovedFor (history : List ThreadTransition) (plan : Value) : Prop :=
  ∃ earlier approval later, history = earlier ++ approval :: later ∧
    Approves approval plan ∧ ∀ moment ∈ later, ¬ Withdraws moment plan

/-- Every job that the gate routes to human approval has been approved. -/
def NoJobWithoutApproval (host : Host) (history : List ThreadTransition) : Prop :=
  ∀ earlier transition later payload, history = earlier ++ transition :: later →
    Enqueues host transition payload .routeToHitl → ApprovedFor earlier (.dict payload)

theorem ApprovedFor.snoc {history : List ThreadTransition} {plan : Value}
    {transition : ThreadTransition} (approved : ApprovedFor history plan)
    (silent : ¬ Withdraws transition plan) : ApprovedFor (history ++ [transition]) plan := by
  obtain ⟨earlier, approval, later, rfl, approves, kept⟩ := approved
  refine ⟨earlier, approval, later ++ [transition], by simp, approves, ?_⟩
  intro moment member
  rcases List.mem_append.mp member with old | new
  · exact kept moment old
  · exact List.mem_singleton.mp new ▸ silent

private theorem node_silent {thread next : Thread} {store : SQLiteJobStore} {clock : Nat}
    {plan : Value} : ¬ Withdraws ⟨thread, .node store clock, next⟩ plan := by
  intro ⟨review, label, _⟩
  cases label

/-- What stands behind the approval status while a call is executing. -/
structure Endorsed (history : List ThreadTransition) (thread : Thread) : Prop where
  reviewing : ∀ review, thread.position = .executing .humanApproval (some review) →
    ∃ earlier call, history = earlier ++ [call] ∧ call.label = .resumeWorkflow review ∧
      call.source.values.plan = thread.values.plan
  approved : ∀ node review, thread.position = .executing node review → node ≠ .parseRequest →
    node ≠ .humanApproval → thread.values.approvalStatus = .str "approved" →
    ApprovedFor history thread.values.plan

private theorem approved_kept {host : Host} {values : MacroAgentState}
    {store changed : SQLiteJobStore} {clock : Nat} {node : Node} {answer : Option Dict}
    {update : StateUpdate}
    (executed : Executed host values store clock node answer (.updated update changed))
    (notParse : node ≠ .parseRequest) (notReview : node ≠ .humanApproval)
    (approved : (values.apply update).approvalStatus = .str "approved") :
    values.approvalStatus = .str "approved" ∧ (values.apply update).plan = values.plan := by
  have same : values.approvalStatus = .str "approved" := by
    simpa [MacroAgentState.apply, executed.owned.approvalStatus notParse notReview] using approved
  refine ⟨same, ?_⟩
  cases node with
  | parseRequest => exact absurd rfl notParse
  | humanApproval => exact absurd rfl notReview
  | assembleContext =>
      cases executed
      exact assembled_plan values (not_pending (same ▸ heldBack_approved))
  | submitMcpJob | pollJobStatus | finalize =>
      simp [MacroAgentState.plan, MacroAgentState.apply,
        executed.owned.analysisPlan (by decide) (by decide)]

theorem parseRequest_not_approved (host : Host) (values : MacroAgentState) :
    (values.apply (parseRequestNode host values)).approvalStatus ≠ .str "approved" := by
  simp only [MacroAgentState.apply, parseRequestNode, Option.getD_some]
  split_ifs <;> simp

section Runs

variable {host : Host} {threadId : String} {history : List ThreadTransition} {thread : Thread}

private theorem Endorsed.proceed (endorsed : Endorsed history thread) {node : Node}
    {answer : Option Dict} (executing : thread.position = .executing node answer)
    {store changed : SQLiteJobStore} {clock : Nat} {update : StateUpdate} {next : Thread}
    (executed : Executed host thread.values store clock node answer (.updated update changed)) :
    Endorsed (history ++ [⟨thread, .node store clock, next⟩])
      (Thread.proceed (thread.values.apply update) node changed) where
  reviewing := by
    intro pending entered
    obtain ⟨_, nothing⟩ := Thread.proceed_executing entered
    cases nothing
  approved := by
    intro following held _ _ _ approved
    by_cases parsing : node = .parseRequest
    · subst parsing
      cases executed
      exact absurd approved (parseRequest_not_approved host thread.values)
    · by_cases reviewed : node = .humanApproval
      · subst reviewed
        cases executed with
        | decides answer =>
            obtain ⟨earlier, call, rfl, label, shown⟩ := endorsed.reviewing answer executing
            refine ⟨earlier, call, [⟨thread, .node store clock, next⟩], by simp,
              ⟨answer, label, approved, ?_⟩, ?_⟩
            · rw [shown]
              rfl
            · intro moment member
              rw [List.mem_singleton.mp member]
              exact node_silent
      · obtain ⟨before, samePlan⟩ := approved_kept executed parsing reviewed approved
        have earlier := endorsed.approved node answer executing parsing reviewed before
        exact samePlan ▸ earlier.snoc node_silent

private theorem Endorsed.settled (history : List ThreadTransition) (settled : thread.Settled) :
    Endorsed history thread where
  reviewing := fun _ executing => absurd executing (settled _ _)
  approved := fun node review executing => absurd executing (settled node review)

private theorem run_endorsed (run : Run (Thread.step host threadId) Thread.initial history thread) :
    Endorsed history thread := by
  induction run with
  | nil =>
      apply Endorsed.settled
      intro node review executing
      cases executing
  | @snoc history thread action next _ stepped ih =>
      cases Thread.step_cases stepped with
      | runWorkflow runId userQuery settled =>
          constructor
          · intro review executing
            cases executing
          · intro node review executing parsing
            cases executing
            exact absurd rfl parsing
      | resumeWorkflow review paused =>
          constructor
          · intro answer executing
            obtain ⟨-, answered⟩ := Position.executing.inj executing
            rw [Host.answer_eq_some answered]
            exact ⟨history, _, rfl, rfl, rfl⟩
          · intro node held executing _ reviewed
            cases executing
            exact absurd rfl reviewed
      | node node review store clock executing =>
          rcases thread.advance_cases host node review store clock with
            ⟨update, changed, executed, outcome⟩ | ⟨_, outcome⟩ | ⟨exception, _, outcome⟩
          · rw [outcome]
            exact ih.proceed executing executed
          · rw [outcome]
            exact Endorsed.settled _ (Thread.settled_interrupted _ _)
          · rw [outcome]
            exact Endorsed.settled _ (Thread.settled_raised _ _ _)
      | others store settled => exact Endorsed.settled _ settled
      | crash node review store clock executing =>
          apply Endorsed.settled
          intro node review entered
          cases entered

/-- Behind the parser and the review, an approved status stands for an approved plan. -/
theorem approvedFor_of_executing
    (run : Run (Thread.step host threadId) Thread.initial history thread) {node : Node}
    {review : Option Dict} (executing : thread.position = .executing node review)
    (parsed : node ≠ .parseRequest) (reviewed : node ≠ .humanApproval)
    (approved : thread.values.approvalStatus = .str "approved") :
    ApprovedFor history thread.values.plan :=
  (run_endorsed run).approved node review executing parsed reviewed approved

/-- What can have become of an approved plan: it is still on its way to its
submission, or no submission of it will follow. -/
inductive Spent (host : Host) (plan : Value) (thread : Thread) : Prop where
  | limit : stepLimit ≤ thread.values.steps → Spent host plan thread
  | busy : thread.values.activeJobIds ≠ [] → Spent host plan thread
  | refused : (∀ jobType payload decision,
      assess host.registry plan ≠ .admitted jobType payload decision) → Spent host plan thread
  | deciding (review : Dict) : thread.position = .executing .humanApproval (some review) →
      Cleared thread.values → reviewAction review = .str "approved" →
      reviewedPlan thread.values.plan review = plan → Spent host plan thread
  | assembling (review : Option Dict) : thread.position = .executing .assembleContext review →
      thread.values.status ≠ some .failed → thread.values.answersDirectly = false →
      thread.values.approvalStatus = .str "approved" → thread.values.plan = plan →
      Spent host plan thread
  | submitting (review : Option Dict) : thread.position = .executing .submitMcpJob review →
      thread.values.approvalStatus = .str "approved" → thread.values.plan = plan →
      Spent host plan thread

private theorem Spent.assembled {plan : Value} {values : MacroAgentState}
    (store : SQLiteJobStore) (unfailed : values.status ≠ some .failed)
    (planned : values.answersDirectly = false) (approved : values.approvalStatus = .str "approved")
    (same : values.plan = plan) :
    Spent host plan (Thread.proceed (values.apply (assembleContextNode values))
      .assembleContext store) := by
  let assembled := values.apply (assembleContextNode values)
  have keptApproval : assembled.approvalStatus = .str "approved" := approved
  have keptPlan : assembled.plan = plan :=
    (assembled_plan values (not_pending (approved ▸ heldBack_approved))).trans same
  by_cases limit : stepLimit ≤ assembled.steps
  · exact .limit limit
  · have cleared : Cleared assembled := ⟨Nat.not_le.mp limit, unfailed, planned⟩
    by_cases idle : assembled.activeJobIds = []
    · have routed : decideNextAction assembled = .submitMcpJob :=
        decideNextAction_submitMcpJob_iff.mpr
          ⟨cleared, keptApproval ▸ heldBack_approved, idle⟩
      rw [Thread.proceed_routed routed]
      exact .submitting none rfl keptApproval keptPlan
    · exact .busy idle

private theorem Spent.step {plan : Value} {action : ThreadAction} {next : Thread}
    (spent : Spent host plan thread) (stepped : thread.step host threadId action = some next)
    (survives : CrashFree ⟨thread, action, next⟩) : Spent host plan next := by
  have grows := Grows.step stepped
  cases spent with
  | limit reached => exact .limit (reached.trans grows.steps)
  | busy active =>
      exact .busy fun idle => active (grows.idle idle)
  | refused never => exact .refused never
  | deciding review executing cleared approved reviewed =>
      obtain ⟨store, clock, _, rfl⟩ := survives.advances stepped executing
      exact .assembling none rfl cleared.unfailed cleared.planned approved reviewed
  | assembling review executing unfailed planned approved same =>
      obtain ⟨store, clock, _, rfl⟩ := survives.advances stepped executing
      exact Spent.assembled store unfailed planned approved same
  | submitting review executing approved same =>
      obtain ⟨store, clock, _, rfl⟩ := survives.advances stepped executing
      cases assessed : assess host.registry thread.values.plan with
      | raised exception =>
          exact .refused fun _ _ _ admitted => by simp [← same, assessed] at admitted
      | denied message =>
          exact .refused fun _ _ _ admitted => by simp [← same, assessed] at admitted
      | admitted jobType payload decision =>
          rw [Thread.advance_submitMcpJob assessed]
          exact .busy (List.ne_nil_of_mem (submittedUpdate_active thread.values _))

/-- A call that resumes with an approval sends the approved plan on its way. -/
private theorem Spent.of_approval {plan : Value} {action : ThreadAction} {next : Thread}
    (controlled : Controlled threadId thread)
    (stepped : thread.step host threadId action = some next)
    (approves : Approves ⟨thread, action, next⟩ plan) : Spent host plan next := by
  obtain ⟨review, label, approved, reviewed⟩ := approves
  dsimp only at label reviewed
  subst label
  cases Thread.step_cases stepped with
  | resumeWorkflow review paused =>
      have cleared := (decideNextAction_humanApproval_iff.mp (controlled.paused paused)).1
      have answered := host.answer_of_action approved
      exact .deciding review (congrArg _ answered) cleared approved reviewed

/-- In a run without crashes, every job that the gate routes to human approval
has been approved exactly if the approval status says so at each submission. -/
theorem noJobWithoutApproval_iff
    (run : Run (Thread.step host threadId) Thread.initial history thread)
    (crashFree : ∀ transition ∈ history, CrashFree transition) :
    NoJobWithoutApproval host history ↔
      ∀ transition ∈ history, ∀ payload, Enqueues host transition payload .routeToHitl →
        transition.source.values.approvalStatus = .str "approved" := by
  constructor
  · intro backed transition member payload enqueues
    obtain ⟨before, later, rfl⟩ := List.append_of_mem member
    obtain ⟨earlier, approval, between, rfl, approves, _⟩ :=
      backed before transition later payload rfl enqueues
    obtain ⟨upTo, _, _⟩ := run.around
    obtain ⟨first, approving, rest⟩ := upTo.around
    have sent : Spent host (.dict payload) approval.target :=
      Spent.of_approval (run_controlled first) approving approves
    have spent : Spent host (.dict payload) transition.source :=
      Run.preserves CrashFree (Spent host (.dict payload)) sent
        (fun _ _ _ held stepped survives => held.step stepped survives) rest
        (fun moment included => crashFree moment (by simp [included]))
    obtain ⟨review, store, clock, jobType, executing, _, admitted, _⟩ := enqueues_iff.mp enqueues
    have routed := (run_controlled upTo).routed _ _ _ executing rfl
    obtain ⟨cleared, _, idle⟩ := decideNextAction_submitMcpJob_iff.mp routed
    cases spent with
    | limit reached => exact absurd cleared.within (Nat.not_lt.mpr reached)
    | busy active => exact absurd idle active
    | refused never => exact absurd (assess_admitted admitted ▸ admitted) (never _ _ _)
    | deciding _ elsewhere => cases executing.symm.trans elsewhere
    | assembling _ elsewhere => cases executing.symm.trans elsewhere
    | submitting _ _ approved _ => exact approved
  · intro approved earlier transition later payload split enqueues
    have status := approved transition (by simp [split]) payload enqueues
    rw [split] at run
    obtain ⟨review, store, clock, jobType, executing, _, admitted, _⟩ := enqueues_iff.mp enqueues
    have endorsed := (run_endorsed run.around.1).approved _ _ executing (by decide) (by decide)
    exact assess_admitted admitted ▸ endorsed status

end Runs

/-- A marked query, approved with the registered tool as its task. -/
theorem noJobWithoutApproval_after_approval :
    ∃ history thread,
      Run (Thread.step Host.ascii "t") Thread.initial history thread ∧
        thread.store.statusOf (jobIdAt 7) = some .queued ∧
        NoJobWithoutApproval Host.ascii history := by
  obtain ⟨history, thread, run, _, observed⟩ :=
    scenario_observed Host.ascii "t"
      [.runWorkflow "r" "Diagnose CPI trends", .node 0, .node 0, .node 0,
        .resumeWorkflow [("action", .str "approved"),
          ("updated_plan", .dict forecast)],
        .node 0, .node 0, .node 7]
      (fun outcome =>
        (outcome.1.all fun transition => !transition.label.isCrash,
          outcome.1.all fun transition => (enqueued Host.ascii transition).isNone ||
            transition.source.values.approvalStatus.isStr "approved",
          outcome.2.store.statusOf (jobIdAt 7)))
      (true, true, some .queued) (by decide +kernel)
  obtain ⟨survived, rest⟩ := Prod.mk.inj observed
  obtain ⟨approved, queued⟩ := Prod.mk.inj rest
  refine ⟨history, thread, run, queued, (noJobWithoutApproval_iff run ?_).mpr ?_⟩
  · intro transition member
    simpa [CrashFree] using List.all_eq_true.mp survived transition member
  · intro transition member payload enqueues
    have submits := List.all_eq_true.mp approved transition member
    rw [enqueues, Option.isNone_some, Bool.false_or] at submits
    exact Value.isStr_iff.mp submits

/-- A query without a marker submits the forecast that the gate routes to human
approval, and nobody has been asked. -/
theorem noJobWithoutApproval_fails_unmarked :
    ∃ history thread,
      Run (Thread.step Host.ascii "t") Thread.initial history thread ∧
        ¬ NoJobWithoutApproval Host.ascii history := by
  obtain ⟨history, thread, run, labels, routed⟩ :=
    execute_observed (Thread.step Host.ascii "t") Thread.initial
      [.runWorkflow "r" "Analyze CPI", .node .empty 0, .node .empty 0, .node .empty 0]
      (fun outcome => outcome.1.any fun transition =>
        (enqueued Host.ascii transition).any fun job => decide (job.2 = Decision.routeToHitl))
      true (by decide +kernel)
  refine ⟨history, thread, run, ?_⟩
  intro backed
  obtain ⟨transition, member, submits⟩ := List.any_eq_true.mp routed
  obtain ⟨⟨payload, decision⟩, enqueues, hitl⟩ := (Option.any_eq_true _ _).mp submits
  obtain ⟨before, after, rfl⟩ := List.append_of_mem member
  obtain rfl : decision = .routeToHitl := of_decide_eq_true hitl
  obtain ⟨earlier, approval, later, rfl, ⟨review, label, _⟩, _⟩ :=
    backed before transition after payload rfl enqueues
  have listed : approval.label ∈ [ThreadAction.runWorkflow "r" "Analyze CPI", .node .empty 0,
      .node .empty 0, .node .empty 0] := by
    rw [← labels]
    simp
  simp [label] at listed

end DurableAgent.Graph
