import DurableAgent.Graph.Recovery
import DurableAgent.Graph.Termination

/-!
# Human review

What a resume call does with the review it carries. A review that answers no
interrupt is asked for again. The action of any other is written to the approval
status as it is, and the plan of the review replaces the plan that was shown
whatever the action; the router then withholds the submission for three values
of the status and for no other.
-/

set_option autoImplicit false

namespace DurableAgent.Graph

open Capability Jobs Library Python

/-- What lets a job with the payload through: the state at the pause and the
review together. -/
structure Admissible (host : Host) (review : Dict) (paused : MacroAgentState) (payload : Dict) :
    Prop where
  answers : host.answer review = some review
  within : paused.steps + 2 < stepLimit
  idle : paused.activeJobIds = []
  passed : heldBack (reviewAction review) = false
  admitted : ∃ jobType decision, assess host.registry (reviewedPlan paused.plan review) =
    .admitted jobType payload decision

/-- Only an approval enqueues a job, with the plan that was shown as its
payload; any other review leaves the store as others have left it. -/
structure FailsClosed (host : Host) (shown : Value) (review : Dict)
    (call : List ThreadTransition) : Prop where
  executesShown : ∀ transition ∈ call, ∀ payload decision,
    Enqueues host transition payload decision →
      reviewAction review = .str "approved" ∧ shown = .dict payload
  unchanged : ¬ (reviewAction review = .str "approved" ∧ reviewedPlan shown review = shown) →
    ∀ transition ∈ call, ∀ store, transition.label.leftStore = some store →
      transition.target.store = store

def RegularStore (threadId : String) (thread : Thread) (store : SQLiteJobStore) : Prop :=
  StoreActivity (Foreign threadId) thread.store store

theorem regularStore_possible (threadId : String) (thread : Thread) :
    ∃ store, RegularStore threadId thread store := ⟨thread.store, .refl⟩

theorem RegularStore.regular {threadId : String} {thread : Thread} {store : SQLiteJobStore}
    (activity : RegularStore threadId thread store) (clock : Nat) (next : Thread) :
    Regular threadId ⟨thread, .node store clock, next⟩ := by
  intro left same
  cases same
  exact activity

/-- The call has enqueued a job with the payload, and waits for it. -/
structure Submits (host : Host) (payload : Dict) (call : List ThreadTransition) (final : Thread) :
    Prop where
  enqueued : ∃ transition ∈ call, ∃ decision, Enqueues host transition payload decision
  waiting : final.values.status = some .waitingForJob

/-- The call has aborted the workflow without a job. -/
structure Aborts (call : List ThreadTransition) (final : Thread) : Prop where
  failed : final.values.status = some .failed
  answered : final.values.finalAnswer = some abortSummary
  unchanged : ∀ transition ∈ call, ∀ store, transition.label.leftStore = some store →
    transition.target.store = store

/-- A transition of the call submits only what is admissible. -/
structure Careful (host : Host) (review : Dict) (paused : MacroAgentState)
    (transition : ThreadTransition) : Prop where
  enqueues : ∀ payload decision, Enqueues host transition payload decision →
    Admissible host review paused payload
  store : ∀ store, transition.label.leftStore = some store →
    transition.target.store = store ∨ ∃ payload, Admissible host review paused payload

/-- A resume call after its review has been written to the state. -/
structure Decided (review : Dict) (paused : MacroAgentState) (thread : Thread) : Prop where
  forward : ∀ node held, thread.position = .executing node held →
    node ≠ .parseRequest ∧ held = none
  approval : thread.values.approvalStatus = reviewAction review
  plan : reviewAction review ≠ .str "pending" →
    thread.values.plan = reviewedPlan paused.plan review
  grown : paused.activeJobIds ⊆ thread.values.activeJobIds
  steps : paused.steps + 1 ≤ thread.values.steps
  submitting : ∀ held, thread.position = .executing .submitMcpJob held →
    paused.steps + 2 ≤ thread.values.steps

section Call

variable {host : Host} {threadId : String} {review : Dict} {paused : MacroAgentState}
  {history : List ThreadTransition} {thread : Thread}

theorem Decided.admissible (decided : Decided review paused thread)
    (answers : host.answer review = some review) (controlled : Controlled threadId thread) {held : Option Dict}
    (executing : thread.position = .executing .submitMcpJob held) {jobType : String}
    {payload : Dict} {decision : Decision}
    (admitted : assess host.registry thread.values.plan = .admitted jobType payload decision) :
    Admissible host review paused payload := by
  have routed := controlled.routed _ _ _ executing rfl
  obtain ⟨cleared, passed, idle⟩ := decideNextAction_submitMcpJob_iff.mp routed
  have passedReview : heldBack (reviewAction review) = false := decided.approval ▸ passed
  refine ⟨answers, ?_, ?_, passedReview, jobType, decision, ?_⟩
  · have reached := decided.submitting held executing
    have within := cleared.within
    omega
  · have grown := decided.grown
    rw [idle] at grown
    exact List.subset_nil.mp grown
  · rw [← decided.plan (not_pending passedReview)]
    exact admitted

theorem Decided.careful (decided : Decided review paused thread)
    (answers : host.answer review = some review) (controlled : Controlled threadId thread) {node : Node} {held : Option Dict}
    (executing : thread.position = .executing node held) (store : SQLiteJobStore) (clock : Nat) :
    Careful host review paused
      ⟨thread, .node store clock, thread.advance host node held store clock⟩ where
  enqueues := by
    intro payload decision enqueues
    obtain ⟨_, _, _, jobType, entered, _, admitted, _⟩ := enqueues_iff.mp enqueues
    exact decided.admissible answers controlled entered admitted
  store := by
    intro left same
    cases same
    rcases thread.advance_store host node held store clock with
      unchanged | ⟨rfl, jobType, payload, decision, admitted⟩
    · exact .inl unchanged
    · exact .inr ⟨payload, decided.admissible answers controlled executing admitted⟩

theorem Decided.begin (thread : Thread) (review : Dict) (store : SQLiteJobStore) (clock : Nat) :
    Decided review thread.values
      (thread.advance host .humanApproval (some review) store clock) where
  forward := by
    intro node held executing
    cases executing
    exact ⟨by decide, rfl⟩
  approval := rfl
  plan := fun _ => rfl
  grown := fun _ member => member
  steps := Nat.le_of_eq (MacroAgentState.steps_apply thread.values rfl).symm
  submitting := by
    intro held executing
    cases executing

private theorem Decided.proceed (decided : Decided review paused thread) {node : Node}
    {held : Option Dict} (executing : thread.position = .executing node held)
    {store changed : SQLiteJobStore} {clock : Nat} {update : StateUpdate}
    (executed : Executed host thread.values store clock node held (.updated update changed)) :
    Decided review paused (Thread.proceed (thread.values.apply update) node changed) := by
  obtain ⟨notParse, rfl⟩ := decided.forward node held executing
  have notReview : node ≠ .humanApproval := by
    rintro rfl
    cases executed
  have owned := executed.owned
  obtain ⟨event, traced, _⟩ := executed.traced
  have advanced := thread.values.steps_apply traced
  have reached := decided.steps
  constructor
  · intro following later entered
    obtain ⟨leads, nothing⟩ := Thread.proceed_executing entered
    exact ⟨successor_ne_parseRequest leads, nothing⟩
  · have kept := owned.approvalStatus notParse notReview
    simpa [Thread.proceed, MacroAgentState.apply, kept] using decided.approval
  · intro notPending
    rw [← decided.plan notPending]
    by_cases assembling : node = .assembleContext
    · subst assembling
      cases executed
      exact assembled_plan thread.values (decided.approval ▸ notPending)
    · have kept := owned.analysisPlan assembling notReview
      simp [Thread.proceed, MacroAgentState.plan, MacroAgentState.apply, kept]
  · exact List.Subset.trans decided.grown (thread.values.apply_activeJobIds_subset update)
  · simp only [Thread.proceed]
    omega
  · intro later entered
    simp only [Thread.proceed]
    omega

private theorem Decided.settle (decided : Decided review paused thread) {position : Position}
    {store : SQLiteJobStore} (settled : (⟨thread.values, position, store⟩ : Thread).Settled) :
    Decided review paused ⟨thread.values, position, store⟩ where
  forward := fun node held executing => absurd executing (settled node held)
  approval := decided.approval
  plan := decided.plan
  grown := decided.grown
  steps := decided.steps
  submitting := fun _ executing => absurd executing (settled _ _)

theorem Decided.advance (decided : Decided review paused thread) {node : Node}
    {held : Option Dict} (executing : thread.position = .executing node held)
    (store : SQLiteJobStore) (clock : Nat) :
    Decided review paused (thread.advance host node held store clock) := by
  rcases thread.advance_cases host node held store clock with
    ⟨update, changed, executed, outcome⟩ | ⟨_, outcome⟩ | ⟨exception, _, outcome⟩
  · rw [outcome]
    exact decided.proceed executing executed
  · rw [outcome]
    exact decided.settle (Thread.settled_interrupted _ _)
  · rw [outcome]
    exact decided.settle (Thread.settled_raised _ _ _)

/-- Before and after the node that writes the review to the state, or asks for another. -/
inductive UnderReview (host : Host) (review : Dict) (paused : MacroAgentState) (thread : Thread) :
    Prop where
  | reviewing : thread.position = .executing .humanApproval (host.answer review) →
      thread.values = paused → UnderReview host review paused thread
  | decided : host.answer review = some review → Decided review paused thread →
      UnderReview host review paused thread
  | unanswered : thread.Settled → UnderReview host review paused thread

private theorem UnderReview.node (underReview : UnderReview host review paused thread)
    (controlled : Controlled threadId thread) {node : Node} {held : Option Dict}
    (executing : thread.position = .executing node held) (store : SQLiteJobStore) (clock : Nat) :
    Careful host review paused
        ⟨thread, .node store clock, thread.advance host node held store clock⟩ ∧
      UnderReview host review paused (thread.advance host node held store clock) := by
  cases underReview with
  | reviewing reviewing same =>
      subst same
      obtain ⟨rfl, rfl⟩ := Position.executing.inj (executing.symm.trans reviewing)
      refine ⟨⟨?_, ?_⟩, ?_⟩
      · intro payload decision enqueues
        obtain ⟨_, _, _, _, entered, _⟩ := enqueues_iff.mp enqueues
        cases executing.symm.trans entered
      · intro left same
        cases same
        rcases thread.advance_store host .humanApproval (host.answer review) store clock with
          unchanged | ⟨submits, _⟩
        · exact .inl unchanged
        · cases submits
      · cases answered : host.answer review with
        | none => exact .unanswered (Thread.settled_interrupted _ _)
        | some answer =>
            obtain rfl := Host.answer_eq_some answered
            exact .decided answered (Decided.begin thread answer store clock)
  | decided answers decided =>
      exact ⟨decided.careful answers controlled executing store clock,
        .decided answers (decided.advance executing store clock)⟩
  | unanswered settled => exact absurd executing (settled node held)

/-- A resume call ends, and submits on the way only what is admissible. -/
theorem resume_careful (controlled : Controlled threadId thread)
    (paused : thread.position = .interrupted) (review : Dict) :
    CallEnds host threadId (RegularStore threadId)
      (fun call _ => ∀ transition ∈ call, Careful host review thread.values transition) thread
      (.resumeWorkflow review) := by
  obtain ⟨called, accepted, ends⟩ := resume_terminates
    (regularStore_possible threadId) paused review
  refine ⟨called, accepted, ?_⟩
  let holds := fun (call : List ThreadTransition) (state : Thread) =>
    (∀ transition ∈ call, Careful host review thread.values transition) ∧
      Controlled threadId state ∧ UnderReview host review thread.values state
  have base : holds [⟨thread, .resumeWorkflow review, called⟩] called := by
    have entered := controlled.step accepted
    rw [Thread.step_resumeWorkflow paused] at accepted
    cases accepted
    refine ⟨?_, entered, .reviewing rfl rfl⟩
    intro transition member
    rw [List.mem_singleton.mp member]
    constructor
    · intro payload decision enqueues
      obtain ⟨_, _, _, _, executing, _⟩ := enqueues_iff.mp enqueues
      cases paused.symm.trans executing
    · intro store left
      cases left
  refine (ends.keeps base ?_).mono fun call final reached => reached.2.1
  intro call state action next held active during stepped
  obtain ⟨careful, steered, underReview⟩ := held
  obtain ⟨store, clock, rfl, _⟩ := during
  obtain ⟨node, answer, executing, rfl⟩ := Thread.step_node_inv stepped
  obtain ⟨last, onwards⟩ := underReview.node steered executing store clock
  refine ⟨?_, steered.step stepped, onwards⟩
  intro transition member
  rcases List.mem_append.mp member with old | new
  · exact careful transition old
  · exact List.mem_singleton.mp new ▸ last

/-- The state in which the router finds the decision of a review. -/
def judged (values : MacroAgentState) (review : Dict) : MacroAgentState :=
  let decided := values.apply (humanApprovalNode values review)
  decided.apply (assembleContextNode decided)

theorem judged_steps (values : MacroAgentState) (review : Dict) :
    (judged values review).steps = values.steps + 2 := by
  have decided : (values.apply (humanApprovalNode values review)).steps = values.steps + 1 :=
    MacroAgentState.steps_apply values rfl
  rw [judged, assembled_steps, decided]

theorem judged_plan (values : MacroAgentState) {review : Dict}
    (notPending : reviewAction review ≠ .str "pending") :
    (judged values review).plan = reviewedPlan values.plan review :=
  assembled_plan (values.apply (humanApprovalNode values review)) notPending

/-- A thread is only ever paused in a state that the router looks into. -/
theorem judged_cleared (controlled : Controlled threadId thread)
    (paused : thread.position = .interrupted) (review : Dict)
    (within : thread.values.steps + 2 < stepLimit) : Cleared (judged thread.values review) := by
  have cleared := (decideNextAction_humanApproval_iff.mp (controlled.paused paused)).1
  exact ⟨(judged_steps thread.values review).symm ▸ within, cleared.unfailed, cleared.planned⟩

/-- A resume call comes to the router after the review and the reassembly. -/
private theorem CallEnds.resume {goal : List ThreadTransition → Thread → Prop}
    (dated : Dated threadId thread) (paused : thread.position = .interrupted)
    (answers : host.answer review = some review)
    (continues : ∀ history store,
      Dated threadId (Thread.proceed (judged thread.values review) .assembleContext store) →
        Ends host threadId (RegularStore threadId) goal history
          (Thread.proceed (judged thread.values review) .assembleContext store)) :
    CallEnds host threadId (RegularStore threadId) goal thread (.resumeWorkflow review) := by
  let resumed : Thread := { thread with position := .executing .humanApproval (some review) }
  have accepted : thread.step host threadId (.resumeWorkflow review) = some resumed :=
    (Thread.step_resumeWorkflow paused review).trans (by rw [answers])
  have reviewing : resumed.position = .executing .humanApproval (some review) := rfl
  refine ⟨resumed, accepted, Ends.node reviewing (regularStore_possible threadId resumed) ?_⟩
  intro store clock activity
  let decided : Thread := ⟨thread.values.apply (humanApprovalNode thread.values review),
    .executing .assembleContext none, store⟩
  have decides : resumed.step host threadId (.node store clock) = some decided :=
    Thread.step_node reviewing store clock
  have assembling : decided.position = .executing .assembleContext none := rfl
  refine Ends.assemble assembling (regularStore_possible threadId decided) ?_
  intro later reading onwards
  have assembles : decided.step host threadId (.node later reading) = some _ :=
    Thread.step_node assembling later reading
  have onResumed := dated.step accepted fun store left => by cases left
  have onDecided := onResumed.step decides (activity.regular clock _)
  exact continues _ _ (onDecided.step assembles (onwards.regular reading _))

/-- What is admissible is submitted, whatever the action was. -/
private theorem admissible_submits (dated : Dated threadId thread)
    (paused : thread.position = .interrupted) {payload : Dict}
    (admissible : Admissible host review thread.values payload) :
    CallEnds host threadId (RegularStore threadId) (Submits host payload) thread
      (.resumeWorkflow review) := by
  obtain ⟨answers, within, idle, passed, jobType, decision, admitted⟩ := admissible
  refine CallEnds.resume dated paused answers ?_
  intro history store dating
  have cleared := judged_cleared dated.controlled paused review within
  have routed : decideNextAction (judged thread.values review) = .submitMcpJob :=
    decideNextAction_submitMcpJob_iff.mpr ⟨cleared, passed, idle⟩
  rw [Thread.proceed_routed routed] at dating ⊢
  have gated : assess host.registry (judged thread.values review).plan =
      .admitted jobType payload decision := by
    rw [judged_plan thread.values (not_pending passed)]
    exact admitted
  refine Ends.node rfl (regularStore_possible threadId _) ?_
  intro later clock activity
  have named := dating.controlled.named (.inr ⟨.submitMcpJob, none, rfl⟩)
  have unknown := ((dating.entered rfl (by decide)).activity activity).unknown named
  rw [Thread.advance_submitMcpJob gated]
  refine Ends.settled (Thread.settled_atEnd _ _) ⟨⟨_, List.mem_append_right _
    (List.mem_singleton_self _), decision, ?_⟩, rfl⟩
  exact enqueues_iff.mpr ⟨none, later, clock, jobType, rfl, rfl, gated, unknown⟩

/-- A rejection is looked at within the step limit; past it the call ends with
the status it was paused with. -/
private theorem rejection_ends (dated : Dated threadId thread)
    (paused : thread.position = .interrupted) (rejected : reviewAction review = .str "rejected") :
    CallEnds host threadId (RegularStore threadId)
      (fun _ final => if thread.values.steps + 2 < stepLimit then
          final.values.status = some .failed ∧ final.values.finalAnswer = some abortSummary
        else final.values.status ≠ some .failed)
      thread (.resumeWorkflow review) := by
  refine CallEnds.resume dated paused (host.answer_of_action rejected) ?_
  intro history store _
  by_cases within : thread.values.steps + 2 < stepLimit
  · have cleared := judged_cleared dated.controlled paused review within
    have routed := decideNextAction_of_rejected cleared rejected
    rw [Thread.proceed_routed routed]
    refine Ends.node rfl (regularStore_possible threadId _) ?_
    intro later clock _
    have aborts : finalizeNode (judged thread.values review) =
        abortUpdate (judged thread.values review) := if_pos (Value.isStr_iff.mpr rejected)
    simp only [Thread.advance, Node.execute, aborts]
    refine Ends.settled (Thread.settled_atEnd _ _) ?_
    rw [if_pos within]
    exact ⟨rfl, rfl⟩
  · have cleared := (decideNextAction_humanApproval_iff.mp (dated.controlled.paused paused)).1
    have limit : stepLimit ≤ (judged thread.values review).steps := by
      rw [judged_steps]
      exact Nat.not_lt.mp within
    rw [Thread.proceed_routed (decideNextAction_of_limit limit)]
    refine Ends.settled (Thread.settled_atEnd _ _) ?_
    rw [if_neg within]
    exact cleared.unfailed

/-- A review lets a job through that was not approved as it was shown. -/
def Bypasses (host : Host) (review : Dict) (paused : MacroAgentState) : Prop :=
  ∃ payload, Admissible host review paused payload ∧
    ¬ (reviewAction review = .str "approved" ∧ paused.plan = .dict payload)

end Call

/-- What is looked at in a thread that waits for a review. -/
private def waiting (thread : Thread) : Bool × List String × Nat :=
  (match thread.position with
    | .interrupted => true
    | _ => false, thread.values.activeJobIds, thread.values.steps)

private theorem waiting_facts {thread : Thread} {jobs : List String} {steps : Nat}
    (observed : waiting thread = (true, jobs, steps)) :
    thread.position = .interrupted ∧ thread.values.activeJobIds = jobs ∧
      thread.values.steps = steps := by
  obtain ⟨paused, rest⟩ := Prod.mk.inj observed
  obtain ⟨active, steps⟩ := Prod.mk.inj rest
  refine ⟨?_, active, steps⟩
  split at paused
  · next stands => exact stands
  · cases paused

section Decision

variable {host : Host} {threadId : String} {history : List ThreadTransition} {thread : Thread}

/-- A decision takes effect exactly if the pause has been reached two events
before the step limit. -/
theorem decision_takes_effect_iff
    (run : Run (Thread.step host threadId) Thread.initial history thread)
    (regular : ∀ transition ∈ history, Regular threadId transition)
    (paused : thread.position = .interrupted) (review : Dict) :
    (reviewAction review = .str "rejected" →
      CallEnds host threadId (RegularStore threadId)
        (fun call final => Aborts call final ↔ thread.values.steps + 2 < stepLimit)
        thread (.resumeWorkflow review)) ∧
    ∀ jobType payload decision, reviewAction review = .str "approved" →
      thread.values.activeJobIds = [] →
      assess host.registry (reviewedPlan thread.values.plan review) =
        .admitted jobType payload decision →
      CallEnds host threadId (RegularStore threadId)
        (fun call final => Submits host payload call final ↔
          thread.values.steps + 2 < stepLimit)
        thread (.resumeWorkflow review) := by
  have dated := run_dated run regular
  have careful : CallEnds host threadId (RegularStore threadId) _ thread
      (.resumeWorkflow review) := resume_careful dated.controlled paused review
  constructor
  · intro rejected
    refine ((rejection_ends dated paused rejected).both careful).mono ?_
    intro call final ⟨ended, careful⟩
    constructor
    · intro aborts
      by_contra late
      rw [if_neg late] at ended
      exact ended aborts.failed
    · intro within
      rw [if_pos within] at ended
      refine ⟨ended.1, ended.2, ?_⟩
      intro transition member store left
      rcases (careful transition member).store store left with unchanged | ⟨payload, admissible⟩
      · exact unchanged
      · exact absurd rejected (not_rejected admissible.passed)
  · intro jobType payload decision approved idle admitted
    by_cases within : thread.values.steps + 2 < stepLimit
    · have passed : heldBack (reviewAction review) = false := approved ▸ heldBack_approved
      refine (admissible_submits dated paused
        ⟨host.answer_of_action approved, within, idle, passed, jobType, decision,
          admitted⟩).mono ?_
      intro call final submits
      exact iff_of_true submits within
    · refine careful.mono ?_
      intro call final careful
      refine iff_of_false ?_ within
      intro submits
      obtain ⟨transition, member, decision, enqueues⟩ := submits.enqueued
      exact within ((careful transition member).enqueues payload decision enqueues).within

end Decision

/-- The first pause of a thread leaves room for either decision. -/
theorem decision_takes_effect_at_first_pause :
    ∃ history thread, Run (Thread.step Host.ascii "t") Thread.initial history thread ∧
      CallEnds Host.ascii "t" (RegularStore "t") Aborts thread
        (.resumeWorkflow [("action", .str "rejected")]) ∧
      CallEnds Host.ascii "t" (RegularStore "t") (Submits Host.ascii forecast) thread
        (.resumeWorkflow [("action", .str "approved"), ("updated_plan", .dict forecast)]) := by
  obtain ⟨history, thread, run, regular, observed⟩ :=
    scenario_observed Host.ascii "t"
      [.runWorkflow "r" "Diagnose CPI trends", .node 0, .node 0, .node 0]
      (fun outcome => waiting outcome.2) (true, [], 2) (by decide +kernel)
  obtain ⟨paused, idle, steps⟩ := waiting_facts observed
  have within : thread.values.steps + 2 < stepLimit := by
    rw [steps]
    decide
  refine ⟨history, thread, run, ?_, ?_⟩
  · refine CallEnds.mono ?_ ((decision_takes_effect_iff run regular paused _).1 rfl)
    intro call final aborts
    exact aborts.mpr within
  · refine CallEnds.mono ?_
      ((decision_takes_effect_iff run regular paused _).2 _ _ _ rfl idle forecast_admitted)
    intro call final submits
    exact submits.mpr within

/-- After eleven rounds of edits a rejection goes unheard. -/
theorem decision_lost_after_edits :
    ∃ history thread, Run (Thread.step Host.ascii "t") Thread.initial history thread ∧
      (∀ transition ∈ history, Regular "t" transition) ∧ thread.position = .interrupted ∧
      ¬ CallEnds Host.ascii "t" (RegularStore "t") Aborts thread
        (.resumeWorkflow [("action", .str "rejected")]) := by
  obtain ⟨history, thread, run, regular, observed⟩ :=
    scenario_observed Host.ascii "t"
      ([.runWorkflow "r" "Diagnose CPI trends", .node 0, .node 0, .node 0] ++
        (List.replicate 11 [.resumeWorkflow [("action", .str "edited")], .node 0, .node 0,
          .node 0]).flatten)
      (fun outcome => waiting outcome.2) (true, [], 24) (by decide +kernel)
  obtain ⟨paused, _, steps⟩ := waiting_facts observed
  refine ⟨history, thread, run, regular, paused, ?_⟩
  intro aborts
  obtain ⟨call, final, aborted, ended⟩ :=
    aborts.agree (rejection_ends (run_dated run regular) paused rfl)
  rw [if_neg (by rw [steps]; decide)] at ended
  exact ended aborted.failed

end DurableAgent.Graph
