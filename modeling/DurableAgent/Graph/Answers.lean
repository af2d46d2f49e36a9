import DurableAgent.Graph.Calls

/-!
# The answer of a request

`final_answer` is written by `finalize` only, and nothing clears it. A request
is a run call and whatever follows it up to the next run call.
-/

set_option autoImplicit false

namespace DurableAgent.Graph

open Jobs Library Python

/-- The text that the transition's execution of `finalize` produces. -/
def producedAnswer (transition : ThreadTransition) : Option String :=
  match transition.source.position, transition.label with
  | .executing .finalize _, .node _ _ => (finalizeNode transition.source.values).finalAnswer
  | _, _ => none

def ThreadAction.opensRequest : ThreadAction → Bool
  | .runWorkflow _ _ => true
  | _ => false

/-- The answer was produced by one of the transitions, for the given query. -/
def AnswerProduced (query : String) (past : List ThreadTransition) (values : MacroAgentState) :
    Prop :=
  ∃ transition ∈ past, ∃ text, producedAnswer transition = some text ∧
    values.finalAnswer = some text ∧ transition.source.values.userQuery = some query

/-- No answer is shown, or one of the current request. -/
def AnswerCurrent (query : String) (past : List ThreadTransition) (values : MacroAgentState) :
    Prop :=
  values.finalAnswer = none ∨ AnswerProduced query past values

/-- What is known of a thread since its latest request. -/
structure Inquiry (previous : Option String) (query : String) (past : List ThreadTransition)
    (thread : Thread) : Prop where
  asked : thread.values.userQuery = some query
  answered : AnswerProduced query past thread.values ∨
    (∀ transition ∈ past, producedAnswer transition = none) ∧
      thread.values.finalAnswer = previous

section Requests

variable {host : Host} {threadId query runId : String} {previous : Option String}
  {past since : List ThreadTransition} {start thread next : Thread}

theorem AnswerProduced.later {transition : ThreadTransition} {before after : MacroAgentState}
    (produced : AnswerProduced query past before) (same : after.finalAnswer = before.finalAnswer) :
    AnswerProduced query (past ++ [transition]) after := by
  obtain ⟨origin, member, text, answer, shown, asked⟩ := produced
  exact ⟨origin, List.mem_append_left _ member, text, answer, same.trans shown, asked⟩

private theorem Inquiry.silent {transition : ThreadTransition}
    (inquiry : Inquiry previous query past thread)
    (silent : producedAnswer transition = none)
    (sameQuery : next.values.userQuery = thread.values.userQuery)
    (sameAnswer : next.values.finalAnswer = thread.values.finalAnswer) :
    Inquiry previous query (past ++ [transition]) next where
  asked := sameQuery.trans inquiry.asked
  answered := by
    rcases inquiry.answered with produced | ⟨none, unchanged⟩
    · exact .inl (produced.later sameAnswer)
    · refine .inr ⟨?_, sameAnswer.trans unchanged⟩
      intro other member
      rcases List.mem_append.mp member with earlier | latest
      · exact none other earlier
      · exact List.mem_singleton.mp latest ▸ silent

private theorem producedAnswer_of_other {node : Node} {review : Option Dict}
    {transition : ThreadTransition} (executing : transition.source.position =
      .executing node review) (other : node ≠ .finalize) : producedAnswer transition = none := by
  unfold producedAnswer
  split
  · next finalizing _ =>
      cases executing.symm.trans finalizing
      exact absurd rfl other
  · rfl

private theorem producedAnswer_of_settled {transition : ThreadTransition}
    (settled : transition.source.Settled) : producedAnswer transition = none := by
  unfold producedAnswer
  split
  · next finalizing _ => exact absurd finalizing (settled _ _)
  · rfl

private theorem Inquiry.node (inquiry : Inquiry previous query past thread) {node : Node}
    {review : Option Dict} (executing : thread.position = .executing node review)
    (store : SQLiteJobStore) (clock : Nat) :
    Inquiry previous query
      (past ++ [⟨thread, .node store clock, thread.advance host node review store clock⟩])
      (thread.advance host node review store clock) := by
  by_cases finalizes : node = .finalize
  · subst finalizes
    obtain ⟨text, answer⟩ : ∃ text, (finalizeNode thread.values).finalAnswer = some text := by
      unfold finalizeNode
      split <;> exact ⟨_, rfl⟩
    have values : (thread.advance host .finalize review store clock).values =
        thread.values.apply (finalizeNode thread.values) := rfl
    refine ⟨?_, .inl ⟨⟨thread, .node store clock, thread.advance host .finalize review store clock⟩,
      by simp, text, ?_, ?_, inquiry.asked⟩⟩
    · rw [values, ← inquiry.asked]
      unfold finalizeNode
      split <;> rfl
    · simp [producedAnswer, executing, answer]
    · simp [values, MacroAgentState.apply, answer]
  · have silent : producedAnswer ⟨thread, .node store clock,
        thread.advance host node review store clock⟩ = none :=
      producedAnswer_of_other executing finalizes
    rcases thread.advance_values host node review store clock with
      ⟨update, changed, executed, outcome⟩ | outcome
    · have owned := executed.owned
      refine inquiry.silent silent ?_ ?_
      · simp [outcome, MacroAgentState.apply, owned.userQuery]
      · simp [outcome, MacroAgentState.apply, owned.finalAnswer finalizes]
    · exact inquiry.silent silent (by rw [outcome]) (by rw [outcome])

private theorem Inquiry.step (inquiry : Inquiry previous query past thread)
    {action : ThreadAction} (stepped : thread.step host threadId action = some next)
    (same : action.opensRequest = false) :
    Inquiry previous query (past ++ [⟨thread, action, next⟩]) next := by
  cases Thread.step_cases stepped with
  | runWorkflow => cases same
  | resumeWorkflow review paused =>
      refine inquiry.silent (producedAnswer_of_settled ?_) rfl rfl
      intro node held executing
      cases paused.symm.trans executing
  | node node review store clock executing => exact inquiry.node executing store clock
  | others store settled => exact inquiry.silent (producedAnswer_of_settled settled) rfl rfl
  | crash node review store clock executing =>
      refine inquiry.silent ?_ rfl rfl
      unfold producedAnswer
      split
      · next label => cases label
      · rfl

/-- In every state after a request, up to the next one, the thread shows no
answer of an earlier request exactly if it had none to show when the request was
made, or the request has executed `finalize`. -/
theorem answerCurrent_iff {earlier : List ThreadTransition} {call : ThreadTransition}
    (run : Run (Thread.step host threadId) start (earlier ++ call :: since) thread)
    (request : call.label = .runWorkflow runId query)
    (within : ∀ transition ∈ since, transition.label.opensRequest = false) :
    AnswerCurrent query since thread.values ↔
      call.source.values.finalAnswer = none ∨
        ∃ transition ∈ since, (producedAnswer transition).isSome = true := by
  obtain ⟨_, stepped, rest⟩ := run.around
  have inquiry : Inquiry call.source.values.finalAnswer query since thread := by
    refine Run.invariant (fun transition => transition.label.opensRequest = false)
      (Inquiry call.source.values.finalAnswer query) ?_ ?_ rest within
    · obtain ⟨source, label, target⟩ := call
      cases request
      dsimp only at stepped ⊢
      cases Thread.step_cases stepped with
      | runWorkflow _ _ settled => exact ⟨rfl, .inr ⟨by simp, rfl⟩⟩
    · intro past state action following _ held taken same
      exact held.step taken same
  constructor
  · intro current
    rcases current with absent | produced
    · rcases inquiry.answered with produced | ⟨_, unchanged⟩
      · obtain ⟨_, _, text, _, shown, _⟩ := produced
        cases absent.symm.trans shown
      · exact .inl (unchanged.symm.trans absent)
    · obtain ⟨transition, member, text, answer, _⟩ := produced
      exact .inr ⟨transition, member, by rw [answer]; rfl⟩
  · intro condition
    rcases inquiry.answered with produced | ⟨none, unchanged⟩
    · exact .inr produced
    · rcases condition with absent | ⟨transition, member, produces⟩
      · exact .inl (unchanged.trans absent)
      · rw [none transition member] at produces
        cases produces

end Requests

/-- The second request of a thread whose first one, a direct question, has been
answered. -/
private theorem second_request (query : String) (after : List ThreadAction) (finalizes : Bool)
    (follow : ∀ action ∈ after, action.opensRequest = false)
    (driven : (execute (Thread.step Host.ascii "t") Thread.initial
      ([.runWorkflow "r1" "direct question", .node .empty 0, .node .empty 0, .node .empty 0] ++
        .runWorkflow "r2" query :: after)).map
        (fun outcome => ((outcome.1.drop 4).head?.map (·.source.values.finalAnswer.isSome),
          (outcome.1.drop 5).any fun transition => (producedAnswer transition).isSome,
          outcome.2.values.finalAnswer.isSome, decide outcome.2.Settled)) =
      some (some true, finalizes, true, true)) :
    ∃ earlier call since thread,
      Run (Thread.step Host.ascii "t") Thread.initial (earlier ++ call :: since) thread ∧
      call.label = .runWorkflow "r2" query ∧
      (∀ transition ∈ since, transition.label.opensRequest = false) ∧ thread.Settled ∧
      call.source.values.finalAnswer ≠ none ∧ thread.values.finalAnswer ≠ none ∧
      (since.any fun transition => (producedAnswer transition).isSome) = finalizes := by
  obtain ⟨history, thread, run, labels, observed⟩ := execute_observed _ _ _ _ _ driven
  obtain ⟨earlier, rest, rfl, firstLabels, restLabels⟩ := List.map_eq_append_iff.mp labels
  obtain ⟨call, since, rfl, label, sinceLabels⟩ := List.map_eq_cons_iff.mp restLabels
  have length : earlier.length = 4 := by simpa using congrArg List.length firstLabels
  have following : (earlier ++ call :: since).drop 5 = since := by simp [List.drop_append, length]
  obtain ⟨before, observed⟩ := Prod.mk.inj observed
  obtain ⟨finalized, observed⟩ := Prod.mk.inj observed
  obtain ⟨answered, settled⟩ := Prod.mk.inj observed
  rw [← length, List.drop_left] at before
  rw [following] at finalized
  refine ⟨earlier, call, since, thread, run, label, ?_, of_decide_eq_true settled, ?_, ?_,
    finalized⟩
  · intro transition member
    refine follow _ ?_
    rw [← sinceLabels]
    exact List.mem_map_of_mem member
  · intro none
    simp [none] at before
  · intro none
    simp [none] at answered

/-- The second request is a direct question too, and is answered anew. -/
theorem answerCurrent_after_second_answer :
    ∃ earlier call since thread,
      Run (Thread.step Host.ascii "t") Thread.initial (earlier ++ call :: since) thread ∧
      call.source.values.finalAnswer ≠ none ∧
      AnswerCurrent "another direct question" since thread.values := by
  obtain ⟨earlier, call, since, thread, run, label, within, _, before, _, finalizes⟩ :=
    second_request "another direct question" [.node .empty 0, .node .empty 0, .node .empty 0]
      true (by decide) (by decide +kernel)
  refine ⟨earlier, call, since, thread, run, before, ?_⟩
  exact (answerCurrent_iff run label within).mpr (.inr (List.any_eq_true.mp finalizes))

/-- The second request is paused for approval, and the answer to the first one
is still there. -/
theorem answerCurrent_fails_at_pause :
    ∃ earlier call since thread,
      Run (Thread.step Host.ascii "t") Thread.initial (earlier ++ call :: since) thread ∧
      call.label = .runWorkflow "r2" "Diagnose CPI trends" ∧
      (∀ transition ∈ since, transition.label.opensRequest = false) ∧ thread.Settled ∧
      ¬ AnswerCurrent "Diagnose CPI trends" since thread.values := by
  obtain ⟨earlier, call, since, thread, run, label, within, settled, _, shown, finalizes⟩ :=
    second_request "Diagnose CPI trends" [.node .empty 0, .node .empty 0, .node .empty 0]
      false (by decide) (by decide +kernel)
  refine ⟨earlier, call, since, thread, run, label, within, settled, ?_⟩
  intro current
  rcases current with absent | ⟨transition, member, text, produced, _⟩
  · exact shown absent
  · have produces : (since.any fun transition => (producedAnswer transition).isSome) = true :=
      List.any_eq_true.mpr ⟨transition, member, by rw [produced]; rfl⟩
    cases finalizes.symm.trans produces

end DurableAgent.Graph
