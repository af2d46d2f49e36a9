import DurableAgent.Mcp.Client

/-!
# The end of the read loop

The handler of the read loop fails every registered future. The two silent
ends, the end of the server's output and a cancellation by `stop`, fail none,
and nothing fails what is registered later.
-/

set_option autoImplicit false

namespace DurableAgent.Mcp

open Library Python

def Client.Answered (client : Client) : Prop :=
  ∀ call ∈ client.calls, call.future.done = true

/-- Once the read loop has ended, no future is pending. -/
def NoneHanging (client : Client) : Prop := client.reader = .ended → client.Answered

def ClientAction.endsSilently : ClientAction → Bool
  | .readLine .endOfFile => true
  | .readerCancelled => true
  | _ => false

def ClientAction.sends : ClientAction → Bool
  | .sendRequest _ _ => true
  | _ => false

/-- The read loop ends silently only when every future is done, and nothing is
sent after its end. -/
def EndsAnswered (transition : Transition Client ClientAction) : Prop :=
  (transition.label.endsSilently = true → transition.source.Answered) ∧
    (transition.label.sends = true → transition.source.reader ≠ .ended)

instance (client : Client) : Decidable client.Answered :=
  inferInstanceAs (Decidable (∀ call ∈ client.calls, call.future.done = true))

instance (client : Client) : Decidable (NoneHanging client) :=
  inferInstanceAs (Decidable (client.reader = .ended → client.Answered))

instance (transition : Transition Client ClientAction) : Decidable (EndsAnswered transition) :=
  inferInstanceAs (Decidable ((transition.label.endsSilently = true →
    transition.source.Answered) ∧
      (transition.label.sends = true → transition.source.reader ≠ .ended)))

variable {client next : Client} {action : ClientAction}

theorem Client.Answered.evolve (answered : client.Answered) {calls : List Call}
    (evolved : Evolved client.calls calls) : ∀ later ∈ calls, later.future.done = true := by
  intro later member
  obtain ⟨position, stored⟩ := List.mem_iff_getElem?.mp member
  obtain ⟨call, earlier, evolves⟩ := evolved.origin position later stored
  have done := answered call (List.mem_of_getElem? earlier)
  rw [evolves.future done]
  exact done

/-- The handler of the read loop reaches every future. -/
theorem Mapped.failPending_answered (mapped : Mapped client) (failure : ReadFailure) :
    (client.failPending failure).Answered := by
  intro later member
  obtain ⟨position, stored⟩ := List.mem_iff_getElem?.mp member
  have evolved := Evolved.foldl_modify client.pending.values (Call.fail_evolves failure)
    client.calls
  obtain ⟨call, earlier, evolves⟩ := evolved.origin position later stored
  cases done : call.future.done with
  | true =>
      rw [evolves.future done]
      exact done
  | false =>
      have registered := mapped.registered position call earlier done
      have listed : position ∈ client.pending.values :=
        OrderedDict.mem_values_iff.mpr ⟨_, OrderedDict.get?_eq_some_iff.mp registered⟩
      exact foldl_fail_done failure listed stored

namespace NoneHanging

theorem step (settled : NoneHanging client) (mapped : Mapped client)
    (stepped : client.step action = some next) (ends : EndsAnswered ⟨client, action, next⟩) :
    NoneHanging next := by
  intro ended
  cases Client.step_effect stepped with
  | quiet reader _ earlier => exact settled (earlier ended)
  | ends silently =>
      apply ends.1
      rcases silently with rfl | rfl <;> rfl
  | register primitive serialisable _ => exact absurd ended (ends.2 rfl)
  | move position call moved _ stored moves _ =>
      exact (settled ended).evolve (Evolved.set stored moves.evolves)
  | fail incoming failure _ => exact mapped.failPending_answered failure
  | ignore incoming reading _ =>
      rw [reading] at ended
      cases ended
  | answer incoming data requestId position reading _ _ =>
      dsimp only at ended
      rw [reading] at ended
      cases ended

/-- A step that leaves nobody hanging meets the condition. -/
theorem endsAnswered (stepped : client.step action = some next) (settled : NoneHanging next) :
    EndsAnswered ⟨client, action, next⟩ := by
  constructor
  · intro silently
    cases action with
    | readLine incoming =>
        cases incoming with
        | endOfFile =>
            simp only [Client.step] at stepped
            split at stepped <;> cases stepped
            exact settled rfl
        | readlineFails | line => cases silently
    | readerCancelled =>
        simp only [Client.step] at stepped
        split at stepped <;> cases stepped
        exact settled rfl
    | start | sendRequest | drained | drainFails | resume | cancelCall | stop => cases silently
  · intro sends ended
    cases action with
    | sendRequest primitive serialisable =>
        dsimp only at ended
        simp only [Client.step, ended, reduceCtorEq, if_false, Option.some.injEq] at stepped
        subst next
        have registered := settled ended ⟨client.requestId + 1, primitive, .pending, _⟩
          (List.mem_append_right _ (List.mem_singleton_self _))
        cases registered
    | start | drained | drainFails | resume | cancelCall | readLine | stop | readerCancelled =>
        cases sends

end NoneHanging

section Runs

variable {history : List (Transition Client ClientAction)}

private theorem settled_of_endsAnswered
    (run : Run Client.step Client.initial history client)
    (ends : ∀ transition ∈ history, EndsAnswered transition) :
    NoneHanging client ∧ ∀ transition ∈ history, NoneHanging transition.target := by
  induction run with
  | nil =>
      refine ⟨?_, by simp⟩
      intro ended
      cases ended
  | @snoc history state label next previous stepped ih =>
      obtain ⟨settled, earlier⟩ := ih fun transition member =>
        ends transition (List.mem_append_left _ member)
      have reached := settled.step (Mapped.of_run previous) stepped
        (ends _ (List.mem_append_right _ (List.mem_singleton_self _)))
      refine ⟨reached, ?_⟩
      intro transition member
      rcases List.mem_append.mp member with before | last
      · exact earlier transition before
      · rw [List.mem_singleton.mp last]
        exact reached

/-- No caller is left hanging exactly in the runs in which the read loop ends by
an exception or with every future done, and nothing is sent after its end. -/
theorem noneHanging_iff (run : Run Client.step Client.initial history client) :
    (∀ transition ∈ history, NoneHanging transition.target) ↔
      ∀ transition ∈ history, EndsAnswered transition := by
  constructor
  · intro settled transition member
    exact (settled transition member).endsAnswered (run.stepped_of_mem member)
  · intro ends
    exact (settled_of_endsAnswered run ends).2

end Runs

/-- A malformed line fails the two requests that are pending. -/
theorem noneHanging_after_malformed_line :
    ∃ history client, Run Client.step Client.initial history client ∧
      client.calls.length = 2 ∧ client.reader = .ended ∧
      ∀ transition ∈ history, NoneHanging transition.target := by
  obtain ⟨history, client, run, _, observed⟩ :=
    execute_observed Client.step Client.initial
      [.start, .sendRequest .listTools true, .drained 0,
        .sendRequest (.callTool "mcp_arima_forecast" []) true, .readLine (.line none)]
      (fun outcome => (outcome.2.calls.length, outcome.2.reader,
        outcome.1.all fun transition => decide (EndsAnswered transition)))
      (2, .ended, true) (by decide +kernel)
  simp only [Prod.mk.injEq, List.all_eq_true, decide_eq_true_eq] at observed
  obtain ⟨two, ended, ends⟩ := observed
  exact ⟨history, client, run, two, ended, (noneHanging_iff run).mpr ends⟩

/-- The server exits while a request is pending. -/
theorem noneHanging_fails_at_endOfFile :
    ∃ history client, Run Client.step Client.initial history client ∧
      history.map (·.label) =
        [.start, .sendRequest .listTools true, .drained 0, .readLine .endOfFile] ∧
      ¬ ∀ transition ∈ history, NoneHanging transition.target := by
  obtain ⟨history, client, run, labels, observed⟩ :=
    execute_observed Client.step Client.initial
      [.start, .sendRequest .listTools true, .drained 0, .readLine .endOfFile]
      (fun outcome => outcome.1.all fun transition => decide (NoneHanging transition.target))
      false (by decide +kernel)
  refine ⟨history, client, run, labels, ?_⟩
  simpa [List.all_eq_true] using observed

end DurableAgent.Mcp
