import DurableAgent.Runtime.ModelMessages

/-!
# The scripted provider

`providers/fake_provider.py`. A run reads the script from its beginning, up to the first
response without tool calls, and beyond its end finds one more.
-/

set_option autoImplicit false

namespace DurableAgent.Runtime

open Library Python Context

/-- The responses that are left, the next one at the end. -/
structure FakeProvider where
  responses : List AgentMessage

def noMoreResponses : AgentMessage :=
  { role := "assistant", content := some "No more responses available." }

namespace FakeProvider

def init (responses : List AgentMessage) : FakeProvider := ⟨responses.reverse⟩

def generate (provider : FakeProvider) (_messages : List AgentMessage) :
    AgentMessage × FakeProvider :=
  match provider.responses.getLast? with
  | none => (noMoreResponses, provider)
  | some response => (response, ⟨provider.responses.dropLast⟩)

/-- The provider after these requests. -/
def after (provider : FakeProvider) (requests : List (List AgentMessage)) : FakeProvider :=
  requests.foldl (fun asked messages => (asked.generate messages).2) provider

/-- The provider as the runtime asks it, in the light of what happened before. -/
def answering (provider : FakeProvider) (journal : Journal) (messages : List AgentMessage) :
    Except Raised AgentMessage :=
  .ok ((provider.after (journal.filterMap Entry.request?)).generate messages).1

def pending (provider : FakeProvider) : List AgentMessage := provider.responses.reverse

/-- What a run can be told, one response after the other. -/
def script (provider : FakeProvider) : List AgentMessage := provider.pending ++ [noMoreResponses]

variable {provider : FakeProvider}

@[simp] theorem pending_init (responses : List AgentMessage) :
    (init responses).pending = responses := List.reverse_reverse responses

theorem generate_pending (messages : List AgentMessage) :
    (provider.generate messages).1 = provider.pending.headD noMoreResponses ∧
      (provider.generate messages).2.pending = provider.pending.tail := by
  unfold generate pending
  cases last : provider.responses.getLast? with
  | none =>
      have empty := List.getLast?_eq_none_iff.mp last
      simp [empty]
  | some response =>
      rw [List.getLast?_eq_head?_reverse] at last
      simp [List.headD_eq_head?_getD, last, List.tail_reverse]

theorem after_pending (requests : List (List AgentMessage)) :
    (provider.after requests).pending = provider.pending.drop requests.length := by
  induction requests generalizing provider with
  | nil => rfl
  | cons messages rest ih =>
      rw [after, List.foldl_cons]
      refine ih.trans ?_
      rw [(generate_pending messages).2, ← List.drop_one, List.drop_drop, Nat.add_comm]
      rfl

end FakeProvider

section Turns

variable (runtime : AgentRuntime)

/-- A turn in which the provider gives this answer. -/
theorem turn_of_answer (preContextItems : List ContextItem) {session : Session}
    {message : AgentMessage} (within : ¬ runtime.maxSteps ≤ session.state.stepCount)
    (answered : runtime.provider (runtime.assembleContext preContextItems session).1.journal
      (runtime.modelMessages preContextItems session.state.messages) = .ok message) :
    ∃ heard, Hears message session heard ∧
      heard.state.finalAnswer = session.state.finalAnswer ∧
      (message.calls = [] ∧
          runtime.turn preContextItems session = heard.answerDirectly message ∨
        message.calls ≠ [] ∧ runtime.turn preContextItems session =
          runtime.processCalls message.rationale message.calls heard) := by
  obtain ⟨_, state, context⟩ := assembleContext_requests runtime preContextItems session
  have given : contextBundleToMessage (runtime.assembleContext preContextItems session).2 ::
      (runtime.assembleContext preContextItems session).1.state.messages =
        runtime.modelMessages preContextItems session.state.messages := by
    rw [state, context]
    rfl
  refine ⟨_, (receive_hears _ (runtime.modelMessages preContextItems session.state.messages)
    message).after_assembling runtime preContextItems, ?_, ?_⟩
  · rw [← state]
    unfold Session.receive
    cases message.rationale with
    | none => rfl
    | some rationale => rfl
  unfold AgentRuntime.turn
  rw [if_neg within]
  dsimp only
  rw [given, answered]
  dsimp only
  cases calls : message.toolCalls with
  | none => exact .inl ⟨by simp [AgentMessage.calls, calls], rfl⟩
  | some list =>
      cases list with
      | nil => exact .inl ⟨by simp [AgentMessage.calls, calls], rfl⟩
      | cons call rest =>
          have all : message.calls = call :: rest := by
            simp [AgentMessage.calls, calls]
          rw [all]
          exact .inr ⟨List.cons_ne_nil _ _, rfl⟩

/-- Tool calls leave a run running or end it for good, and give no answer. -/
theorem processCalls_ends (rationale : Option PlannerRationale) (calls : List ToolCall)
    {session : Session} (running : session.state.status = .running) :
    (runtime.processCalls rationale calls session).state.finalAnswer =
        session.state.finalAnswer ∧
      ((runtime.processCalls rationale calls session).state.status = .running ∨
        ((runtime.processCalls rationale calls session).state.status = .failed ∧
          (runtime.processCalls rationale calls session).state.stopReason =
            some .nonRetryableError)) := by
  induction calls generalizing session with
  | nil => exact ⟨rfl, .inl running⟩
  | cons call rest ih =>
      obtain ⟨tries, attempted, answered, tried, _, processed⟩ :=
        processCalls_cons runtime rationale call running rest
      rw [processed]
      cases fatal : attempted.fatal with
      | true =>
          rw [if_pos rfl]
          exact ⟨rfl, .inr ⟨by simp [Session.answered, fatal], by simp [Session.answered, fatal]⟩⟩
      | false =>
          rw [if_neg Bool.false_ne_true]
          exact ih (by simp [Session.answered, fatal, running])

end Turns

/-- The run goes on and has read so much of the script. -/
structure Reading (runtime : AgentRuntime) (provider : FakeProvider) (session : Session) :
    Prop where
  running : session.state.status = .running
  counted : Counted runtime session
  asked : session.requests.length = session.replies.length
  read : session.replies <+: provider.pending
  calls : ∀ reply ∈ session.replies, reply.calls ≠ []
  unanswered : session.state.finalAnswer = none

/-- How a run on a script comes to its end. -/
inductive ReadsTo (runtime : AgentRuntime) (session : Session) : Prop where
  | answer (earlier : List AgentMessage) (last : AgentMessage) :
      session.replies = earlier ++ [last] → (∀ reply ∈ earlier, reply.calls ≠ []) →
      last.calls = [] → session.state.status = .completed →
      session.state.finalAnswer = last.content → ReadsTo runtime session
  | limit :
      session.replies.length = runtime.maxSteps.toNat →
      (∀ reply ∈ session.replies, reply.calls ≠ []) →
      session.state.status = .maxStepsExceeded → session.state.finalAnswer = none →
      ReadsTo runtime session
  | failure :
      session.replies ≠ [] → (∀ reply ∈ session.replies, reply.calls ≠ []) →
      session.state.status = .failed →
      session.state.stopReason = some .nonRetryableError → session.state.finalAnswer = none →
      ReadsTo runtime session

/-- The run is over, and the provider keeps what it has not read. -/
structure HasRead (runtime : AgentRuntime) (provider : FakeProvider) (session : Session) :
    Prop where
  read : session.replies <+: provider.script
  asked : session.requests.length = session.replies.length
  ends : ReadsTo runtime session

section Script

variable {runtime : AgentRuntime} {provider : FakeProvider} {session : Session}

theorem Reading.exceeds (reading : Reading runtime provider session)
    (exceeded : runtime.maxSteps ≤ session.state.stepCount) :
    HasRead runtime provider (runtime.exceedMaxSteps session) := by
  have replies := (exceedMaxSteps_kept runtime session).replies
  have counted := reading.counted.stepCount
  have bounded := reading.counted.bounded
  refine ⟨?_, ?_, .limit ?_ ?_ rfl reading.unanswered⟩
  · rw [replies]
    exact reading.read.trans (List.prefix_append _ _)
  · rw [requests_exceedMaxSteps, replies]
    exact reading.asked
  · rw [replies]
    omega
  · rw [replies]
    exact reading.calls

/-- The next response is read, or the one beyond the end of the script. -/
theorem Reading.next (reading : Reading runtime provider session) :
    ∃ message, (∀ requests, requests.length = session.requests.length →
        ∀ messages, ((provider.after requests).generate messages).1 = message) ∧
      session.replies ++ [message] <+: provider.script ∧
      (message.calls ≠ [] → session.replies ++ [message] <+: provider.pending) := by
  obtain ⟨rest, whole⟩ := reading.read
  have left : ∀ requests : List (List AgentMessage), requests.length = session.requests.length →
      (provider.after requests).pending = rest := by
    intro requests count
    rw [FakeProvider.after_pending, count, reading.asked, ← whole, List.drop_left]
  refine ⟨rest.headD noMoreResponses, ?_, ?_, ?_⟩
  · intro requests count messages
    rw [(FakeProvider.generate_pending messages).1, left requests count]
  · rw [FakeProvider.script, ← whole]
    cases rest with
    | nil => exact ⟨[], by simp⟩
    | cons response later => exact ⟨later ++ [noMoreResponses], by simp⟩
  · intro calls
    cases rest with
    | nil => exact absurd rfl calls
    | cons response later => exact ⟨later, by simp [← whole]⟩

theorem Reading.turn (reading : Reading runtime provider session)
    (answers : runtime.provider = provider.answering) (preContextItems : List ContextItem) :
    Reading runtime provider (runtime.turn preContextItems session) ∨
      HasRead runtime provider (runtime.turn preContextItems session) := by
  by_cases exceeded : runtime.maxSteps ≤ session.state.stepCount
  · right
    unfold AgentRuntime.turn
    rw [if_pos exceeded]
    exact reading.exceeds exceeded
  · obtain ⟨message, generated, read, further⟩ := reading.next
    obtain ⟨before, _, _⟩ := assembleContext_requests runtime preContextItems session
    have answered : runtime.provider (runtime.assembleContext preContextItems session).1.journal
        (runtime.modelMessages preContextItems session.state.messages) = .ok message := by
      rw [answers]
      exact congrArg Except.ok (generated _ (congrArg List.length before) _)
    obtain ⟨heard, hears, silent, next⟩ := turn_of_answer runtime preContextItems exceeded answered
    have counted := reading.counted.turn (turn_taken runtime preContextItems session)
    have asked : (runtime.turn preContextItems session).requests.length =
        (session.replies ++ [message]).length := by
      rw [requests_turn_within runtime preContextItems session exceeded]
      simp [reading.asked]
    rcases next with ⟨none, next⟩ | ⟨calls, next⟩
    · rw [next] at asked ⊢
      have replies := ((answerDirectly_kept heard message).replies).trans hears.replies
      refine .inr ⟨replies ▸ read, asked.trans (congrArg List.length replies.symm), ?_⟩
      exact .answer session.replies message replies reading.calls none rfl rfl
    · rw [next] at asked counted ⊢
      have replies := ((processCalls_kept runtime message.rationale message.calls heard).replies).trans
        hears.replies
      have all : ∀ reply ∈ session.replies ++ [message], reply.calls ≠ [] :=
        List.forall_mem_append.mpr ⟨reading.calls, by simpa using calls⟩
      have length := asked.trans (congrArg List.length replies.symm)
      obtain ⟨final, ends⟩ := processCalls_ends runtime message.rationale message.calls
        (hears.status.trans reading.running)
      have unanswered := final.trans (silent.trans reading.unanswered)
      rcases ends with running | ⟨failed, reason⟩
      · exact .inl ⟨running, counted, length, replies ▸ further calls, replies ▸ all, unanswered⟩
      · refine .inr ⟨replies ▸ read, length,
          .failure ?_ (replies ▸ all) failed reason unanswered⟩
        simp [replies]

theorem runSession_hasRead (answers : runtime.provider = provider.answering)
    (runId userInput : String) :
    HasRead runtime provider (runtime.runSession runId userInput) := by
  have exits := runSession_exits runtime runId userInput
  obtain ⟨calm, counted⟩ := prepare_start runtime runId userInput
  let holds := fun session => Reading runtime provider session ∨ HasRead runtime provider session
  have kept : ∀ session, AgentRuntime.Running session = true → holds session →
      holds (runtime.turn (runtime.prepare runId userInput).2 session) := by
    intro session active held
    rcases held with reading | finished
    · exact reading.turn answers _
    · have running : session.state.status = .running := by
        simpa [AgentRuntime.Running] using active
      cases finished.ends with
      | answer _ _ _ _ _ completed _ =>
          rw [running] at completed
          cases completed
      | limit _ _ exceeded _ =>
          rw [running] at exceeded
          cases exceeded
      | failure _ _ failed _ _ =>
          rw [running] at failed
          cases failed
  have base : holds (runtime.prepare runId userInput).1 := by
    have replies : (runtime.prepare runId userInput).1.replies = [] := by
      rw [← List.length_eq_zero_iff, ← counted.stepCount, (prepare_beside runtime runId userInput).1]
      rfl
    refine .inl ⟨calm.running, counted, ?_, ?_, ?_, ?_⟩
    · rw [prepare_requests, replies]
      rfl
    · rw [replies]
      exact List.nil_prefix
    · simp [replies]
    · rw [(prepare_beside runtime runId userInput).1]
      rfl
  rcases exits.invariant kept base with reading | finished
  · have halted := exits.stopped
    simp [AgentRuntime.Running, reading.running] at halted
  · exact finished

end Script

/-! ## Several runs -/

namespace AgentRuntime

variable (runtime : AgentRuntime)

def asking (provider : FakeProvider) : AgentRuntime :=
  { runtime with provider := provider.answering }

/-- Runs one after the other on one provider, and what is left of it. -/
def runsOn (provider : FakeProvider) : List (String × String) → List Session × FakeProvider
  | [] => ([], provider)
  | (runId, userInput) :: rest =>
      let session := (runtime.asking provider).runSession runId userInput
      let (sessions, left) := runsOn (provider.after session.requests) rest
      (session :: sessions, left)

end AgentRuntime

/-- The responses are read in the order of the script, each by one run, and the rest of them
is left. -/
structure ShareScript (provider left : FakeProvider) (read : List AgentMessage) : Prop where
  inOrder : ∃ beyond, read <+: provider.pending ++ List.replicate beyond noMoreResponses
  left : left.pending = provider.pending.drop read.length

theorem ShareScript.cons {provider left : FakeProvider} {read more : List AgentMessage}
    {requests : List (List AgentMessage)} (first : read <+: provider.script)
    (asked : requests.length = read.length)
    (others : ShareScript (provider.after requests) left more) :
    ShareScript provider left (read ++ more) := by
  obtain ⟨⟨beyond, inOrder⟩, remaining⟩ := others
  rw [FakeProvider.after_pending, asked] at inOrder remaining
  refine ⟨?_, ?_⟩
  · rcases List.prefix_concat_iff.mp first with all | ⟨rest, whole⟩
    · have nothing : provider.pending.drop read.length = [] :=
        List.drop_eq_nil_of_le (by simp [all])
      rw [nothing, List.nil_append] at inOrder
      refine ⟨beyond + 1, ?_⟩
      rw [List.replicate_succ, all, List.append_assoc, List.prefix_append_right_inj]
      exact (List.prefix_append_right_inj [noMoreResponses]).mpr inOrder
    · refine ⟨beyond, ?_⟩
      rw [← whole, List.drop_left] at inOrder
      rw [← whole, List.append_assoc, List.prefix_append_right_inj]
      exact inOrder
  · rw [remaining, List.drop_drop, List.length_append]

/-- However many runs a scripted provider serves, they share its script. -/
theorem runs_share_script (runtime : AgentRuntime) (provider : FakeProvider)
    (runs : List (String × String)) :
    ShareScript provider (runtime.runsOn provider runs).2
        ((runtime.runsOn provider runs).1.flatMap Session.replies) ∧
      ∀ session ∈ (runtime.runsOn provider runs).1, ReadsTo runtime session := by
  induction runs generalizing provider with
  | nil => exact ⟨⟨⟨0, List.nil_prefix⟩, rfl⟩, by simp [AgentRuntime.runsOn]⟩
  | cons run rest ih =>
      have first : HasRead (runtime.asking provider) provider
          ((runtime.asking provider).runSession run.1 run.2) := runSession_hasRead rfl run.1 run.2
      obtain ⟨shared, ends⟩ := ih
        (provider.after ((runtime.asking provider).runSession run.1 run.2).requests)
      refine ⟨shared.cons first.read first.asked, ?_⟩
      intro session member
      rcases List.mem_cons.mp member with rfl | later
      · cases first.ends with
        | answer earlier last replies calls none completed final =>
            exact .answer earlier last replies calls none completed final
        | limit bound calls exceeded unanswered => exact .limit bound calls exceeded unanswered
        | failure some calls failed reason unanswered =>
            exact .failure some calls failed reason unanswered
      · exact ends session later

end DurableAgent.Runtime
