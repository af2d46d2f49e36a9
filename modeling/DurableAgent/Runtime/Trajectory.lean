import DurableAgent.Runtime.Bounds

/-!
# The end of a trajectory

The steps of a run end with the reason for which it stopped, unless a tool call
has failed for good: then the last step is the one of that call.
-/

set_option autoImplicit false

namespace DurableAgent.Runtime

open Library Python Context

def Event.ofCall : Event → Bool
  | .toolCallReceived _ | .toolActionCreated _ _ | .toolStarted _ _ | .toolTransientError _ _ _
  | .toolSucceeded _ _ | .toolFailed _ _ _ | .toolValidationFailed _ _
  | .observationRecorded _ _ | .stepCompleted _ _ => true
  | _ => false

def Entry.ofCall : Entry → Bool
  | .traced event => event.event.ofCall
  | .generated _ _ => false
  | .executed _ _ _ => true

/-- The second journal is longer, by nothing that belongs to a tool call. -/
def Beside (before after : Journal) : Prop :=
  ∃ entries, after = before ++ entries ∧ ∀ entry ∈ entries, entry.ofCall = false

namespace Beside

variable {before middle after : Journal}

theorem refl (journal : Journal) : Beside journal journal := ⟨[], by simp, by simp⟩

theorem trans (first : Beside before middle) (second : Beside middle after) :
    Beside before after := by
  obtain ⟨earlier, rfl, plain⟩ := first
  obtain ⟨later, rfl, others⟩ := second
  exact ⟨earlier ++ later, List.append_assoc _ _ _, List.forall_mem_append.mpr ⟨plain, others⟩⟩

theorem entry (journal : Journal) {entry : Entry} (plain : entry.ofCall = false) :
    Beside journal (journal ++ [entry]) :=
  ⟨[entry], rfl, by simpa using plain⟩

end Beside

/-- A step with the reason is appended as the run stops. -/
structure Halts (before after : Session) : Prop where
  beside : Beside before.journal after.journal
  messages : after.state.messages = before.state.messages
  replies : after.replies = before.replies
  stopped : after.state.status ≠ .running
  steps : ∃ step stop, after.state.steps = before.state.steps ++ [step] ∧ step.action = none ∧
    step.stopReason = some stop ∧ after.state.stopReason = some stop.reason ∧
    stop.reason ≠ .nonRetryableError

/-- The provider answers with the message. -/
structure Hears (message : AgentMessage) (before after : Session) : Prop where
  beside : Beside before.journal after.journal
  messages : after.state.messages = before.state.messages ++ [message]
  replies : after.replies = before.replies ++ [message]
  steps : after.state.steps = before.state.steps
  status : after.state.status = before.state.status
  stopReason : after.state.stopReason = before.state.stopReason

def AgentMessage.calls (message : AgentMessage) : List ToolCall := message.toolCalls.getD []

/-- What a turn of the main loop does to the trajectory. -/
inductive Progress (runtime : AgentRuntime) (session : Session) : Session → Prop where
  | halts {after : Session} : Halts session after → Progress runtime session after
  | answers {message : AgentMessage} {heard after : Session} :
      Hears message session heard → message.calls = [] → Halts heard after →
      Progress runtime session after
  | calls {message : AgentMessage} {heard : Session} :
      Hears message session heard →
      Progress runtime session (runtime.processCalls message.rationale message.calls heard)

section Turns

variable (runtime : AgentRuntime)

theorem exceedMaxSteps_halts (session : Session) :
    Halts session (runtime.exceedMaxSteps session) where
  beside := (Beside.entry _ rfl).trans (.entry _ rfl)
  messages := rfl
  replies := (exceedMaxSteps_kept runtime session).replies
  stopped := nofun
  steps := ⟨_, _, rfl, rfl, rfl, rfl, nofun⟩

theorem failProvider_halts (session : Session) (exception : Raised) :
    Halts session (session.failProvider exception) where
  beside := (Beside.entry _ rfl).trans (.entry _ rfl)
  messages := rfl
  replies := (failProvider_kept session exception).replies
  stopped := nofun
  steps := ⟨_, _, rfl, rfl, rfl, rfl, nofun⟩

theorem answerDirectly_halts (session : Session) (message : AgentMessage) :
    Halts session (session.answerDirectly message) where
  beside := (Beside.entry _ rfl).trans (.entry _ rfl)
  messages := rfl
  replies := (answerDirectly_kept session message).replies
  stopped := nofun
  steps := ⟨_, _, rfl, rfl, rfl, rfl, nofun⟩

theorem assembleContext_beside (preContextItems : List ContextItem) (session : Session) :
    Beside session.journal (runtime.assembleContext preContextItems session).1.journal ∧
      (runtime.assembleContext preContextItems session).1.state = session.state := by
  unfold AgentRuntime.assembleContext
  dsimp only
  split
  · exact ⟨(Beside.entry _ rfl).trans (.entry _ rfl), rfl⟩
  · exact ⟨.entry _ rfl, rfl⟩

theorem receive_hears (session : Session) (messages : List AgentMessage) (message : AgentMessage) :
    Hears message session ((session.note (.generated messages (.ok message))).receive message) := by
  let noted := session.note (.generated messages (.ok message))
  obtain ⟨_, transcript, replies⟩ := receive_counts noted message
  have grown : noted.replies = session.replies ++ [message] := by
    simp [noted, Session.replies, Session.note, Entry.reply?]
  have received : (noted.receive message).state.steps = session.state.steps ∧
      (noted.receive message).state.status = session.state.status ∧
      (noted.receive message).state.stopReason = session.state.stopReason ∧
      Beside noted.journal (noted.receive message).journal := by
    unfold Session.receive
    cases message.rationale with
    | none => exact ⟨rfl, rfl, rfl, .entry _ rfl⟩
    | some rationale => exact ⟨rfl, rfl, rfl, (Beside.entry _ rfl).trans (.entry _ rfl)⟩
  obtain ⟨steps, status, stopReason, beside⟩ := received
  exact ⟨(Beside.entry _ rfl).trans beside, transcript, replies.trans grown, steps, status,
    stopReason⟩

theorem Hears.after_assembling {message : AgentMessage} {session heard : Session}
    (preContextItems : List ContextItem)
    (hears : Hears message (runtime.assembleContext preContextItems session).1 heard) :
    Hears message session heard := by
  obtain ⟨beside, same⟩ := assembleContext_beside runtime preContextItems session
  have kept := assembleContext_kept runtime preContextItems session
  have steps := hears.steps
  have messages := hears.messages
  have status := hears.status
  have stopReason := hears.stopReason
  rw [same] at steps messages status stopReason
  exact ⟨beside.trans hears.beside, messages, by rw [hears.replies, kept.replies], steps, status,
    stopReason⟩

theorem Halts.after_beside {before middle after : Session}
    (beside : Beside before.journal middle.journal) (state : middle.state = before.state)
    (replies : middle.replies = before.replies) (halts : Halts middle after) :
    Halts before after := by
  have messages := halts.messages
  have steps := halts.steps
  rw [state] at messages steps
  exact ⟨beside.trans halts.beside, messages, halts.replies.trans replies, halts.stopped, steps⟩

theorem turn_progress (preContextItems : List ContextItem) (session : Session) :
    Progress runtime session (runtime.turn preContextItems session) := by
  unfold AgentRuntime.turn
  split
  · exact .halts (exceedMaxSteps_halts runtime session)
  · rcases assembled : runtime.assembleContext preContextItems session with ⟨requested, bundle⟩
    have first : requested = (runtime.assembleContext preContextItems session).1 := by
      rw [assembled]
    dsimp only
    generalize contextBundleToMessage bundle :: requested.state.messages = modelMessages
    cases runtime.provider requested.journal modelMessages with
    | error exception =>
        subst first
        obtain ⟨beside, same⟩ := assembleContext_beside runtime preContextItems session
        have kept := assembleContext_kept runtime preContextItems session
        let asked := (runtime.assembleContext preContextItems session).1.note
          (.generated modelMessages (.error exception))
        have unchanged : asked.state = session.state := same
        have replies : asked.replies = session.replies :=
          (Kept.generated _ modelMessages exception).replies.trans kept.replies
        exact .halts (.after_beside (beside.trans (.entry _ rfl)) unchanged replies
          (failProvider_halts asked exception))
    | ok message =>
        have hears : Hears message session
            ((requested.note (.generated modelMessages (.ok message))).receive message) := by
          subst first
          exact (receive_hears _ modelMessages message).after_assembling runtime preContextItems
        dsimp only
        split
        · next call rest calls =>
            have all : message.calls = call :: rest := by
              simp [AgentMessage.calls, calls]
            rw [← all]
            exact .calls hears
        · next none =>
            have nothing : message.calls = [] := by
              cases calls : message.toolCalls with
              | none => simp [AgentMessage.calls, calls]
              | some list =>
                  cases list with
                  | nil => simp [AgentMessage.calls, calls]
                  | cons call rest => exact absurd calls (none call rest)
            exact .answers hears nothing (answerDirectly_halts _ message)

theorem prepare_beside (runId userInput : String) :
    (runtime.prepare runId userInput).1.state = (AgentRuntime.start runId userInput).state ∧
      Beside [] (runtime.prepare runId userInput).1.journal := by
  have started : Beside [] (AgentRuntime.start runId userInput).journal := .entry [] rfl
  have activated : ∀ session, (runtime.activateSkill userInput session).1.state = session.state ∧
      Beside session.journal (runtime.activateSkill userInput session).1.journal := by
    intro session
    unfold AgentRuntime.activateSkill
    split
    · exact ⟨rfl, .entry _ rfl⟩
    · exact ⟨rfl, .refl _⟩
  have retrieved : ∀ session,
      (runtime.retrieveEvidence userInput session).1.state = session.state ∧
      Beside session.journal (runtime.retrieveEvidence userInput session).1.journal := by
    intro session
    unfold AgentRuntime.retrieveEvidence
    split
    · dsimp only
      split
      · exact ⟨rfl, .entry _ rfl⟩
      · exact ⟨rfl, .entry _ rfl⟩
    · exact ⟨rfl, .refl _⟩
  have first := activated (AgentRuntime.start runId userInput)
  have second := retrieved (runtime.activateSkill userInput (AgentRuntime.start runId userInput)).1
  exact ⟨second.1.trans first.1, (started.trans first.2).trans second.2⟩

end Turns

/-- The call is taken up at this point of the run. -/
def Session.Takes (session : Session) (moment : Moment) (call : ToolCall) : Prop :=
  moment.journal ++ moment.traced [.toolCallReceived call] <+: session.journal

/-- The call names a tool, and one of its executions returns or rejects the arguments
before any other failure but a momentary one. -/
def AgentRuntime.Settles (runtime : AgentRuntime) (moment : Moment) (call : ToolCall) : Prop :=
  ∃ tool outcome, runtime.toolRegistry.getTool call.toolName = .ok tool ∧
    tool.conclusion call runtime.maxToolRetries.toNat 0 (moment.opened call) = some outcome ∧
    ∀ exception, outcome = .error exception → exception.cls = .validationError

/-- The last step has the reason with which the run stopped, and no other step has one. -/
def AgentState.EndsWithStop (state : AgentState) : Prop :=
  ∃ earlier last stop, state.steps = earlier ++ [last] ∧ last.stopReason = some stop ∧
    state.stopReason = some stop.reason ∧ ∀ step ∈ earlier, step.stopReason = none

/-- No step has a reason to stop, and every call so far is settled. -/
structure Smooth (runtime : AgentRuntime) (session : Session) : Prop where
  running : session.state.status = .running
  unstopped : ∀ step ∈ session.state.steps, step.stopReason = none
  settled : ∀ moment call, session.Takes moment call → runtime.Settles moment call

/-- The run has stopped, with the reason on its last step if every call was settled. -/
structure Over (runtime : AgentRuntime) (session : Session) : Prop where
  stopped : session.state.status ≠ .running
  ends : session.state.EndsWithStop ↔
    ∀ moment call, session.Takes moment call → runtime.Settles moment call

section Takes

variable {moment : Moment} {call : ToolCall}

theorem prefix_of_not_mem {α : Type} {start whole rest : List α} {item : α}
    (shorter : start ++ [item] <+: whole ++ rest) (absent : item ∉ rest) :
    start ++ [item] <+: whole := by
  induction rest using List.reverseRecOn with
  | nil => simpa using shorter
  | append_singleton rest last ih =>
      rw [← List.append_assoc] at shorter
      rcases List.prefix_concat_iff.mp shorter with equal | within
      · have same := (List.append_inj' equal rfl).2
        exact absurd (by simpa using same) (fun same : item = last => absent (by simp [same]))
      · exact ih within fun member => absent (List.mem_append_left _ member)

theorem Session.takes_beside {before after : Session}
    (beside : Beside before.journal after.journal) :
    after.Takes moment call ↔ before.Takes moment call := by
  obtain ⟨entries, grown, plain⟩ := beside
  unfold Session.Takes
  rw [grown]
  constructor
  · intro taken
    apply prefix_of_not_mem taken
    intro member
    exact absurd (plain _ member) (by simp [Entry.ofCall, Event.ofCall])
  · intro taken
    exact List.IsPrefix.trans taken (List.prefix_append _ _)

def Session.afterReceipt (session : Session) (call : ToolCall) (tries : Journal)
    (attempted : Attempted) : Journal :=
  session.moment.traced
      [.toolActionCreated call.toolName call.callId, .toolStarted call.toolName call.callId] ++
    tries ++ session.moment.traced (attempted.closing call)

theorem Session.answered_journal (session : Session) (rationale : Option PlannerRationale)
    (call : ToolCall) (tries : Journal) (attempted : Attempted) :
    (session.answered rationale call tries attempted).journal =
      (session.journal ++ session.moment.traced [.toolCallReceived call]) ++
        session.afterReceipt call tries attempted := by
  rw [Session.answered_grown]
  simp [Session.afterReceipt, Moment.traced, ToolCall.opening]

theorem received_not_afterReceipt {session : Session} {taken : ToolCall} {tries : Journal}
    (tried : ∀ entry ∈ tries, Tried session.state.runId session.state.stepCount taken entry)
    (attempted : Attempted) (runId : String) (step : Nat) (call : ToolCall) :
    Entry.traced ⟨runId, step, .toolCallReceived call⟩ ∉
      session.afterReceipt taken tries attempted := by
  intro member
  rcases List.mem_append.mp member with before | closing
  · rcases List.mem_append.mp before with opening | again
    · simp [Moment.traced] at opening
    · have impossible := tried _ again
      cases impossible
  · cases attempted with
    | raised exception =>
        cases kind : exception.cls <;>
          simp [Moment.traced, Attempted.closing, Attempted.outcomeEvent, Attempted.observed,
            kind] at closing
    | _ =>
        simp [Moment.traced, Attempted.closing, Attempted.outcomeEvent, Attempted.observed]
          at closing

theorem Session.takes_answered {session : Session} {rationale : Option PlannerRationale}
    {taken : ToolCall} {tries : Journal} {attempted : Attempted}
    (tried : ∀ entry ∈ tries, Tried session.state.runId session.state.stepCount taken entry) :
    (session.answered rationale taken tries attempted).Takes moment call ↔
      session.Takes moment call ∨ (moment = session.moment ∧ call = taken) := by
  have absent := received_not_afterReceipt tried attempted moment.runId moment.step call
  unfold Session.Takes
  rw [Session.answered_journal]
  constructor
  · intro taken
    rcases List.prefix_concat_iff.mp (prefix_of_not_mem taken absent) with last | earlier
    · obtain ⟨journal, entry⟩ := List.append_inj' last rfl
      simp only [List.cons.injEq, Entry.traced.injEq, TraceEvent.mk.injEq,
        Event.toolCallReceived.injEq, and_true] at entry
      obtain ⟨runId, step, same⟩ := entry
      exact .inr ⟨by rw [Moment.mk.injEq]; exact ⟨runId, step, journal⟩, same⟩
    · exact .inl earlier
  · rintro (earlier | ⟨rfl, rfl⟩)
    · exact (List.IsPrefix.trans earlier (List.prefix_append _ _)).trans (List.prefix_append _ _)
    · exact List.prefix_append _ _

end Takes

theorem ToolRegistry.getTool_error {registry : ToolRegistry} {name : String} {exception : Raised}
    (unknown : registry.getTool name = .error exception) : exception.cls = .keyError := by
  unfold ToolRegistry.getTool at unknown
  split at unknown
  · cases unknown
  · cases unknown
    rfl

section Steps

variable {runtime : AgentRuntime} {session : Session}

theorem AgentRuntime.ComesTo.fatal_iff {moment : Moment} {call : ToolCall} {attempted : Attempted}
    (comes : runtime.ComesTo moment call attempted) :
    attempted.fatal = false ↔ runtime.Settles moment call := by
  unfold AgentRuntime.Settles
  cases found : runtime.toolRegistry.getTool call.toolName with
  | error unknown =>
      rw [comesTo_of_unknown found] at comes
      have kind := ToolRegistry.getTool_error found
      simp [comes, Attempted.fatal, kind]
  | ok tool =>
      rw [comesTo_of_found found] at comes
      simp only [Except.ok.injEq, exists_and_left, exists_eq_left', ← comes]
      cases attempted with
      | succeeded output => simp [Attempted.fatal, Attempted.conclusion]
      | exhausted attempt lastExceptionMsg => simp [Attempted.fatal, Attempted.conclusion]
      | raised exception => simp [Attempted.fatal, Attempted.conclusion]

theorem AgentState.not_endsWithStop {state : AgentState}
    (unstopped : ∀ step ∈ state.steps, step.stopReason = none) : ¬ state.EndsWithStop := by
  rintro ⟨earlier, last, stop, steps, stopped, _, _⟩
  have none := unstopped last (by simp [steps])
  rw [none] at stopped
  cases stopped

theorem Smooth.beside {after : Session} (smooth : Smooth runtime session)
    (beside : Beside session.journal after.journal)
    (status : after.state.status = session.state.status)
    (steps : after.state.steps = session.state.steps) : Smooth runtime after where
  running := status.trans smooth.running
  unstopped := by
    rw [steps]
    exact smooth.unstopped
  settled := by
    intro moment call taken
    exact smooth.settled moment call ((Session.takes_beside beside).mp taken)

theorem Smooth.halts {after : Session} (smooth : Smooth runtime session)
    (halts : Halts session after) : Over runtime after where
  stopped := halts.stopped
  ends := by
    obtain ⟨step, stop, steps, _, reason, state, _⟩ := halts.steps
    have settled : ∀ moment call, after.Takes moment call → runtime.Settles moment call := by
      intro moment call taken
      exact smooth.settled moment call ((Session.takes_beside halts.beside).mp taken)
    exact iff_of_true ⟨_, step, stop, steps, reason, state, smooth.unstopped⟩ settled

/-- A settled call goes on; any other ends the run at a step without a reason. -/
theorem Smooth.processCalls (smooth : Smooth runtime session)
    (rationale : Option PlannerRationale) (calls : List ToolCall) :
    Smooth runtime (runtime.processCalls rationale calls session) ∨
      Over runtime (runtime.processCalls rationale calls session) := by
  induction calls generalizing session with
  | nil => exact .inl smooth
  | cons call rest ih =>
      obtain ⟨tries, attempted, _, tried, comes, processed⟩ :=
        processCalls_cons runtime rationale call smooth.running rest
      rw [processed]
      have unstopped : ∀ step ∈ (session.answered rationale call tries attempted).state.steps,
          step.stopReason = none :=
        List.forall_mem_append.mpr ⟨smooth.unstopped, by simp [callStep]⟩
      cases fatal : attempted.fatal with
      | true =>
          have failed : (session.answered rationale call tries attempted).state.status =
              .failed := by
            simp [Session.answered, fatal]
          rw [if_pos rfl]
          have unsettled : ¬ runtime.Settles session.moment call := by
            rw [← comes.fatal_iff, fatal]
            decide
          have taken : (session.answered rationale call tries attempted).Takes session.moment
              call := (Session.takes_answered tried).mpr (.inr ⟨rfl, rfl⟩)
          refine .inr ⟨?_, iff_of_false (AgentState.not_endsWithStop unstopped) ?_⟩
          · rw [Session.record_state, failed]
            decide
          · intro settled
            exact unsettled (settled session.moment call
              (List.IsPrefix.trans taken (List.prefix_append _ _)))
      | false =>
          have status : (session.answered rationale call tries attempted).state.status =
              .running := by
            simp [Session.answered, fatal, smooth.running]
          have settles := comes.fatal_iff.mp fatal
          rw [if_neg Bool.false_ne_true]
          apply ih
          refine ⟨status, unstopped, ?_⟩
          intro moment other taken
          rcases (Session.takes_answered tried).mp taken with earlier | ⟨rfl, rfl⟩
          · exact smooth.settled moment other earlier
          · exact settles

theorem Smooth.progress {next : Session} (smooth : Smooth runtime session)
    (progress : Progress runtime session next) : Smooth runtime next ∨ Over runtime next := by
  cases progress with
  | halts halts => exact .inr (smooth.halts halts)
  | answers hears _ halts =>
      exact .inr ((smooth.beside hears.beside hears.status hears.steps).halts halts)
  | calls hears =>
      exact (smooth.beside hears.beside hears.status hears.steps).processCalls _ _

end Steps

/-- The rule for runs: what holds while the run goes on, turn after turn, leads to what holds
at its end. -/
theorem runSession_ends {runtime : AgentRuntime} {runId userInput : String}
    {goesOn ends : Session → Prop}
    (running : ∀ session, goesOn session → session.state.status = .running)
    (stopped : ∀ session, ends session → session.state.status ≠ .running)
    (progress : ∀ session next, goesOn session → Progress runtime session next →
      goesOn next ∨ ends next)
    (base : goesOn (runtime.prepare runId userInput).1) :
    ends (runtime.runSession runId userInput) := by
  have exits := runSession_exits runtime runId userInput
  let holds := fun session => goesOn session ∨ ends session
  have kept : ∀ session, AgentRuntime.Running session = true → holds session →
      holds (runtime.turn (runtime.prepare runId userInput).2 session) := by
    intro session active held
    rcases held with going | ended
    · exact progress session _ going (turn_progress runtime _ session)
    · exact absurd (by simpa [AgentRuntime.Running] using active) (stopped session ended)
  rcases exits.invariant kept (.inl base) with going | ended
  · have halted := exits.stopped
    simp [AgentRuntime.Running, running _ going] at halted
  · exact ended

/-- A run ends with a step that carries its stop reason, and no other step carries
one, exactly when every tool call that it takes up is settled. -/
theorem run_ends_with_stop_iff (runtime : AgentRuntime) (runId userInput : String) :
    (runtime.run runId userInput).EndsWithStop ↔
      ∀ moment call, (runtime.runSession runId userInput).Takes moment call →
        runtime.Settles moment call := by
  obtain ⟨state, beside⟩ := prepare_beside runtime runId userInput
  have start : Smooth runtime ⟨(runtime.prepare runId userInput).1.state, []⟩ := by
    rw [state]
    refine ⟨rfl, by simp [AgentRuntime.start, Session.record], ?_⟩
    intro moment call taken
    exact absurd (List.prefix_nil.mp taken) (by simp [Moment.traced])
  have finished : Over runtime (runtime.runSession runId userInput) :=
    runSession_ends (fun _ smooth => smooth.running) (fun _ finished => finished.stopped)
      (fun _ _ smooth => smooth.progress) (start.beside beside rfl rfl)
  exact finished.ends

/-- A runtime without memory and retrieval whose provider gives these answers, and a
final one after them. -/
def scripted (toolRegistry : ToolRegistry) (script : List AgentMessage) : AgentRuntime where
  provider journal _ :=
    match (script.drop (journal.filterMap Entry.reply?).length).head? with
    | some message => .ok message
    | none => .ok { role := "assistant", content := some "Done." }
  toolRegistry := toolRegistry
  selectAndActivate _ := none
  retrievalPipeline := none
  memoryStore := none
  assemble items := (⟨items, 0, 1500, []⟩, ⟨0, 0, 0, 0, 0, 0, 1500, "0.0", false⟩)
  strToolCalls _ := "[]"
  strToolResult _ := "None"

def callMessage (call : ToolCall) : AgentMessage :=
  { role := "assistant", toolCalls := some [call] }

/-- The call of an unknown tool ends the run with the step of the call. -/
theorem unknown_tool_run_without_stop :
    ¬ ∀ (runtime : AgentRuntime) (runId userInput : String),
      (runtime.run runId userInput).EndsWithStop := by
  intro always
  let runtime := scripted ⟨.empty⟩ [callMessage ⟨"c1", "ghost_tool", []⟩]
  have unstopped : (runtime.run "r1" "hello").steps.all (fun step => step.stopReason.isNone) =
      true := by decide +kernel
  exact AgentState.not_endsWithStop (fun step member => by
    simpa using List.all_eq_true.mp unstopped step member) (always runtime "r1" "hello")

end DurableAgent.Runtime
