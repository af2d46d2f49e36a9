import DurableAgent.Runtime.Calls

/-!
# Bounded runs with one stop

Every turn of the main loop either counts one more assistant message or stops
the run, and a run is stopped once, by one of four reasons. After a fatal tool
failure nothing but the recorder is called.
-/

set_option autoImplicit false

namespace DurableAgent.Runtime

open Library Python Context

/-- The reason that the event names, if it is `stop_reason_recorded`. -/
def Event.stop? : Event → Option (Option StopKind)
  | .stopReasonRecorded reason => some reason
  | _ => none

/-- The event reports a tool failure that ends the run. -/
def Event.fatal : Event → Bool
  | .toolFailed _ _ _ => true
  | .toolValidationFailed .unknownTool _ => true
  | _ => false

def Entry.stop? : Entry → Option (Option StopKind)
  | .traced event => event.event.stop?
  | _ => none

def Entry.fatal : Entry → Bool
  | .traced event => event.event.fatal
  | _ => false

/-- The provider is asked or a tool is executed. -/
def Entry.external : Entry → Bool
  | .traced _ => false
  | _ => true

def Entry.reply? : Entry → Option AgentMessage
  | .generated _ (.ok message) => some message
  | _ => none

namespace Session

/-- The answers of the provider, its successful calls. -/
def replies (session : Session) : List AgentMessage := session.journal.filterMap Entry.reply?

def stops (session : Session) : List (Option StopKind) := session.journal.filterMap Entry.stop?

/-- After a fatal tool failure no tool is executed and the provider is not asked. -/
def FatalLast (session : Session) : Prop :=
  session.journal.Pairwise fun earlier later => earlier.fatal = true → later.external = false

end Session

def AgentMessage.isAssistant (message : AgentMessage) : Bool := decide (message.role = "assistant")

def AgentState.assistants (state : AgentState) : Nat :=
  state.messages.countP AgentMessage.isAssistant

/-- What the processing of tool calls leaves alone. -/
structure Kept (before after : Session) : Prop where
  stepCount : after.state.stepCount = before.state.stepCount
  messages : before.state.messages <+: after.state.messages
  assistants : after.state.assistants = before.state.assistants
  replies : after.replies = before.replies

/-- The run goes on and nothing fatal has happened. -/
structure Calm (session : Session) : Prop where
  running : session.state.status = .running
  unstopped : session.state.stopReason = none
  unrecorded : session.stops = []
  harmless : ∀ entry ∈ session.journal, entry.fatal = false

/-- The end of the run is decided, but not recorded yet. -/
structure Concluding (status : RunStatus) (reason : StopKind) (session : Session) : Prop where
  status : session.state.status = status
  reason : session.state.stopReason = some reason
  unrecorded : session.stops = []
  fatalLast : session.FatalLast

/-- A tool failure has ended the run. -/
def Failing (session : Session) : Prop := Concluding .failed .nonRetryableError session

/-- The ways in which a run ends. -/
def StopsWith (status : RunStatus) (reason : Option StopKind) : Prop :=
  (status = .completed ∧ reason = some .finalAnswer) ∨
    (status = .maxStepsExceeded ∧ reason = some .maxStepsExceeded) ∨
    (status = .failed ∧ reason = some .providerFailed) ∨
    (status = .failed ∧ reason = some .nonRetryableError)

structure Stopped (session : Session) : Prop where
  reason : StopsWith session.state.status session.state.stopReason
  recorded : session.stops = [session.state.stopReason]
  fatalLast : session.FatalLast

namespace Session

variable {session : Session}

@[simp] theorem record_state (session : Session) (event : Event) :
    (session.record event).state = session.state := rfl

@[simp] theorem replies_record (session : Session) (event : Event) :
    (session.record event).replies = session.replies := by
  simp [replies, record, Entry.reply?]

@[simp] theorem stops_record (session : Session) (event : Event) :
    (session.record event).stops = session.stops ++ event.stop?.toList := by
  simp only [stops, record, List.filterMap_append]
  cases stop : event.stop? with
  | none => simp [Entry.stop?, stop]
  | some reason => simp [Entry.stop?, stop]

/-- What is fatal stands in a last part that is not external. -/
theorem FatalLast.of_append {front back : Journal} (grown : session.journal = front ++ back)
    (harmless : ∀ entry ∈ front, entry.fatal = false)
    (internal : ∀ entry ∈ back, entry.external = false) : session.FatalLast := by
  unfold FatalLast
  rw [grown, List.pairwise_append]
  refine ⟨?_, ?_, ?_⟩
  · apply List.pairwise_of_forall_mem_list
    intro earlier member _ _ fatal
    rw [harmless earlier member] at fatal
    cases fatal
  · apply List.pairwise_of_forall_mem_list
    intro _ _ later member _
    exact internal later member
  · intro _ _ later member _
    exact internal later member

theorem FatalLast.record (last : session.FatalLast) (event : Event) :
    (session.record event).FatalLast := by
  unfold FatalLast Session.record
  rw [List.pairwise_append]
  refine ⟨last, List.pairwise_singleton _ _, ?_⟩
  intro earlier _ later member _
  rw [List.mem_singleton.mp member]
  rfl

end Session

namespace Kept

variable {before middle after : Session}

theorem of_messages (stepCount : after.state.stepCount = before.state.stepCount)
    (messages : after.state.messages = before.state.messages)
    (replies : after.replies = before.replies) : Kept before after where
  stepCount := stepCount
  messages := by
    rw [messages]
  assistants := by
    rw [AgentState.assistants, messages]
    rfl
  replies := replies

theorem refl (session : Session) : Kept session session := .of_messages rfl rfl rfl

theorem trans (first : Kept before middle) (second : Kept middle after) : Kept before after where
  stepCount := second.stepCount.trans first.stepCount
  messages := List.IsPrefix.trans first.messages second.messages
  assistants := second.assistants.trans first.assistants
  replies := second.replies.trans first.replies

theorem record (session : Session) (event : Event) : Kept session (session.record event) :=
  .of_messages rfl rfl (session.replies_record event)

theorem conclude (session : Session) (status : RunStatus) (reason : StopKind) :
    Kept session (session.conclude status reason) := .of_messages rfl rfl rfl

theorem generated (session : Session) (messages : List AgentMessage) (exception : Raised) :
    Kept session (session.note (.generated messages (.error exception))) :=
  .of_messages rfl rfl (by simp [Session.replies, Session.note, Entry.reply?])

theorem appendStep (session : Session) (step : AgentStep) :
    Kept session (session.appendStep step) := .of_messages rfl rfl rfl

end Kept

namespace Calm

variable {session : Session}

theorem record (calm : Calm session) {event : Event} (plain : event.stop? = none)
    (harmless : event.fatal = false) : Calm (session.record event) where
  running := calm.running
  unstopped := calm.unstopped
  unrecorded := by
    simp [calm.unrecorded, plain]
  harmless := by
    intro entry member
    rcases List.mem_append.mp member with earlier | last
    · exact calm.harmless entry earlier
    · rw [List.mem_singleton.mp last]
      exact harmless

theorem note (calm : Calm session) {entry : Entry} (plain : entry.stop? = none)
    (harmless : entry.fatal = false) : Calm (session.note entry) where
  running := calm.running
  unstopped := calm.unstopped
  unrecorded := by
    have unrecorded := calm.unrecorded
    unfold Session.stops at unrecorded
    simp [Session.stops, Session.note, unrecorded, plain]
  harmless := by
    intro other member
    rcases List.mem_append.mp member with earlier | last
    · exact calm.harmless other earlier
    · rw [List.mem_singleton.mp last]
      exact harmless

theorem fatalLast (calm : Calm session) : session.FatalLast :=
  .of_append (List.append_nil _).symm calm.harmless (by simp)

theorem conclude (calm : Calm session) (status : RunStatus) (reason : StopKind) :
    Concluding status reason (session.conclude status reason) :=
  ⟨rfl, rfl, calm.unrecorded, calm.fatalLast⟩

theorem appendMessage (calm : Calm session) (message : AgentMessage) :
    Calm (session.appendMessage message) :=
  ⟨calm.running, calm.unstopped, calm.unrecorded, calm.harmless⟩

end Calm

namespace Concluding

variable {status : RunStatus} {reason : StopKind} {session : Session}

theorem record (concluding : Concluding status reason session) {event : Event}
    (plain : event.stop? = none) : Concluding status reason (session.record event) where
  status := concluding.status
  reason := concluding.reason
  unrecorded := by
    simp [concluding.unrecorded, plain]
  fatalLast := concluding.fatalLast.record event

theorem appendStep (concluding : Concluding status reason session) (step : AgentStep) :
    Concluding status reason (session.appendStep step) :=
  ⟨concluding.status, concluding.reason, concluding.unrecorded, concluding.fatalLast⟩

theorem stop (concluding : Concluding status reason session)
    (pair : StopsWith status (some reason)) :
    Stopped (session.record (.stopReasonRecorded (some reason))) where
  reason := by
    rw [Session.record_state, concluding.status, concluding.reason]
    exact pair
  recorded := by
    simp [concluding.unrecorded, concluding.reason, Event.stop?]
  fatalLast := concluding.fatalLast.record _

end Concluding

theorem Stopped.record {session : Session} (stopped : Stopped session) {event : Event}
    (plain : event.stop? = none) : Stopped (session.record event) where
  reason := stopped.reason
  recorded := by
    simp [stopped.recorded, plain]
  fatalLast := stopped.fatalLast.record event

theorem Stopped.not_running {session : Session} (stopped : Stopped session) :
    ¬ AgentRuntime.Running session = true := by
  intro running
  have status : session.state.status = .running := by
    simpa [AgentRuntime.Running] using running
  have reason := stopped.reason
  simp [StopsWith, status] at reason

section ToolCalls

variable {session : Session} {call : ToolCall} {tries : Journal} {attempted : Attempted}

/-- Before its outcome a tool call neither fails for good nor stops the run. -/
theorem harmless_before_outcome
    (tried : ∀ entry ∈ tries, Tried session.state.runId session.state.stepCount call entry) :
    ∀ entry ∈ session.moment.traced call.opening ++ tries,
      entry.fatal = false ∧ entry.stop? = none := by
  refine List.forall_mem_append.mpr ⟨?_, ?_⟩
  · simp [Moment.traced, ToolCall.opening, Entry.fatal, Entry.stop?, Event.fatal, Event.stop?]
  · intro entry member
    cases tried entry member with
    | executed outcome => exact ⟨rfl, rfl⟩
    | transient attempt error => exact ⟨rfl, rfl⟩

theorem closing_plain (call : ToolCall) (attempted : Attempted) :
    ∀ event ∈ attempted.closing call,
      event.stop? = none ∧ (attempted.fatal = false → event.fatal = false) := by
  cases attempted with
  | raised exception =>
      cases kind : exception.cls
      all_goals
        simp [Attempted.closing, Attempted.outcomeEvent, Attempted.observed, Attempted.fatal,
          Event.stop?, Event.fatal, kind]
  | _ =>
      simp [Attempted.closing, Attempted.outcomeEvent, Attempted.observed, Attempted.fatal,
        Event.stop?, Event.fatal]

section Answered

variable (rationale : Option PlannerRationale)
  (tried : ∀ entry ∈ tries, Tried session.state.runId session.state.stepCount call entry)

include tried

theorem answered_kept : Kept session (session.answered rationale call tries attempted) where
  stepCount := rfl
  messages := List.prefix_append _ _
  assistants := by
    simp [AgentState.assistants, Session.answered, toolMessage, AgentMessage.isAssistant]
  replies := answered_filterMap (fun _ => rfl) (fun _ _ _ => rfl) rationale attempted tried

theorem answered_stops :
    (session.answered rationale call tries attempted).stops = session.stops := by
  have silent : ∀ entry ∈ session.moment.traced call.opening ++ tries ++
      session.moment.traced (attempted.closing call), entry.stop? = none := by
    refine List.forall_mem_append.mpr ⟨?_, ?_⟩
    · intro entry member
      exact (harmless_before_outcome tried entry member).2
    · intro entry member
      obtain ⟨event, closing, rfl⟩ := List.mem_map.mp member
      exact (closing_plain call attempted event closing).1
  unfold Session.stops
  rw [Session.answered_grown, List.filterMap_append, List.filterMap_eq_nil_iff.mpr silent,
    List.append_nil]

theorem Calm.answered (calm : Calm session) (survives : attempted.fatal = false) :
    Calm (session.answered rationale call tries attempted) where
  running := by
    simp [Session.answered, survives, calm.running]
  unstopped := by
    simp [Session.answered, survives, calm.unstopped]
  unrecorded := (answered_stops rationale tried).trans calm.unrecorded
  harmless := by
    rw [Session.answered_grown]
    refine List.forall_mem_append.mpr ⟨calm.harmless, List.forall_mem_append.mpr ⟨?_, ?_⟩⟩
    · intro entry member
      exact (harmless_before_outcome tried entry member).1
    · intro entry member
      obtain ⟨event, closing, rfl⟩ := List.mem_map.mp member
      exact (closing_plain call attempted event closing).2 survives

/-- The fatal entries are among the last of the call, none of which is external. -/
theorem Calm.answered_failing (calm : Calm session) (fatal : attempted.fatal = true) :
    Failing (session.answered rationale call tries attempted) where
  status := by
    simp [Session.answered, fatal]
  reason := by
    simp [Session.answered, fatal]
  unrecorded := (answered_stops rationale tried).trans calm.unrecorded
  fatalLast := by
    have grown := session.answered_grown rationale call tries attempted
    rw [← List.append_assoc] at grown
    apply Session.FatalLast.of_append grown
    · refine List.forall_mem_append.mpr ⟨calm.harmless, ?_⟩
      intro entry member
      exact (harmless_before_outcome tried entry member).1
    · simp [Moment.traced, Entry.external]

end Answered

variable (runtime : AgentRuntime)

theorem answerCall_kept (rationale : Option PlannerRationale) (call : ToolCall)
    (session : Session) : Kept session (runtime.answerCall rationale call session) := by
  obtain ⟨tries, attempted, answered, tried, _⟩ :=
    answerCall_answered runtime rationale call session
  rw [answered]
  exact answered_kept rationale tried

theorem answerCall_calm (rationale : Option PlannerRationale) (call : ToolCall)
    (calm : Calm session) :
    Calm (runtime.answerCall rationale call session) ∨
      Failing (runtime.answerCall rationale call session) := by
  obtain ⟨tries, attempted, answered, tried, _⟩ :=
    answerCall_answered runtime rationale call session
  rw [answered]
  cases fatal : attempted.fatal with
  | false => exact .inl (calm.answered rationale tried fatal)
  | true => exact .inr (calm.answered_failing rationale tried fatal)

theorem processCalls_kept (rationale : Option PlannerRationale) (calls : List ToolCall)
    (session : Session) : Kept session (runtime.processCalls rationale calls session) := by
  induction calls generalizing session with
  | nil => exact .refl session
  | cons call rest ih =>
      have answered := answerCall_kept runtime rationale call session
      rw [AgentRuntime.processCalls]
      split
      · exact answered.trans (.record _ _)
      · exact answered.trans (ih _)

/-- A fatal failure ends the calls of the message and is recorded. -/
theorem processCalls_calm (rationale : Option PlannerRationale) (calls : List ToolCall)
    (calm : Calm session) :
    Calm (runtime.processCalls rationale calls session) ∨
      Stopped (runtime.processCalls rationale calls session) := by
  induction calls generalizing session with
  | nil => exact .inl calm
  | cons call rest ih =>
      rw [AgentRuntime.processCalls]
      rcases answerCall_calm runtime rationale call calm with answered | failing
      · rw [if_neg (by simp [answered.running])]
        exact ih answered
      · rw [if_pos (.inl failing.status), failing.reason]
        exact .inr (Concluding.stop failing (.inr (.inr (.inr ⟨rfl, rfl⟩))))

end ToolCalls

/-- The assistant messages that have been counted, within the limit. -/
structure Counted (runtime : AgentRuntime) (session : Session) : Prop where
  stepCount : session.state.stepCount = session.replies.length
  bounded : session.state.stepCount ≤ runtime.maxSteps.toNat
  messages : session.replies.Sublist session.state.messages
  assistants : session.state.assistants = session.replies.countP AgentMessage.isAssistant

theorem Counted.of_kept {runtime : AgentRuntime} {before after : Session}
    (counted : Counted runtime before) (kept : Kept before after) : Counted runtime after where
  stepCount := by
    rw [kept.stepCount, kept.replies]
    exact counted.stepCount
  bounded := by
    rw [kept.stepCount]
    exact counted.bounded
  messages := by
    rw [kept.replies]
    exact counted.messages.trans kept.messages.sublist
  assistants := by
    rw [kept.assistants, kept.replies]
    exact counted.assistants

section Turns

variable {session : Session} (runtime : AgentRuntime)

theorem assembleContext_kept (preContextItems : List ContextItem) (session : Session) :
    Kept session (runtime.assembleContext preContextItems session).1 := by
  unfold AgentRuntime.assembleContext
  dsimp only
  split
  · exact (Kept.record _ _).trans (.record _ _)
  · exact .record _ _

theorem assembleContext_calm (preContextItems : List ContextItem) (calm : Calm session) :
    Calm (runtime.assembleContext preContextItems session).1 := by
  unfold AgentRuntime.assembleContext
  dsimp only
  split
  · exact (calm.record rfl rfl).record rfl rfl
  · exact calm.record rfl rfl

theorem failProvider_kept (session : Session) (exception : Raised) :
    Kept session (session.failProvider exception) :=
  (((Kept.conclude session .failed .providerFailed).trans (.record _ _)).trans
    (.appendStep _ _)).trans (.record _ _)

theorem exceedMaxSteps_kept (session : Session) :
    Kept session (runtime.exceedMaxSteps session) :=
  (((Kept.conclude session .maxStepsExceeded .maxStepsExceeded).trans (.record _ _)).trans
    (.appendStep _ _)).trans (.record _ _)

theorem answerDirectly_kept (session : Session) (message : AgentMessage) :
    Kept session (session.answerDirectly message) := by
  have answered : Kept session { session.conclude .completed .finalAnswer with
      state := { (session.conclude .completed .finalAnswer).state with
        finalAnswer := message.content } } := .of_messages rfl rfl rfl
  exact ((answered.trans (.appendStep _ _)).trans (.record _ _)).trans (.record _ _)

theorem receive_counts (session : Session) (message : AgentMessage) :
    (session.receive message).state.stepCount = session.state.stepCount + 1 ∧
      (session.receive message).state.messages = session.state.messages ++ [message] ∧
      (session.receive message).replies = session.replies := by
  unfold Session.receive
  cases message.rationale with
  | none => exact ⟨rfl, rfl, Session.replies_record _ _⟩
  | some rationale =>
      exact ⟨rfl, rfl, (Session.replies_record _ _).trans (Session.replies_record _ _)⟩

theorem Counted.receive {runtime : AgentRuntime} (counted : Counted runtime session)
    (within : ¬ runtime.maxSteps ≤ session.state.stepCount) (messages : List AgentMessage)
    (message : AgentMessage) :
    Counted runtime ((session.note (.generated messages (.ok message))).receive message) := by
  obtain ⟨stepCount, transcript, replies⟩ :=
    receive_counts (session.note (.generated messages (.ok message))) message
  have grown : (session.note (.generated messages (.ok message))).replies =
      session.replies ++ [message] := by
    simp [Session.replies, Session.note, Entry.reply?]
  rw [grown] at replies
  have unchanged : (session.note (.generated messages (.ok message))).state = session.state := rfl
  rw [unchanged] at stepCount transcript
  refine ⟨?_, ?_, ?_, ?_⟩
  · rw [stepCount, replies, List.length_append, counted.stepCount]
    rfl
  · rw [stepCount]
    omega
  · rw [transcript, replies]
    exact counted.messages.append (List.Sublist.refl _)
  · have assistants := counted.assistants
    unfold AgentState.assistants at assistants ⊢
    rw [transcript, replies, List.countP_append, List.countP_append, assistants]

theorem Counted.turn {runtime : AgentRuntime} (counted : Counted runtime session)
    {preContextItems : List ContextItem} {next : Session}
    (taken : Turn runtime preContextItems session next) : Counted runtime next := by
  have assembled := assembleContext_kept runtime preContextItems session
  have requested := counted.of_kept assembled
  cases taken with
  | exceeds _ => exact counted.of_kept (exceedMaxSteps_kept runtime session)
  | provider messages exception =>
      exact requested.of_kept
        ((Kept.generated _ messages exception).trans (failProvider_kept _ exception))
  | answers messages message within =>
      rw [← assembled.stepCount] at within
      exact (requested.receive within messages message).of_kept (answerDirectly_kept _ message)
  | calls messages message calls within =>
      rw [← assembled.stepCount] at within
      exact (requested.receive within messages message).of_kept
        (processCalls_kept runtime message.rationale calls _)

theorem Calm.receive (calm : Calm session) (messages : List AgentMessage)
    (message : AgentMessage) :
    Calm ((session.note (.generated messages (.ok message))).receive message) := by
  have noted : Calm (session.note (.generated messages (.ok message))) := calm.note rfl rfl
  have appended := noted.appendMessage message
  unfold Session.receive
  have counted : Calm
      { (session.note (.generated messages (.ok message))).appendMessage message with
        state := { ((session.note (.generated messages (.ok message))).appendMessage
          message).state with stepCount := session.state.stepCount + 1 } } :=
    ⟨appended.running, appended.unstopped, appended.unrecorded, appended.harmless⟩
  cases message.rationale with
  | none => exact counted.record rfl rfl
  | some rationale => exact (counted.record rfl rfl).record rfl rfl

theorem Calm.answerDirectly (calm : Calm session) (message : AgentMessage) :
    Stopped (session.answerDirectly message) := by
  have concluded := calm.conclude .completed .finalAnswer
  have answered : Concluding .completed .finalAnswer
      { session.conclude .completed .finalAnswer with
        state := { (session.conclude .completed .finalAnswer).state with
          finalAnswer := message.content } } :=
    ⟨concluded.status, concluded.reason, concluded.unrecorded, concluded.fatalLast⟩
  exact ((answered.appendStep _).stop (.inl ⟨rfl, rfl⟩)).record rfl

/-- A turn goes on with nothing fatal behind it or stops the run. -/
theorem Calm.turn {runtime : AgentRuntime} (calm : Calm session)
    {preContextItems : List ContextItem} {next : Session}
    (taken : Turn runtime preContextItems session next) : Calm next ∨ Stopped next := by
  have requested := assembleContext_calm runtime preContextItems calm
  cases taken with
  | exceeds _ =>
      have concluded := calm.conclude .maxStepsExceeded .maxStepsExceeded
      exact .inr (((concluded.record rfl).appendStep _).stop (.inr (.inl ⟨rfl, rfl⟩)))
  | provider messages exception =>
      have noted : Calm ((runtime.assembleContext preContextItems session).1.note
        (.generated messages (.error exception))) := requested.note rfl rfl
      have concluded := noted.conclude .failed .providerFailed
      exact .inr (((concluded.record rfl).appendStep _).stop (.inr (.inr (.inl ⟨rfl, rfl⟩))))
  | answers messages message _ =>
      exact .inr ((requested.receive messages message).answerDirectly message)
  | calls messages message calls _ =>
      exact processCalls_calm runtime message.rationale calls
        (requested.receive messages message)

/-- A turn after which the run goes on has counted one more message. -/
theorem turn_counts {preContextItems : List ContextItem} {next : Session}
    (taken : Turn runtime preContextItems session next) (goesOn : AgentRuntime.Running next = true) :
    ¬ runtime.maxSteps ≤ session.state.stepCount ∧
      next.state.stepCount = session.state.stepCount + 1 := by
  have running : next.state.status = .running := by simpa [AgentRuntime.Running] using goesOn
  cases taken with
  | exceeds _ => cases running
  | provider messages exception => cases running
  | answers messages message _ => cases running
  | calls messages message calls within =>
      have kept := processCalls_kept runtime message.rationale calls
        ((((runtime.assembleContext preContextItems session).1.note
          (.generated messages (.ok message))).receive message))
      have counted := (receive_counts ((runtime.assembleContext preContextItems session).1.note
        (.generated messages (.ok message))) message).1
      have assembled := assembleContext_kept runtime preContextItems session
      refine ⟨within, ?_⟩
      rw [kept.stepCount, counted]
      exact congrArg (· + 1) assembled.stepCount

end Turns

section Runs

variable (runtime : AgentRuntime)

theorem prepare_start (runId userInput : String) :
    Calm (runtime.prepare runId userInput).1 ∧
      Counted runtime (runtime.prepare runId userInput).1 := by
  have start : Calm (AgentRuntime.start runId userInput) :=
    ⟨rfl, rfl, rfl, by simp [AgentRuntime.start, Session.record, Entry.fatal, Event.fatal]⟩
  have none : Counted runtime (AgentRuntime.start runId userInput) :=
    ⟨rfl, Nat.zero_le _, List.nil_sublist _, rfl⟩
  have activated : Calm (runtime.activateSkill userInput (AgentRuntime.start runId userInput)).1 ∧
      Kept (AgentRuntime.start runId userInput)
        (runtime.activateSkill userInput (AgentRuntime.start runId userInput)).1 := by
    unfold AgentRuntime.activateSkill
    split
    · exact ⟨start.record rfl rfl, .record _ _⟩
    · exact ⟨start, .refl _⟩
  have retrieved : ∀ session, Calm session →
      Calm (runtime.retrieveEvidence userInput session).1 ∧
        Kept session (runtime.retrieveEvidence userInput session).1 := by
    intro session calm
    unfold AgentRuntime.retrieveEvidence
    split
    · dsimp only
      split
      · exact ⟨calm.record rfl rfl, .record _ _⟩
      · exact ⟨calm.record rfl rfl, .record _ _⟩
    · exact ⟨calm, .refl _⟩
  obtain ⟨calm, kept⟩ := retrieved _ activated.1
  exact ⟨calm, none.of_kept (activated.2.trans kept)⟩

theorem runSession_exits (runId userInput : String) :
    Exits AgentRuntime.Running (runtime.turn (runtime.prepare runId userInput).2)
      (runtime.prepare runId userInput).1 (runtime.runSession runId userInput) := by
  unfold AgentRuntime.runSession
  apply repeatWhile_exits fun session => (runtime.maxSteps - session.state.stepCount).toNat
  · intro session _ goesOn
    obtain ⟨within, counted⟩ := turn_counts runtime
      (turn_taken runtime (runtime.prepare runId userInput).2 session) goesOn
    rw [counted]
    omega
  · omega

theorem runSession_stopped (runId userInput : String) :
    Stopped (runtime.runSession runId userInput) ∧
      Counted runtime (runtime.runSession runId userInput) := by
  have exits := runSession_exits runtime runId userInput
  obtain ⟨calm, counted⟩ := prepare_start runtime runId userInput
  let holds := fun session => (Calm session ∨ Stopped session) ∧ Counted runtime session
  have kept : ∀ session, AgentRuntime.Running session = true → holds session →
      holds (runtime.turn (runtime.prepare runId userInput).2 session) := by
    intro session running held
    have taken := turn_taken runtime (runtime.prepare runId userInput).2 session
    refine ⟨?_, held.2.turn taken⟩
    rcases held.1 with calm | stopped
    · exact calm.turn taken
    · exact absurd running stopped.not_running
  have base : holds (runtime.prepare runId userInput).1 := ⟨.inl calm, counted⟩
  have reached := exits.invariant kept base
  refine ⟨?_, reached.2⟩
  rcases reached.1 with calm | stopped
  · have ended := exits.stopped
    simp [AgentRuntime.Running, calm.running] at ended
  · exact stopped

theorem Session.stops_eq (session : Session) :
    session.stops = session.events.filterMap fun event => event.event.stop? := by
  unfold stops events
  rw [List.filterMap_filterMap]
  congr 1
  funext entry
  cases entry <;> rfl

/-- The main loop ends; the provider has answered at most `max_steps` times, its
answers are the assistant messages that have been counted, the run has one of
four ends, which is recorded once, and nothing follows a fatal tool failure. -/
theorem run_bounded (runId userInput : String) :
    Exits AgentRuntime.Running (runtime.turn (runtime.prepare runId userInput).2)
        (runtime.prepare runId userInput).1 (runtime.runSession runId userInput) ∧
      (runtime.runSession runId userInput).replies.length ≤ runtime.maxSteps.toNat ∧
      (runtime.run runId userInput).stepCount =
        (runtime.runSession runId userInput).replies.length ∧
      (runtime.runSession runId userInput).replies.Sublist
        (runtime.run runId userInput).messages ∧
      (runtime.run runId userInput).assistants =
        (runtime.runSession runId userInput).replies.countP AgentMessage.isAssistant ∧
      StopsWith (runtime.run runId userInput).status (runtime.run runId userInput).stopReason ∧
      ((runtime.run runId userInput).traceEvents.filterMap fun event => event.event.stop?) =
        [(runtime.run runId userInput).stopReason] ∧
      (runtime.runSession runId userInput).FatalLast := by
  obtain ⟨stopped, counted⟩ := runSession_stopped runtime runId userInput
  refine ⟨runSession_exits runtime runId userInput, ?_, counted.stepCount, counted.messages,
    counted.assistants, stopped.reason, ?_, stopped.fatalLast⟩
  · rw [← counted.stepCount]
    exact counted.bounded
  · have recorded := stopped.recorded
    rw [Session.stops_eq] at recorded
    exact recorded

end Runs

end DurableAgent.Runtime
