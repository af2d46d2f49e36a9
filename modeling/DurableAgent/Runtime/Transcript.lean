import DurableAgent.Runtime.Trajectory

/-!
# Answered tool calls

Messages, steps and trace tell of the same tool calls in the same order, the calls
of the provider's answers up to the first that fails for good.
-/

set_option autoImplicit false

namespace DurableAgent.Runtime

open Library Python Context

/-- An answer of the provider with the results of its tool calls. -/
structure Round where
  reply : AgentMessage
  results : List ToolResult

def Round.messages (round : Round) : List AgentMessage :=
  round.reply :: round.results.map toolMessage

def callsOf (rounds : List Round) : List ToolCall := rounds.flatMap fun round => round.reply.calls

def resultsOf (rounds : List Round) : List ToolResult := rounds.flatMap Round.results

def Event.completed? : Event → Option String
  | .stepCompleted callId _ => some callId
  | _ => none

def completedIn (events : List TraceEvent) : List String :=
  events.filterMap fun event => event.event.completed?

def AgentState.actions (state : AgentState) : List ToolAction :=
  state.steps.filterMap AgentStep.action

/-- The observations of the steps that have an action. -/
def AgentState.observations (state : AgentState) : List (Option ToolObservation) :=
  (state.steps.filter fun step => step.action.isSome).map AgentStep.observation

/-- The three records tell of these rounds. -/
structure Told (prompt : AgentMessage) (rounds : List Round) (session : Session) : Prop where
  messages : session.state.messages = prompt :: rounds.flatMap Round.messages
  replies : session.replies = rounds.map Round.reply
  actions : session.state.actions.map ToolAction.callId = (resultsOf rounds).map ToolResult.callId
  observations : session.state.observations =
    (resultsOf rounds).map fun result => some (resultToObservation result)
  completed : completedIn session.events = (resultsOf rounds).map ToolResult.callId

def ToolResult.fatal (result : ToolResult) : Bool := result.error.any fun error => !error.retryable

/-- Every call has its result, none of which is fatal. -/
structure Answered (calls : List ToolCall) (results : List ToolResult) : Prop where
  callIds : results.map ToolResult.callId = calls.map ToolCall.callId
  harmless : ∀ result ∈ results, result.fatal = false

/-- The calls have results up to the first that is fatal. -/
structure CutShort (calls : List ToolCall) (results : List ToolResult) : Prop where
  callIds : results.map ToolResult.callId <+: calls.map ToolCall.callId
  fatal : ∃ answered failed, results = answered ++ [failed] ∧ failed.fatal = true ∧
    ∀ result ∈ answered, result.fatal = false

namespace Answered

variable {calls further : List ToolCall} {results others : List ToolResult}

theorem nil : Answered [] [] := ⟨rfl, by simp⟩

theorem append (first : Answered calls results) (second : Answered further others) :
    Answered (calls ++ further) (results ++ others) where
  callIds := by
    rw [List.map_append, List.map_append, first.callIds, second.callIds]
  harmless := List.forall_mem_append.mpr ⟨first.harmless, second.harmless⟩

theorem cutShort (first : Answered calls results) (second : CutShort further others) :
    CutShort (calls ++ further) (results ++ others) where
  callIds := by
    rw [List.map_append, List.map_append, first.callIds, List.prefix_append_right_inj]
    exact second.callIds
  fatal := by
    obtain ⟨answered, failed, rfl, fatal, harmless⟩ := second.fatal
    exact ⟨results ++ answered, failed, (List.append_assoc _ _ _).symm, fatal,
      List.forall_mem_append.mpr ⟨first.harmless, harmless⟩⟩

end Answered

@[simp] theorem Attempted.result_callId (attempted : Attempted) (call : ToolCall) :
    (attempted.result call).callId = call.callId := by
  cases attempted <;> rfl

@[simp] theorem Attempted.result_fatal (attempted : Attempted) (call : ToolCall) :
    (attempted.result call).fatal = attempted.fatal := by
  cases attempted with
  | succeeded output => rfl
  | exhausted attempt lastExceptionMsg => rfl
  | raised exception =>
      cases kind : exception.cls <;>
        simp [Attempted.result, ToolResult.fatal, Attempted.fatal, toolError, kind]

theorem completedIn_append (earlier later : List TraceEvent) :
    completedIn (earlier ++ later) = completedIn earlier ++ completedIn later :=
  List.filterMap_append

theorem completedIn_beside {before after : Session}
    (beside : Beside before.journal after.journal) :
    completedIn after.events = completedIn before.events := by
  obtain ⟨entries, grown, plain⟩ := beside
  have none : completedIn (entries.filterMap Entry.event?) = [] := by
    unfold completedIn
    rw [List.filterMap_eq_nil_iff]
    intro event member
    obtain ⟨entry, within, traced⟩ := List.mem_filterMap.mp member
    have other := plain entry within
    cases entry with
    | traced entered =>
        cases traced
        cases kind : event.event <;> simp_all [Entry.ofCall, Event.ofCall, Event.completed?]
    | generated _ _ => cases traced
    | executed _ _ _ => cases traced
  rw [Session.events_append grown, completedIn_append, none, List.append_nil]

theorem Attempted.outcomeEvent_completed (attempted : Attempted) (call : ToolCall) :
    (attempted.outcomeEvent call).completed? = none := by
  cases attempted with
  | succeeded output => rfl
  | exhausted attempt lastExceptionMsg => rfl
  | raised exception =>
      cases kind : exception.cls <;> simp [Attempted.outcomeEvent, kind, Event.completed?]

theorem Attempted.closing_completed (attempted : Attempted) (call : ToolCall) :
    (attempted.closing call).filterMap Event.completed? = [call.callId] := by
  unfold Attempted.closing
  rw [List.filterMap_cons, attempted.outcomeEvent_completed, List.filterMap_append]
  cases attempted <;> rfl

theorem completedIn_answered {session : Session} {call : ToolCall} {tries : Journal}
    (tried : ∀ entry ∈ tries, Tried session.state.runId session.state.stepCount call entry)
    (rationale : Option PlannerRationale) (attempted : Attempted) :
    completedIn (session.answered rationale call tries attempted).events =
      completedIn session.events ++ [call.callId] := by
  obtain ⟨transients, kinds, grown⟩ := answered_events rationale attempted tried
  have during : transients.filterMap Event.completed? = [] := by
    rw [List.filterMap_eq_nil_iff]
    intro event member
    obtain ⟨attempt, error, rfl⟩ := kinds event member
    rfl
  have opening : call.opening.filterMap Event.completed? = [] := rfl
  rw [grown, completedIn_append]
  congr 1
  unfold completedIn
  rw [List.filterMap_map]
  calc (call.opening ++ transients ++ attempted.closing call).filterMap Event.completed?
      = [call.callId] := by
        rw [List.filterMap_append, List.filterMap_append, opening, during,
          attempted.closing_completed]
        rfl

namespace Told

variable {prompt : AgentMessage} {rounds : List Round} {session : Session}

theorem beside {after : Session} (told : Told prompt rounds session)
    (journal : Beside session.journal after.journal)
    (messages : after.state.messages = session.state.messages)
    (replies : after.replies = session.replies)
    (steps : after.state.steps = session.state.steps) : Told prompt rounds after where
  messages := messages.trans told.messages
  replies := replies.trans told.replies
  actions := by
    unfold AgentState.actions
    rw [steps]
    exact told.actions
  observations := by
    unfold AgentState.observations
    rw [steps]
    exact told.observations
  completed := (completedIn_beside journal).trans told.completed

theorem record (told : Told prompt rounds session) {event : Event} (plain : event.ofCall = false) :
    Told prompt rounds (session.record event) :=
  told.beside (.entry session.journal plain) rfl (session.replies_record event) rfl

theorem halts {after : Session} (told : Told prompt rounds session)
    (halts : Halts session after) : Told prompt rounds after where
  messages := halts.messages.trans told.messages
  replies := halts.replies.trans told.replies
  actions := by
    obtain ⟨step, stop, steps, none, _⟩ := halts.steps
    unfold AgentState.actions
    rw [steps, List.filterMap_append]
    simpa [none, AgentState.actions] using told.actions
  observations := by
    obtain ⟨step, stop, steps, none, _⟩ := halts.steps
    unfold AgentState.observations
    rw [steps, List.filter_append]
    simpa [none, AgentState.observations] using told.observations
  completed := (completedIn_beside halts.beside).trans told.completed

theorem hears {message : AgentMessage} {heard : Session} (told : Told prompt rounds session)
    (hears : Hears message session heard) : Told prompt (rounds ++ [⟨message, []⟩]) heard where
  messages := by
    rw [hears.messages, told.messages]
    simp [Round.messages]
  replies := by
    rw [hears.replies, told.replies]
    simp
  actions := by
    unfold AgentState.actions
    rw [hears.steps]
    simpa [resultsOf, AgentState.actions] using told.actions
  observations := by
    unfold AgentState.observations
    rw [hears.steps]
    simpa [resultsOf, AgentState.observations] using told.observations
  completed := by
    rw [completedIn_beside hears.beside, told.completed]
    simp [resultsOf]

theorem answered {reply : AgentMessage} {results : List ToolResult} {call : ToolCall}
    {tries : Journal} (told : Told prompt (rounds ++ [⟨reply, results⟩]) session)
    (tried : ∀ entry ∈ tries, Tried session.state.runId session.state.stepCount call entry)
    (rationale : Option PlannerRationale) (attempted : Attempted)
    (replies : (session.answered rationale call tries attempted).replies = session.replies) :
    Told prompt (rounds ++ [⟨reply, results ++ [attempted.result call]⟩])
      (session.answered rationale call tries attempted) where
  messages := by
    have messages := told.messages
    simp only [Session.answered]
    rw [messages]
    simp [Round.messages]
  replies := by
    rw [replies, told.replies]
    simp
  actions := by
    have actions := told.actions
    simp only [AgentState.actions, Session.answered, List.filterMap_append] at actions ⊢
    rw [List.map_append, actions]
    simp [resultsOf, callStep, toolCallToAction]
  observations := by
    have observations := told.observations
    simp only [AgentState.observations, Session.answered, List.filter_append] at observations ⊢
    rw [List.map_append, observations]
    simp [resultsOf, callStep]
  completed := by
    rw [completedIn_answered tried, told.completed]
    simp [resultsOf]

end Told

/-- The run has stopped, after all the calls or at the first that failed for good. -/
structure Settled (prompt : AgentMessage) (rounds : List Round) (session : Session) : Prop where
  told : Told prompt rounds session
  stopped : session.state.status ≠ .running
  cut : (session.state.stopReason ≠ some .nonRetryableError ∧
      Answered (callsOf rounds) (resultsOf rounds)) ∨
    (session.state.stopReason = some .nonRetryableError ∧
      CutShort (callsOf rounds) (resultsOf rounds))

/-- The run goes on and every call has its result. -/
structure UnderWay (prompt : AgentMessage) (rounds : List Round) (session : Session) : Prop where
  told : Told prompt rounds session
  running : session.state.status = .running
  answered : Answered (callsOf rounds) (resultsOf rounds)

section Steps

variable {runtime : AgentRuntime} {prompt : AgentMessage} {rounds : List Round}

theorem Told.processCalls {session : Session} {reply : AgentMessage} {results : List ToolResult}
    (told : Told prompt (rounds ++ [⟨reply, results⟩]) session)
    (running : session.state.status = .running) (rationale : Option PlannerRationale)
    (calls : List ToolCall) :
    ∃ others, Told prompt (rounds ++ [⟨reply, results ++ others⟩])
        (runtime.processCalls rationale calls session) ∧
      (((runtime.processCalls rationale calls session).state.status = .running ∧
          Answered calls others) ∨
        ((runtime.processCalls rationale calls session).state.status ≠ .running ∧
          (runtime.processCalls rationale calls session).state.stopReason =
            some .nonRetryableError ∧
          CutShort calls others)) := by
  induction calls generalizing session results with
  | nil => exact ⟨[], by simpa [AgentRuntime.processCalls] using told, .inl ⟨running, .nil⟩⟩
  | cons call rest ih =>
      have kept := answerCall_kept runtime rationale call session
      obtain ⟨tries, attempted, answered, tried, _, processed⟩ :=
        processCalls_cons runtime rationale call running rest
      rw [answered] at kept
      rw [processed]
      have added := told.answered tried rationale attempted kept.replies
      cases fatal : attempted.fatal with
      | true =>
          have failed : (session.answered rationale call tries attempted).state.status =
              .failed := by
            simp [Session.answered, fatal]
          rw [if_pos rfl]
          have cut : CutShort (call :: rest) [attempted.result call] :=
            ⟨by simp, [], _, rfl, by simp [fatal], by simp⟩
          exact ⟨[attempted.result call], added.record rfl, .inr ⟨by
            rw [Session.record_state, failed]
            decide, by simp [Session.answered, fatal], cut⟩⟩
      | false =>
          have status : (session.answered rationale call tries attempted).state.status =
              .running := by
            simp [Session.answered, fatal, running]
          rw [if_neg Bool.false_ne_true]
          obtain ⟨others, processed, ends⟩ := ih added status
          rw [List.append_assoc] at processed
          have first : Answered [call] [attempted.result call] :=
            ⟨by simp, by simp [fatal]⟩
          rcases ends with ⟨goesOn, served⟩ | ⟨stopped, reason, cut⟩
          · exact ⟨_, processed, .inl ⟨goesOn, first.append served⟩⟩
          · exact ⟨_, processed, .inr ⟨stopped, reason, first.cutShort cut⟩⟩

theorem UnderWay.halts {session after : Session} (underWay : UnderWay prompt rounds session)
    (halts : Halts session after) : Settled prompt rounds after where
  told := underWay.told.halts halts
  stopped := halts.stopped
  cut := by
    obtain ⟨step, stop, _, _, _, reason, other⟩ := halts.steps
    exact .inl ⟨by simpa [reason] using other, underWay.answered⟩

theorem UnderWay.progress {session next : Session} (underWay : UnderWay prompt rounds session)
    (progress : Progress runtime session next) :
    ∃ rounds, UnderWay prompt rounds next ∨ Settled prompt rounds next := by
  cases progress with
  | halts halts => exact ⟨rounds, .inr (underWay.halts halts)⟩
  | @answers message heard _ hears none halts =>
      have quiet : Answered (callsOf (rounds ++ [⟨message, []⟩]))
          (resultsOf (rounds ++ [⟨message, []⟩])) := by
        simpa [callsOf, resultsOf, none] using underWay.answered
      have told : UnderWay prompt (rounds ++ [⟨message, []⟩]) heard :=
        ⟨underWay.told.hears hears, hears.status.trans underWay.running, quiet⟩
      exact ⟨_, .inr (told.halts halts)⟩
  | @calls message heard hears =>
      obtain ⟨results, told, ends⟩ := (underWay.told.hears hears).processCalls
        (hears.status.trans underWay.running) message.rationale message.calls
      have calls : callsOf (rounds ++ [⟨message, [] ++ results⟩]) =
          callsOf rounds ++ message.calls := by
        simp [callsOf]
      have all : resultsOf (rounds ++ [⟨message, [] ++ results⟩]) =
          resultsOf rounds ++ results := by
        simp [resultsOf]
      rcases ends with ⟨goesOn, served⟩ | ⟨stopped, reason, cut⟩
      · exact ⟨_, .inl ⟨told, goesOn, by
          rw [calls, all]
          exact underWay.answered.append served⟩⟩
      · exact ⟨_, .inr ⟨told, stopped, .inr ⟨reason, by
          rw [calls, all]
          exact underWay.answered.cutShort cut⟩⟩⟩

end Steps

/-- The results in the messages whose role is that of a tool. -/
def AgentState.toolResults (state : AgentState) : List ToolResult :=
  state.messages.filterMap fun message =>
    if message.role = "tool" then message.toolResult else none

/-- The tool calls in the messages whose role is that of the assistant. -/
def AgentState.toolCalls (state : AgentState) : List ToolCall :=
  (state.messages.filter AgentMessage.isAssistant).flatMap AgentMessage.calls

section Roles

variable {rounds : List Round}

theorem Round.toolResults (round : Round) (assistant : round.reply.role = "assistant") :
    (round.messages.filterMap fun message =>
      if message.role = "tool" then message.toolResult else none) = round.results := by
  simp [Round.messages, assistant, toolMessage, List.filterMap_map, Function.comp_def]

theorem Round.assistants (round : Round) (assistant : round.reply.role = "assistant") :
    round.messages.filter AgentMessage.isAssistant = [round.reply] := by
  simp [Round.messages, AgentMessage.isAssistant, assistant, toolMessage]

/-- Where every answer of the provider is an assistant message, roles tell all. -/
theorem Told.roles {prompt : AgentMessage} {session : Session}
    (told : Told prompt rounds session) (user : prompt.role = "user")
    (assistants : ∀ reply ∈ session.replies, reply.role = "assistant") :
    session.state.toolResults = resultsOf rounds ∧ session.state.toolCalls = callsOf rounds := by
  have answers : ∀ round ∈ rounds, round.reply.role = "assistant" := by
    intro round member
    apply assistants
    rw [told.replies]
    exact List.mem_map_of_mem member
  have each : rounds.flatMap (fun round => round.messages.filterMap fun message =>
      if message.role = "tool" then message.toolResult else none) = resultsOf rounds := by
    apply List.flatMap_congr
    intro round member
    exact round.toolResults (answers round member)
  have others : rounds.flatMap (fun round => round.messages.filter AgentMessage.isAssistant) =
      rounds.flatMap fun round => [round.reply] := by
    apply List.flatMap_congr
    intro round member
    exact round.assistants (answers round member)
  unfold AgentState.toolResults AgentState.toolCalls callsOf
  rw [told.messages]
  constructor
  · rw [List.filterMap_cons, if_neg (by simp [user]), List.filterMap_flatMap]
    exact each
  · rw [List.filter_cons_of_neg (by simp [AgentMessage.isAssistant, user]), List.filter_flatMap,
      others, List.flatMap_assoc]
    simp

end Roles

/-- The messages of a run are the prompt and, one round after the other, the
provider's answers with the results of their tool calls. Steps and trace tell of the
same results; all calls have one, unless the run has failed: then the results end
with the call that failed for good. -/
theorem run_answers_calls (runtime : AgentRuntime) (runId userInput : String) :
    ∃ rounds,
      (runtime.run runId userInput).messages =
          { role := "user", content := some userInput } :: rounds.flatMap Round.messages ∧
        (runtime.runSession runId userInput).replies = rounds.map Round.reply ∧
        (runtime.run runId userInput).actions.map ToolAction.callId =
          (resultsOf rounds).map ToolResult.callId ∧
        completedIn (runtime.run runId userInput).traceEvents =
          (resultsOf rounds).map ToolResult.callId ∧
        (runtime.run runId userInput).observations =
          (resultsOf rounds).map (fun result => some (resultToObservation result)) ∧
        (((runtime.run runId userInput).stopReason ≠ some .nonRetryableError ∧
            Answered (callsOf rounds) (resultsOf rounds)) ∨
          ((runtime.run runId userInput).stopReason = some .nonRetryableError ∧
            CutShort (callsOf rounds) (resultsOf rounds))) ∧
        ((∀ reply ∈ (runtime.runSession runId userInput).replies, reply.role = "assistant") →
          (runtime.run runId userInput).toolResults = resultsOf rounds ∧
            (runtime.run runId userInput).toolCalls = callsOf rounds) := by
  obtain ⟨state, beside⟩ := prepare_beside runtime runId userInput
  let prompt : AgentMessage := { role := "user", content := some userInput }
  have base : ∃ rounds, UnderWay prompt rounds (runtime.prepare runId userInput).1 := by
    have empty : Told prompt [] ⟨(runtime.prepare runId userInput).1.state, []⟩ := by
      rw [state]
      exact ⟨rfl, rfl, rfl, rfl, rfl⟩
    have counted := (prepare_start runtime runId userInput).2.stepCount
    rw [state] at counted
    have replies : (runtime.prepare runId userInput).1.replies = [] :=
      List.length_eq_zero_iff.mp counted.symm
    have running : (runtime.prepare runId userInput).1.state.status = .running := by
      rw [state]
      rfl
    exact ⟨[], empty.beside beside rfl replies rfl, running, .nil⟩
  have running : ∀ session, (∃ rounds, UnderWay prompt rounds session) →
      session.state.status = .running := fun _ ⟨_, underWay⟩ => underWay.running
  have stopped : ∀ session, (∃ rounds, Settled prompt rounds session) →
      session.state.status ≠ .running := fun _ ⟨_, settled⟩ => settled.stopped
  obtain ⟨rounds, settled⟩ : ∃ rounds, Settled prompt rounds
      (runtime.runSession runId userInput) := by
    refine runSession_ends running stopped ?_ base
    rintro session next ⟨rounds, underWay⟩ progress
    obtain ⟨others, further | settled⟩ := underWay.progress progress
    · exact .inl ⟨others, further⟩
    · exact .inr ⟨others, settled⟩
  exact ⟨rounds, settled.told.messages, settled.told.replies, settled.told.actions,
    settled.told.completed, settled.told.observations, settled.cut, settled.told.roles rfl⟩

end DurableAgent.Runtime
