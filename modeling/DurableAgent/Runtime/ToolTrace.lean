import DurableAgent.Runtime.Trajectory

/-!
# The trace of a tool call

A trace is complete if it consists of events beside the tool calls and, for every
step with an action, of all the events that a tool call should leave. It is so in
the runs whose tool calls let no exception out of `_execute_tool`.
-/

set_option autoImplicit false

namespace DurableAgent.Runtime

open Library Python Context

/-- The event names the outcome of the call, with this `ok`. -/
inductive Event.Outcome (call : ToolCall) : Bool → Event → Prop where
  | succeeded : Outcome call true (.toolSucceeded call.toolName call.callId)
  | failed (detail : FailureDetail) :
      Outcome call false (.toolFailed call.toolName call.callId detail)
  | validationFailed (errorType : ErrorType) :
      Outcome call false (.toolValidationFailed errorType call.callId)

/-- The events of the tool call to which the step belongs, none missing. -/
def Complete (step : AgentStep) (events : List Event) : Prop :=
  ∃ call rationale observation transients outcome,
    step.action = some (toolCallToAction call rationale) ∧
    step.observation = some observation ∧
    (∀ event ∈ transients, ∃ attempt error,
      event = .toolTransientError call.toolName attempt error) ∧
    Event.Outcome call observation.ok outcome ∧
    events = [.toolCallReceived call, .toolActionCreated call.toolName call.callId,
        .toolStarted call.toolName call.callId] ++ transients ++
      [outcome, .observationRecorded call.callId observation.ok,
        .stepCompleted call.callId observation.ok]

/-- The trace tells of these steps, one after the other. -/
inductive Traced : List AgentStep → List Event → Prop where
  | nil : Traced [] []
  | beside {event steps events} :
      event.ofCall = false → Traced steps events → Traced steps (event :: events)
  | call {step steps own events} :
      Complete step own → Traced steps events → Traced (step :: steps) (own ++ events)

/-- The call names a tool, whose executions end with a value or fail for a moment
each time. -/
def AgentRuntime.Returns (runtime : AgentRuntime) (moment : Moment) (call : ToolCall) : Prop :=
  ∃ tool, runtime.toolRegistry.getTool call.toolName = .ok tool ∧
    ∀ exception, tool.conclusion call runtime.maxToolRetries.toNat 0 (moment.opened call) ≠
      some (.error exception)

def Event.observes : Event → Bool
  | .observationRecorded _ _ => true
  | _ => false

def Event.completes : Event → Bool
  | .stepCompleted _ _ => true
  | _ => false

namespace Traced

variable {steps others : List AgentStep} {events further : List Event}

theorem append (first : Traced steps events) (second : Traced others further) :
    Traced (steps ++ others) (events ++ further) := by
  induction first with
  | nil => exact second
  | beside plain _ ih => exact .beside plain ih
  | call complete _ ih =>
      rw [List.append_assoc]
      exact .call complete ih

theorem of_beside {events : List Event} (plain : ∀ event ∈ events, event.ofCall = false) :
    Traced [] events := by
  induction events with
  | nil => exact .nil
  | cons event events ih =>
      exact .beside (plain event List.mem_cons_self)
        (ih fun other member => plain other (List.mem_cons_of_mem _ member))

theorem of_complete {step : AgentStep} (complete : Complete step events) :
    Traced [step] events := by
  have alone := Traced.call complete .nil
  rwa [List.append_nil] at alone

end Traced

theorem transients_count {call : ToolCall} {transients : List Event}
    (kinds : ∀ event ∈ transients, ∃ attempt error,
      event = .toolTransientError call.toolName attempt error) :
    transients.countP Event.observes = 0 ∧ transients.countP Event.completes = 0 := by
  constructor
  · rw [List.countP_eq_zero]
    intro event member
    obtain ⟨attempt, error, rfl⟩ := kinds event member
    nofun
  · rw [List.countP_eq_zero]
    intro event member
    obtain ⟨attempt, error, rfl⟩ := kinds event member
    nofun

theorem Complete.counts {step : AgentStep} {events : List Event} (complete : Complete step events) :
    events.countP Event.observes = 1 ∧ events.countP Event.completes = 1 := by
  obtain ⟨call, rationale, observation, transients, outcome, _, _, kinds, named, rfl⟩ := complete
  obtain ⟨observed, completed⟩ := transients_count kinds
  rw [List.countP_append, List.countP_append, List.countP_append, List.countP_append, observed,
    completed]
  generalize observation.ok = ok at named
  cases named <;> exact ⟨rfl, rfl⟩

theorem Traced.balanced {steps : List AgentStep} {events : List Event}
    (traced : Traced steps events) :
    events.countP Event.observes = events.countP Event.completes := by
  induction traced with
  | nil => rfl
  | @beside event _ _ plain _ ih =>
      have neither : event.observes = false ∧ event.completes = false := by
        cases event <;> simp_all [Event.ofCall, Event.observes, Event.completes]
      rw [List.countP_cons_of_neg (by simp [neither.1]),
        List.countP_cons_of_neg (by simp [neither.2]), ih]
  | call complete _ ih =>
      rw [List.countP_append, List.countP_append, ih, complete.counts.1, complete.counts.2]

theorem Attempted.names_outcome (attempted : Attempted) (call : ToolCall) :
    Event.Outcome call attempted.ok (attempted.outcomeEvent call) := by
  cases attempted with
  | succeeded output => exact .succeeded
  | exhausted attempt lastExceptionMsg => exact .failed _
  | raised exception =>
      unfold Attempted.outcomeEvent
      dsimp only
      split
      · exact .validationFailed _
      · exact .validationFailed _
      · exact .failed _

def callEvents (call : ToolCall) (transients : List Event) (attempted : Attempted) : List Event :=
  call.opening ++ transients ++ attempted.closing call

section CallEvents

variable {call : ToolCall} {transients : List Event}
  (kinds : ∀ event ∈ transients, ∃ attempt error,
    event = .toolTransientError call.toolName attempt error)

include kinds

theorem callEvents_complete {attempted : Attempted}
    (returned : ∀ exception, attempted ≠ .raised exception) (moment : Moment)
    (rationale : Option PlannerRationale) :
    Complete (callStep moment rationale call (attempted.result call))
      (callEvents call transients attempted) := by
  have named := attempted.names_outcome call
  have observed : attempted.observed call = [.observationRecorded call.callId attempted.ok] := by
    cases attempted with
    | raised exception => exact absurd rfl (returned exception)
    | _ => rfl
  rw [← attempted.result_ok call] at named
  exact ⟨call, rationale, resultToObservation (attempted.result call), transients,
    attempted.outcomeEvent call, rfl, rfl, kinds, named, by
      simp [callEvents, ToolCall.opening, Attempted.closing, observed, resultToObservation]⟩

theorem callEvents_unobserved (exception : Raised) :
    (callEvents call transients (.raised exception)).countP Event.observes = 0 ∧
      (callEvents call transients (.raised exception)).countP Event.completes = 1 := by
  obtain ⟨observed, completed⟩ := transients_count kinds
  have named := (Attempted.raised exception).names_outcome call
  have closing : (Attempted.raised exception).closing call =
      [(Attempted.raised exception).outcomeEvent call, .stepCompleted call.callId false] := rfl
  unfold callEvents
  rw [List.countP_append, List.countP_append, List.countP_append, List.countP_append, observed,
    completed, closing]
  generalize (Attempted.raised exception).outcomeEvent call = outcome at named
  cases named <;> exact ⟨rfl, rfl⟩

end CallEvents

theorem AgentRuntime.ComesTo.raised_iff {runtime : AgentRuntime} {moment : Moment}
    {call : ToolCall} {attempted : Attempted} (comes : runtime.ComesTo moment call attempted) :
    (∀ exception, attempted ≠ .raised exception) ↔ runtime.Returns moment call := by
  unfold AgentRuntime.Returns
  cases found : runtime.toolRegistry.getTool call.toolName with
  | error unknown =>
      rw [comesTo_of_unknown found] at comes
      simp [comes]
  | ok tool =>
      rw [comesTo_of_found found] at comes
      simp only [Except.ok.injEq, exists_eq_left', ← comes]
      cases attempted <;> simp [Attempted.conclusion]

def Session.callSteps (session : Session) : List AgentStep :=
  session.state.steps.filter fun step => step.action.isSome

def Session.plainEvents (session : Session) : List Event := session.events.map TraceEvent.event

/-- The trace is complete so far and every call has returned. -/
structure Faithful (runtime : AgentRuntime) (session : Session) : Prop where
  traced : Traced session.callSteps session.plainEvents
  returned : ∀ moment call, session.Takes moment call → runtime.Returns moment call

/-- Some call has raised, and an observation is missing. -/
structure Lacking (runtime : AgentRuntime) (session : Session) : Prop where
  missing : session.plainEvents.countP Event.observes < session.plainEvents.countP Event.completes
  raised : ∃ moment call, session.Takes moment call ∧ ¬ runtime.Returns moment call

section Steps

variable {runtime : AgentRuntime} {session : Session}

theorem Session.plainEvents_beside {after : Session}
    (beside : Beside session.journal after.journal) :
    ∃ others, after.plainEvents = session.plainEvents ++ others ∧
      ∀ event ∈ others, event.ofCall = false := by
  obtain ⟨entries, grown, plain⟩ := beside
  refine ⟨(entries.filterMap Entry.event?).map TraceEvent.event, ?_, ?_⟩
  · unfold Session.plainEvents
    rw [Session.events_append grown, List.map_append]
  · intro event member
    obtain ⟨traced, within, rfl⟩ := List.mem_map.mp member
    obtain ⟨entry, included, same⟩ := List.mem_filterMap.mp within
    have other := plain entry included
    cases entry with
    | traced entered =>
        cases same
        exact other
    | generated _ _ => cases same
    | executed _ _ _ => cases same

theorem Faithful.beside {after : Session} (faithful : Faithful runtime session)
    (beside : Beside session.journal after.journal)
    (steps : after.callSteps = session.callSteps) : Faithful runtime after where
  traced := by
    obtain ⟨others, grown, plain⟩ := Session.plainEvents_beside beside
    have longer := faithful.traced.append (Traced.of_beside plain)
    rw [List.append_nil] at longer
    rw [steps, grown]
    exact longer
  returned := by
    intro moment call taken
    exact faithful.returned moment call ((Session.takes_beside beside).mp taken)

theorem Lacking.beside {after : Session} (lacking : Lacking runtime session)
    (beside : Beside session.journal after.journal) : Lacking runtime after where
  missing := by
    obtain ⟨others, grown, plain⟩ := Session.plainEvents_beside beside
    have balanced := (Traced.of_beside plain).balanced
    have missing := lacking.missing
    rw [grown, List.countP_append, List.countP_append]
    omega
  raised := by
    obtain ⟨moment, call, taken, raised⟩ := lacking.raised
    exact ⟨moment, call, (Session.takes_beside beside).mpr taken, raised⟩

theorem answered_callSteps (session : Session) (rationale : Option PlannerRationale)
    (call : ToolCall) (tries : Journal) (attempted : Attempted) :
    (session.answered rationale call tries attempted).callSteps = session.callSteps ++
      [callStep session.moment rationale call (attempted.result call)] := by
  simp [Session.callSteps, Session.answered, List.filter_append, callStep]

theorem answered_plainEvents (rationale : Option PlannerRationale) {call : ToolCall}
    {tries : Journal} (attempted : Attempted)
    (tried : ∀ entry ∈ tries, Tried session.state.runId session.state.stepCount call entry) :
    ∃ transients : List Event,
      (∀ event ∈ transients, ∃ attempt error,
        event = .toolTransientError call.toolName attempt error) ∧
      (session.answered rationale call tries attempted).plainEvents =
        session.plainEvents ++ callEvents call transients attempted := by
  obtain ⟨transients, kinds, grown⟩ := answered_events rationale attempted tried
  exact ⟨transients, kinds, by
    unfold Session.plainEvents
    rw [grown, List.map_append, List.map_map]
    congr 1
    exact List.map_id _⟩

theorem Faithful.answered {rationale : Option PlannerRationale} {call : ToolCall}
    {tries : Journal} {attempted : Attempted} (faithful : Faithful runtime session)
    (tried : ∀ entry ∈ tries, Tried session.state.runId session.state.stepCount call entry)
    (comes : runtime.ComesTo session.moment call attempted) :
    Faithful runtime (session.answered rationale call tries attempted) ∨
      Lacking runtime (session.answered rationale call tries attempted) := by
  obtain ⟨transients, kinds, grown⟩ := answered_plainEvents rationale attempted tried
  by_cases returns : runtime.Returns session.moment call
  · have complete := callEvents_complete kinds (comes.raised_iff.mpr returns) session.moment
      rationale
    have traced := faithful.traced.append (Traced.of_complete complete)
    rw [← grown, ← answered_callSteps] at traced
    refine .inl ⟨traced, ?_⟩
    intro moment other taken
    rcases (Session.takes_answered tried).mp taken with earlier | ⟨rfl, rfl⟩
    · exact faithful.returned moment other earlier
    · exact returns
  · have taken : (session.answered rationale call tries attempted).Takes session.moment call :=
      (Session.takes_answered tried).mpr (.inr ⟨rfl, rfl⟩)
    have escaped : ∃ exception, attempted = .raised exception := by
      have raised := mt comes.raised_iff.mp returns
      simpa using raised
    obtain ⟨exception, rfl⟩ := escaped
    obtain ⟨observed, completed⟩ := callEvents_unobserved kinds exception
    have balanced := faithful.traced.balanced
    refine .inr ⟨?_, session.moment, call, taken, returns⟩
    rw [grown, List.countP_append, List.countP_append]
    omega

theorem Lacking.answered {rationale : Option PlannerRationale} {call : ToolCall}
    {tries : Journal} {attempted : Attempted} (lacking : Lacking runtime session)
    (tried : ∀ entry ∈ tries, Tried session.state.runId session.state.stepCount call entry) :
    Lacking runtime (session.answered rationale call tries attempted) where
  missing := by
    obtain ⟨transients, kinds, grown⟩ := answered_plainEvents rationale attempted tried
    have missing := lacking.missing
    have atMost : (callEvents call transients attempted).countP Event.observes ≤
        (callEvents call transients attempted).countP Event.completes := by
      by_cases returned : ∀ exception, attempted ≠ .raised exception
      · have counts := (callEvents_complete kinds returned session.moment rationale).counts
        omega
      · obtain ⟨exception, rfl⟩ : ∃ exception, attempted = .raised exception := by
          simpa using returned
        have counts := callEvents_unobserved kinds exception
        omega
    rw [grown, List.countP_append, List.countP_append]
    omega
  raised := by
    obtain ⟨moment, other, taken, raised⟩ := lacking.raised
    exact ⟨moment, other, (Session.takes_answered tried).mpr (.inl taken), raised⟩

/-- What is known of the trace after any number of tool calls. -/
def Tracked (runtime : AgentRuntime) (session : Session) : Prop :=
  Faithful runtime session ∨ Lacking runtime session

theorem Tracked.beside {after : Session} (tracked : Tracked runtime session)
    (beside : Beside session.journal after.journal)
    (steps : after.callSteps = session.callSteps) : Tracked runtime after := by
  rcases tracked with faithful | lacking
  · exact .inl (faithful.beside beside steps)
  · exact .inr (lacking.beside beside)

theorem Tracked.processCalls (tracked : Tracked runtime session)
    (rationale : Option PlannerRationale) (calls : List ToolCall) :
    Tracked runtime (runtime.processCalls rationale calls session) := by
  induction calls generalizing session with
  | nil => exact tracked
  | cons call rest ih =>
      rw [AgentRuntime.processCalls]
      obtain ⟨tries, attempted, answered, tried, comes⟩ :=
        answerCall_answered runtime rationale call session
      rw [answered]
      have after : Tracked runtime (session.answered rationale call tries attempted) := by
        rcases tracked with faithful | lacking
        · exact faithful.answered tried comes
        · exact .inr (lacking.answered tried)
      split
      · have recorded : Beside (session.answered rationale call tries attempted).journal
            ((session.answered rationale call tries attempted).record
              (.stopReasonRecorded (session.answered rationale call tries
                attempted).state.stopReason)).journal := .entry _ rfl
        exact after.beside recorded rfl
      · exact ih after

theorem Tracked.halts {after : Session} (tracked : Tracked runtime session)
    (halts : Halts session after) : Tracked runtime after := by
  apply tracked.beside halts.beside
  obtain ⟨step, stop, steps, none, _⟩ := halts.steps
  unfold Session.callSteps
  rw [steps, List.filter_append]
  simp [none]

theorem Tracked.hears {message : AgentMessage} {heard : Session}
    (tracked : Tracked runtime session) (hears : Hears message session heard) :
    Tracked runtime heard := by
  apply tracked.beside hears.beside
  unfold Session.callSteps
  rw [hears.steps]

theorem Tracked.progress {next : Session} (tracked : Tracked runtime session)
    (progress : Progress runtime session next) : Tracked runtime next := by
  cases progress with
  | halts halts => exact tracked.halts halts
  | answers hears _ halts => exact (tracked.hears hears).halts halts
  | calls hears => exact (tracked.hears hears).processCalls _ _

end Steps

/-- The trace of a run tells completely of its tool calls, one for each step with an
action and nothing else of tools, exactly when no exception leaves `_execute_tool`
in a call that the run takes up. -/
theorem run_trace_complete_iff (runtime : AgentRuntime) (runId userInput : String) :
    Traced ((runtime.run runId userInput).steps.filter fun step => step.action.isSome)
        ((runtime.run runId userInput).traceEvents.map TraceEvent.event) ↔
      ∀ moment call, (runtime.runSession runId userInput).Takes moment call →
        runtime.Returns moment call := by
  have exits := runSession_exits runtime runId userInput
  obtain ⟨state, beside⟩ := prepare_beside runtime runId userInput
  have base : Tracked runtime (runtime.prepare runId userInput).1 := by
    have empty : Faithful runtime ⟨(runtime.prepare runId userInput).1.state, []⟩ := by
      rw [state]
      refine ⟨.nil, ?_⟩
      intro moment call taken
      exact absurd (List.prefix_nil.mp taken) (by simp [Moment.traced])
    exact .inl (empty.beside beside rfl)
  have tracked := exits.invariant
    (fun session _ tracked => Tracked.progress tracked (turn_progress runtime _ session)) base
  rcases tracked with faithful | lacking
  · exact iff_of_true faithful.traced faithful.returned
  · obtain ⟨moment, call, taken, raised⟩ := lacking.raised
    have unbalanced : ¬ Traced (runtime.runSession runId userInput).callSteps
        (runtime.runSession runId userInput).plainEvents := by
      intro traced
      have balanced := traced.balanced
      have missing := lacking.missing
      omega
    exact iff_of_false unbalanced fun returned => raised (returned moment call taken)

/-- The trace of the call of an unknown tool lacks the observation. -/
theorem unknown_tool_trace_incomplete :
    ¬ ∀ (runtime : AgentRuntime) (runId userInput : String),
      Traced ((runtime.run runId userInput).steps.filter fun step => step.action.isSome)
        ((runtime.run runId userInput).traceEvents.map TraceEvent.event) := by
  intro always
  let runtime := scripted ⟨.empty⟩ [callMessage ⟨"c1", "ghost_tool", []⟩]
  have balanced := (always runtime "r1" "hello").balanced
  exact absurd balanced (by decide +kernel)

end DurableAgent.Runtime
