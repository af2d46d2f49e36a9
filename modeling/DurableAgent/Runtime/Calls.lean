import DurableAgent.Runtime.Loop

/-!
# One tool call

Everything that the processing of a tool call adds to the messages, the steps and
the journal, told by what the executions of its tool come to.
-/

set_option autoImplicit false

namespace DurableAgent.Runtime

open Library Python Context

/-- A point of a run, as far as a tool can tell. -/
structure Moment where
  runId : String
  step : Nat
  journal : Journal

namespace Moment

def traced (moment : Moment) (events : List Event) : Journal :=
  events.map fun event => .traced ⟨moment.runId, moment.step, event⟩

def extend (moment : Moment) (entries : Journal) : Moment :=
  { moment with journal := moment.journal ++ entries }

end Moment

def Session.moment (session : Session) : Moment :=
  ⟨session.state.runId, session.state.stepCount, session.journal⟩

def Session.extend (session : Session) (entries : Journal) : Session :=
  { session with journal := session.journal ++ entries }

def Raised.transient (exception : Raised) : Bool :=
  decide (exception.cls = .connectionError ∨ exception.cls = .timeoutError)

/-- What the executions of a tool come to, each made because the one before it
failed for a moment: nothing if all of them, at most so many, do. -/
def BaseTool.conclusion (tool : BaseTool) (call : ToolCall) :
    Nat → Nat → Moment → Option (Except Raised Dict)
  | 0, _, _ => none
  | remaining + 1, attempt, moment =>
      match tool.execute moment.journal call.arguments with
      | .ok output => some (.ok output)
      | .error exception =>
          if exception.transient then
            tool.conclusion call remaining (attempt + 1)
              (moment.extend
                (.executed call.toolName call.arguments (.error exception) :: moment.traced
                  [.toolTransientError call.toolName (attempt + 1) exception.text]))
          else some (.error exception)

def ToolCall.opening (call : ToolCall) : List Event :=
  [.toolCallReceived call, .toolActionCreated call.toolName call.callId,
    .toolStarted call.toolName call.callId]

/-- The point at which the tool of the call is executed first. -/
def Moment.opened (moment : Moment) (call : ToolCall) : Moment :=
  moment.extend (moment.traced call.opening)

namespace Attempted

def conclusion : Attempted → Option (Except Raised Dict)
  | .succeeded output => some (.ok output)
  | .exhausted _ _ => none
  | .raised exception => some (.error exception)

def ok : Attempted → Bool
  | .succeeded _ => true
  | _ => false

def fatal : Attempted → Bool
  | .succeeded _ => false
  | .exhausted _ _ => true
  | .raised exception => decide (exception.cls ≠ .validationError)

def result (call : ToolCall) : Attempted → ToolResult
  | .succeeded output => ⟨call.callId, call.toolName, true, some output, none⟩
  | .exhausted attempt lastExceptionMsg =>
      ⟨call.callId, call.toolName, false, none, some (retriesExhausted attempt lastExceptionMsg)⟩
  | .raised exception => ⟨call.callId, call.toolName, false, none, some (toolError exception)⟩

def outcomeEvent (call : ToolCall) : Attempted → Event
  | .succeeded _ => .toolSucceeded call.toolName call.callId
  | .exhausted _ _ => .toolFailed call.toolName call.callId .retriesExhausted
  | .raised exception =>
      match exception.cls with
      | .keyError => .toolValidationFailed .unknownTool call.callId
      | .validationError => .toolValidationFailed .invalidArguments call.callId
      | _ => .toolFailed call.toolName call.callId (.error exception.text)

/-- An exception leaves `_execute_tool` before the observation is recorded. -/
def observed (call : ToolCall) (attempted : Attempted) : List Event :=
  match attempted with
  | .raised _ => []
  | _ => [.observationRecorded call.callId attempted.ok]

def closing (call : ToolCall) (attempted : Attempted) : List Event :=
  attempted.outcomeEvent call :: (attempted.observed call ++
    [.stepCompleted call.callId attempted.ok])

end Attempted

@[simp] theorem Attempted.result_ok (attempted : Attempted) (call : ToolCall) :
    (attempted.result call).ok = attempted.ok := by
  cases attempted <;> rfl

def callStep (moment : Moment) (rationale : Option PlannerRationale) (call : ToolCall)
    (result : ToolResult) : AgentStep where
  runId := moment.runId
  step := moment.step
  rationale := rationale
  action := some (toolCallToAction call rationale)
  observation := some (resultToObservation result)

def toolMessage (result : ToolResult) : AgentMessage :=
  { role := "tool", toolResult := some result }

def Session.answered (session : Session) (rationale : Option PlannerRationale) (call : ToolCall)
    (tries : Journal) (attempted : Attempted) : Session where
  state := { session.state with
    messages := session.state.messages ++ [toolMessage (attempted.result call)]
    steps := session.state.steps ++
      [callStep session.moment rationale call (attempted.result call)]
    status := if attempted.fatal then .failed else session.state.status
    stopReason := if attempted.fatal then some .nonRetryableError else session.state.stopReason }
  journal := (session.moment.opened call).journal ++ tries ++
    session.moment.traced (attempted.closing call)

/-- An execution of the tool, or the report of its failure. -/
inductive Tried (runId : String) (step : Nat) (call : ToolCall) : Entry → Prop where
  | executed (outcome : Except Raised Dict) :
      Tried runId step call (.executed call.toolName call.arguments outcome)
  | transient (attempt : Nat) (error : String) :
      Tried runId step call
        (.traced ⟨runId, step, .toolTransientError call.toolName attempt error⟩)

/-- The lookup of the tool fails, or its executions decide. -/
def AgentRuntime.ComesTo (runtime : AgentRuntime) (moment : Moment) (call : ToolCall)
    (attempted : Attempted) : Prop :=
  match runtime.toolRegistry.getTool call.toolName with
  | .error unknown => attempted = .raised unknown
  | .ok tool => attempted.conclusion =
      tool.conclusion call runtime.maxToolRetries.toNat 0 (moment.opened call)

section Attempts

variable (tool : BaseTool) (call : ToolCall) (rationale : Option PlannerRationale)

theorem BaseTool.attempts_tried (remaining attempt : Nat) (lastExceptionMsg : String)
    (session : Session) :
    ∃ tries attempted,
      tool.attempts (toolCallToAction call rationale) remaining attempt lastExceptionMsg session =
          (session.extend tries, attempted) ∧
        (∀ entry ∈ tries, Tried session.state.runId session.state.stepCount call entry) ∧
        attempted.conclusion = tool.conclusion call remaining attempt session.moment := by
  induction remaining generalizing attempt lastExceptionMsg session with
  | zero =>
      exact ⟨[], .exhausted attempt lastExceptionMsg, by simp [BaseTool.attempts, Session.extend],
        by simp, rfl⟩
  | succ remaining ih =>
      rw [BaseTool.attempts, BaseTool.conclusion]
      have same : tool.execute session.journal (toolCallToAction call rationale).arguments =
          tool.execute session.moment.journal call.arguments := rfl
      rw [same]
      cases outcome : tool.execute session.moment.journal call.arguments with
      | ok output =>
          exact ⟨[.executed call.toolName call.arguments (.ok output)], .succeeded output, rfl,
            by simp [Tried.executed], rfl⟩
      | error exception =>
          dsimp only
          cases transient : exception.transient with
          | false =>
              rw [if_neg (of_decide_eq_false transient)]
              exact ⟨[.executed call.toolName call.arguments (.error exception)],
                .raised exception, rfl, by simp [Tried.executed], rfl⟩
          | true =>
              rw [if_pos (of_decide_eq_true transient)]
              let failure : Journal :=
                .executed call.toolName call.arguments (.error exception) :: session.moment.traced
                  [.toolTransientError call.toolName (attempt + 1) exception.text]
              have reported : (session.note (.executed
                    (toolCallToAction call rationale).toolName
                    (toolCallToAction call rationale).arguments (.error exception))).record
                  (.toolTransientError (toolCallToAction call rationale).toolName (attempt + 1)
                    exception.text) = session.extend failure := by
                simp [failure, Session.extend, Session.note, Session.record, Session.moment,
                  Moment.traced, toolCallToAction]
              have kinds : ∀ entry ∈ failure,
                  Tried session.state.runId session.state.stepCount call entry := by
                intro entry member
                rcases List.mem_cons.mp member with rfl | report
                · exact .executed _
                · rw [List.mem_singleton.mp report]
                  exact .transient _ _
              obtain ⟨tries, attempted, tried, later, concluded⟩ :=
                ih (attempt + 1) exception.text (session.extend failure)
              rw [reported, tried]
              exact ⟨failure ++ tries, attempted, by simp [Session.extend],
                List.forall_mem_append.mpr ⟨kinds, later⟩, concluded⟩

end Attempts

section Answers

variable (runtime : AgentRuntime) (rationale : Option PlannerRationale) (call : ToolCall)

variable {runtime call} in
theorem comesTo_of_unknown {moment : Moment} {unknown : Raised} {attempted : Attempted}
    (found : runtime.toolRegistry.getTool call.toolName = .error unknown) :
    runtime.ComesTo moment call attempted ↔ attempted = .raised unknown := by
  unfold AgentRuntime.ComesTo
  rw [found]

variable {runtime call} in
theorem comesTo_of_found {moment : Moment} {tool : BaseTool} {attempted : Attempted}
    (found : runtime.toolRegistry.getTool call.toolName = .ok tool) :
    runtime.ComesTo moment call attempted ↔ attempted.conclusion =
      tool.conclusion call runtime.maxToolRetries.toNat 0 (moment.opened call) := by
  unfold AgentRuntime.ComesTo
  rw [found]

def Session.opened (session : Session) : Session :=
  session.extend (session.moment.traced call.opening)

/-- The part of a tool call after its result is settled. -/
def Session.complete (settled : Session) (result : ToolResult) : Session :=
  ((settled.appendMessage (toolMessage result)).appendStep
    (callStep settled.moment rationale call result)).record (.stepCompleted call.callId result.ok)

/-- Whatever the call came to, the reports made before decide how it is completed. -/
theorem complete_settled {session settled : Session} {tries : Journal} {attempted : Attempted}
    (journal : settled.journal = ((session.opened call).extend tries).journal ++
      session.moment.traced (attempted.outcomeEvent call :: attempted.observed call))
    (state : settled.state = { session.state with
      status := if attempted.fatal then .failed else session.state.status
      stopReason := if attempted.fatal then some .nonRetryableError
        else session.state.stopReason }) :
    settled.complete rationale call (attempted.result call) =
      session.answered rationale call tries attempted := by
  obtain ⟨settledState, entries⟩ := settled
  dsimp only at journal state
  subst journal state
  simp [Session.complete, Session.answered, Session.opened, Session.extend, Session.record,
    Session.appendMessage, Session.appendStep, Session.moment, Moment.opened, Moment.extend,
    Moment.traced, Attempted.closing, callStep]

theorem complete_raised (session : Session) (tries : Journal) (exception : Raised) :
    (((session.opened call).extend tries).handle call exception).complete rationale call
        (Attempted.result call (.raised exception)) =
      session.answered rationale call tries (.raised exception) := by
  apply complete_settled
  · cases kind : exception.cls
    all_goals
      simp [Session.handle, kind, Session.record, Session.conclude, Session.opened,
        Session.extend, Session.moment, Moment.traced, Attempted.outcomeEvent,
        Attempted.observed]
  · cases kind : exception.cls
    all_goals
      simp [Session.handle, kind, Session.record, Session.conclude, Session.opened,
        Session.extend, Attempted.fatal]

theorem complete_succeeded (session : Session) (tries : Journal) (output : Dict) :
    ((((session.opened call).extend tries).record
        (.toolSucceeded call.toolName call.callId)).record
          (.observationRecorded call.callId true)).complete rationale call
        (Attempted.result call (.succeeded output)) =
      session.answered rationale call tries (.succeeded output) := by
  apply complete_settled
  · exact List.append_assoc _ _ _
  · rfl

theorem complete_exhausted (session : Session) (tries : Journal) (attempt : Nat)
    (lastExceptionMsg : String) :
    (((((session.opened call).extend tries).record
        (.toolFailed call.toolName call.callId .retriesExhausted)).conclude .failed
          .nonRetryableError).record (.observationRecorded call.callId false)).complete rationale
        call (Attempted.result call (.exhausted attempt lastExceptionMsg)) =
      session.answered rationale call tries (.exhausted attempt lastExceptionMsg) := by
  apply complete_settled
  · exact List.append_assoc _ _ _
  · rfl

/-- Everything that one tool call does. -/
theorem answerCall_answered (session : Session) :
    ∃ tries attempted,
      runtime.answerCall rationale call session =
          session.answered rationale call tries attempted ∧
        (∀ entry ∈ tries, Tried session.state.runId session.state.stepCount call entry) ∧
        runtime.ComesTo session.moment call attempted := by
  have started : ((session.record (.toolCallReceived call)).record
      (.toolActionCreated call.toolName call.callId)).record
        (.toolStarted call.toolName call.callId) = session.opened call := by
    simp [Session.opened, Session.record, Session.extend, Moment.traced, ToolCall.opening,
      Session.moment]
  have executes := executeTool_executes runtime (toolCallToAction call rationale)
    ((session.record (.toolCallReceived call)).record
      (.toolActionCreated call.toolName call.callId))
  have answered : runtime.answerCall rationale call session =
      let executed := runtime.executeTool (toolCallToAction call rationale)
        ((session.record (.toolCallReceived call)).record
          (.toolActionCreated call.toolName call.callId))
      let settled := AgentRuntime.settleCall call executed.1 executed.2
      settled.1.complete rationale call settled.2 := rfl
  rw [answered]
  generalize runtime.executeTool _ _ = executed at executes ⊢
  obtain ⟨after, outcome⟩ := executed
  have reached : ∀ {tool : BaseTool} {after : Session} {attempted : Attempted},
      runtime.toolRegistry.getTool call.toolName = .ok tool →
      tool.attempts (toolCallToAction call rationale) runtime.maxToolRetries.toNat 0 ""
        (((session.record (.toolCallReceived call)).record
          (.toolActionCreated call.toolName call.callId)).record
            (.toolStarted call.toolName call.callId)) = (after, attempted) →
      ∃ tries, after = (session.opened call).extend tries ∧
        (∀ entry ∈ tries, Tried session.state.runId session.state.stepCount call entry) ∧
        runtime.ComesTo session.moment call attempted := by
    intro tool after attempted found attempts
    obtain ⟨tries, reached, tried, kinds, concluded⟩ := tool.attempts_tried call rationale
      runtime.maxToolRetries.toNat 0 "" (session.opened call)
    rw [started, tried] at attempts
    cases attempts
    exact ⟨tries, rfl, kinds, (comesTo_of_found found).mpr concluded⟩
  cases executes with
  | unknown exception found =>
      have unchanged : (session.opened call).extend [] = session.opened call := by
        simp [Session.extend]
      have ended := complete_raised rationale call session [] exception
      rw [unchanged, ← started] at ended
      exact ⟨[], .raised exception, ended, by simp, (comesTo_of_unknown found).mpr rfl⟩
  | raised tool after exception found attempts =>
      obtain ⟨tries, rfl, kinds, comes⟩ := reached found attempts
      exact ⟨tries, .raised exception, complete_raised rationale call session tries exception,
        kinds, comes⟩
  | succeeded tool after output found attempts =>
      obtain ⟨tries, rfl, kinds, comes⟩ := reached found attempts
      exact ⟨tries, .succeeded output, complete_succeeded rationale call session tries output,
        kinds, comes⟩
  | exhausted tool after attempt lastExceptionMsg found attempts =>
      obtain ⟨tries, rfl, kinds, comes⟩ := reached found attempts
      exact ⟨tries, .exhausted attempt lastExceptionMsg,
        complete_exhausted rationale call session tries attempt lastExceptionMsg, kinds, comes⟩

/-- The calls of a message end with a fatal one. -/
theorem processCalls_cons {session : Session} (running : session.state.status = .running)
    (rest : List ToolCall) :
    ∃ tries attempted,
      runtime.answerCall rationale call session =
          session.answered rationale call tries attempted ∧
        (∀ entry ∈ tries, Tried session.state.runId session.state.stepCount call entry) ∧
        runtime.ComesTo session.moment call attempted ∧
        runtime.processCalls rationale (call :: rest) session =
          if attempted.fatal then
            (session.answered rationale call tries attempted).record
              (.stopReasonRecorded (some .nonRetryableError))
          else runtime.processCalls rationale rest
            (session.answered rationale call tries attempted) := by
  obtain ⟨tries, attempted, answered, tried, comes⟩ :=
    answerCall_answered runtime rationale call session
  refine ⟨tries, attempted, answered, tried, comes, ?_⟩
  rw [AgentRuntime.processCalls, answered]
  cases fatal : attempted.fatal with
  | true => simp [Session.answered, fatal]
  | false => simp [Session.answered, fatal, running]

end Answers

section Events

variable {session : Session} {call : ToolCall} {tries : Journal}

theorem Session.events_append {before after : Session} {entries : Journal}
    (grown : after.journal = before.journal ++ entries) :
    after.events = before.events ++ entries.filterMap Entry.event? := by
  unfold Session.events
  rw [grown, List.filterMap_append]

theorem Moment.traced_events (moment : Moment) (events : List Event) :
    (moment.traced events).filterMap Entry.event? =
      events.map fun event => ⟨moment.runId, moment.step, event⟩ := by
  unfold Moment.traced
  rw [List.filterMap_map]
  exact congrFun List.filterMap_eq_map' events

theorem tried_events
    (tried : ∀ entry ∈ tries, Tried session.state.runId session.state.stepCount call entry) :
    ∃ transients : List Event,
      (∀ event ∈ transients, ∃ attempt error,
        event = .toolTransientError call.toolName attempt error) ∧
      tries.filterMap Entry.event? =
        transients.map fun event => ⟨session.state.runId, session.state.stepCount, event⟩ := by
  induction tries with
  | nil => exact ⟨[], by simp, rfl⟩
  | cons entry rest ih =>
      obtain ⟨transients, kinds, same⟩ := ih fun entry member =>
        tried entry (List.mem_cons_of_mem _ member)
      cases tried entry List.mem_cons_self with
      | executed outcome => exact ⟨transients, kinds, same⟩
      | transient attempt error =>
          exact ⟨.toolTransientError call.toolName attempt error :: transients,
            List.forall_mem_cons.mpr ⟨⟨attempt, error, rfl⟩, kinds⟩, by
              rw [List.filterMap_cons, same]
              rfl⟩

theorem Session.answered_grown (session : Session) (rationale : Option PlannerRationale)
    (call : ToolCall) (tries : Journal) (attempted : Attempted) :
    (session.answered rationale call tries attempted).journal = session.journal ++
      (session.moment.traced call.opening ++ tries ++
        session.moment.traced (attempted.closing call)) := by
  simp [Session.answered, Moment.opened, Moment.extend, Session.moment]

/-- A call adds nothing to a part of the journal without events and executions. -/
theorem answered_filterMap {α : Type} {select : Entry → Option α}
    (traced : ∀ event, select (.traced event) = none)
    (executed : ∀ toolName arguments outcome, select (.executed toolName arguments outcome) = none)
    (rationale : Option PlannerRationale) (attempted : Attempted)
    (tried : ∀ entry ∈ tries, Tried session.state.runId session.state.stepCount call entry) :
    (session.answered rationale call tries attempted).journal.filterMap select =
      session.journal.filterMap select := by
  have silent : ∀ entry ∈ session.moment.traced call.opening ++ tries ++
      session.moment.traced (attempted.closing call), select entry = none := by
    refine List.forall_mem_append.mpr ⟨List.forall_mem_append.mpr ⟨?_, ?_⟩, ?_⟩
    · simp [Moment.traced, traced]
    · intro entry member
      cases tried entry member with
      | executed outcome => exact executed _ _ outcome
      | transient attempt error => exact traced _
    · simp [Moment.traced, traced]
  rw [Session.answered_grown, List.filterMap_append, List.filterMap_eq_nil_iff.mpr silent,
    List.append_nil]

theorem answered_events (rationale : Option PlannerRationale) (attempted : Attempted)
    (tried : ∀ entry ∈ tries, Tried session.state.runId session.state.stepCount call entry) :
    ∃ transients : List Event,
      (∀ event ∈ transients, ∃ attempt error,
        event = .toolTransientError call.toolName attempt error) ∧
      (session.answered rationale call tries attempted).events = session.events ++
        (call.opening ++ transients ++ attempted.closing call).map fun event =>
          ⟨session.state.runId, session.state.stepCount, event⟩ := by
  obtain ⟨transients, kinds, reported⟩ := tried_events tried
  have grown := session.answered_grown rationale call tries attempted
  exact ⟨transients, kinds, by
    rw [Session.events_append grown, List.filterMap_append, List.filterMap_append,
      Moment.traced_events, Moment.traced_events, reported, List.map_append, List.map_append]
    rfl⟩

end Events

end DurableAgent.Runtime
