import DurableAgent.Memory.Models
import DurableAgent.Runtime.ModelMessages
import DurableAgent.Runtime.Transcript

/-!
# Condensed runs

`memory/condenser.py`. The condenser reads the first message and the steps of a finished run.
What it keeps of them is what the messages of the run tell of its tool calls.
-/

set_option autoImplicit false

namespace DurableAgent.Memory

open Library Python DurableAgent.Runtime

/-- A status as `AgentState` spells it. -/
def statusText : RunStatus → String
  | .running => "running"
  | .completed => "completed"
  | .maxStepsExceeded => "max_steps_exceeded"
  | .failed => "failed"

namespace MemoryCondenser

def outcomeMap : OrderedDict String String :=
  (((OrderedDict.empty.insert "completed" "completed").insert
    "failed" "failed").insert
    "cancelled" "cancelled").insert
    "max_steps_exceeded" "max_steps_exceeded"

/-- The content of the first message of a user. -/
def userMsg (state : AgentState) : Option String :=
  match state.messages.find? fun message => decide (message.role = "user") with
  | some message => message.content
  | none => some "Unknown task"

def taskSummary (userMsg : Option String) : String :=
  match userMsg with
  | some text => if text = "" then "No user message recorded." else text
  | none => "No user message recorded."

def decision (toolName callId : String) (rationale : Option PlannerRationale) : String :=
  let called := "called " ++ toolName ++ " (call_id=" ++ callId ++ ")"
  match rationale with
  | some rationale => called ++ ": " ++ rationale.summary
  | none => called

def errorMsg (toolName : String) (error : AgentError) : String :=
  toolName ++ ": " ++ error.message

def keyDecision? (step : AgentStep) : Option String :=
  step.action.map fun action => decision action.toolName action.callId step.rationale

def errorMessage? (step : AgentStep) : Option String :=
  match step.observation with
  | some observation =>
      if observation.ok then none else observation.error.map (errorMsg observation.toolName)
  | none => none

/-- The episode is given its identifier, a `uuid4`, and dates from the clock that its default
of `recorded_at` reads. -/
def condense (state : AgentState) (episodeId recordedAt : String) : EpisodeRecord where
  episodeId := episodeId
  runId := state.runId
  taskSummary := taskSummary (userMsg state)
  outcome := (outcomeMap.get? (statusText state.status)).getD (statusText state.status)
  keyDecisions := state.steps.filterMap keyDecision?
  errorMessages := state.steps.filterMap errorMessage?
  stepCount := state.stepCount
  recordedAt := recordedAt

theorem outcomeMap_get? (status : RunStatus) :
    (outcomeMap.get? (statusText status)).getD (statusText status) = statusText status := by
  cases status <;> decide

end MemoryCondenser

open MemoryCondenser

/-! ## What the messages tell -/

/-- The decisions of a round: its calls that have a result, with the rationale of the answer. -/
def roundDecisions (round : Round) : List String :=
  round.results.map fun result => decision result.toolName result.callId round.reply.rationale

def failure? (result : ToolResult) : Option String :=
  if result.ok then none else result.error.map (errorMsg result.toolName)

/-- Messages and steps tell of the same rounds. -/
structure Recounted (prompt : AgentMessage) (rounds : List Round) (session : Session) : Prop where
  messages : session.state.messages = prompt :: rounds.flatMap Round.messages
  replies : session.replies = rounds.map Round.reply
  decisions : session.state.steps.filterMap keyDecision? = rounds.flatMap roundDecisions
  errors : session.state.steps.filterMap errorMessage? = (resultsOf rounds).filterMap failure?
  excused : ∀ result ∈ resultsOf rounds, result.ok = result.error.isNone

namespace Recounted

variable {prompt : AgentMessage} {rounds : List Round} {session : Session}

theorem beside {after : Session} (recounted : Recounted prompt rounds session)
    (state : after.state = session.state) (replies : after.replies = session.replies) :
    Recounted prompt rounds after := by
  obtain ⟨messages, spoken, decisions, errors, excused⟩ := recounted
  rw [← state] at messages decisions errors
  exact ⟨messages, replies.trans spoken, decisions, errors, excused⟩

/-- A step without an action tells of no call. -/
theorem stops {after : Session} {step : AgentStep} (recounted : Recounted prompt rounds session)
    (messages : after.state.messages = session.state.messages)
    (replies : after.replies = session.replies)
    (steps : after.state.steps = session.state.steps ++ [step])
    (idle : step.action = none) (unobserved : step.observation = none) :
    Recounted prompt rounds after where
  messages := messages.trans recounted.messages
  replies := replies.trans recounted.replies
  decisions := by
    rw [steps, List.filterMap_append, recounted.decisions]
    simp [keyDecision?, idle]
  errors := by
    rw [steps, List.filterMap_append, recounted.errors]
    simp [errorMessage?, unobserved]
  excused := recounted.excused

theorem hears {message : AgentMessage} {heard : Session}
    (recounted : Recounted prompt rounds session) (hears : Hears message session heard) :
    Recounted prompt (rounds ++ [⟨message, []⟩]) heard where
  messages := by
    rw [hears.messages, recounted.messages]
    simp [Round.messages]
  replies := by
    rw [hears.replies, recounted.replies]
    simp
  decisions := by
    rw [hears.steps, recounted.decisions]
    simp [roundDecisions]
  errors := by
    rw [hears.steps, recounted.errors]
    simp [resultsOf]
  excused := by
    have excused := recounted.excused
    simp only [resultsOf, List.flatMap_append] at excused ⊢
    simpa using excused

theorem answered {reply : AgentMessage} {results : List ToolResult} {call : ToolCall}
    {tries : Journal} {attempted : Attempted}
    (recounted : Recounted prompt (rounds ++ [⟨reply, results⟩]) session)
    (replies : (session.answered reply.rationale call tries attempted).replies =
      session.replies) :
    Recounted prompt (rounds ++ [⟨reply, results ++ [attempted.result call]⟩])
      (session.answered reply.rationale call tries attempted) where
  messages := by
    have messages := recounted.messages
    simp only [Session.answered]
    rw [messages]
    simp [Round.messages]
  replies := by
    rw [replies, recounted.replies]
    simp
  decisions := by
    have decisions := recounted.decisions
    have told : keyDecision? (callStep session.moment reply.rationale call
        (attempted.result call)) =
          some (decision (attempted.result call).toolName (attempted.result call).callId
            reply.rationale) := by
      cases attempted <;> rfl
    simp only [Session.answered, List.filterMap_append]
    rw [decisions]
    simp [told, roundDecisions]
  errors := by
    have errors := recounted.errors
    have told : errorMessage? (callStep session.moment reply.rationale call
        (attempted.result call)) = failure? (attempted.result call) := rfl
    simp only [Session.answered, List.filterMap_append]
    rw [errors, List.filterMap_cons, told]
    simp [resultsOf, List.filterMap_cons]
  excused := by
    have excused := recounted.excused
    have last : (attempted.result call).ok = (attempted.result call).error.isNone := by
      cases attempted <;> rfl
    simp only [resultsOf, List.flatMap_append, List.flatMap_cons, List.flatMap_nil,
      List.append_nil, List.forall_mem_append] at excused ⊢
    exact ⟨excused.1, excused.2, by simpa using last⟩

theorem processCalls {reply : AgentMessage} {results : List ToolResult}
    (recounted : Recounted prompt (rounds ++ [⟨reply, results⟩]) session)
    (runtime : AgentRuntime) (calls : List ToolCall) :
    ∃ others, Recounted prompt (rounds ++ [⟨reply, results ++ others⟩])
      (runtime.processCalls reply.rationale calls session) := by
  induction calls generalizing session results with
  | nil => exact ⟨[], by simpa [AgentRuntime.processCalls] using recounted⟩
  | cons call rest ih =>
      have kept := answerCall_kept runtime reply.rationale call session
      obtain ⟨tries, attempted, answered, -⟩ :=
        answerCall_answered runtime reply.rationale call session
      rw [AgentRuntime.processCalls, answered]
      rw [answered] at kept
      have added := recounted.answered kept.replies
      split
      · exact ⟨_, added.beside rfl (Session.replies_record _ _)⟩
      · obtain ⟨others, processed⟩ := ih added
        rw [List.append_assoc] at processed
        exact ⟨_, processed⟩

theorem turn (recounted : Recounted prompt rounds session) (runtime : AgentRuntime)
    (preContextItems : List Context.ContextItem) :
    ∃ rounds, Recounted prompt rounds (runtime.turn preContextItems session) := by
  obtain ⟨-, same, -⟩ := assembleContext_requests runtime preContextItems session
  have assembled := assembleContext_kept runtime preContextItems session
  have taken := turn_taken runtime preContextItems session
  generalize runtime.turn preContextItems session = next at taken ⊢
  cases taken with
  | exceeds exceeded =>
      exact ⟨rounds, recounted.stops rfl (exceedMaxSteps_kept runtime session).replies rfl rfl rfl⟩
  | provider messages exception =>
      have asked : Recounted prompt rounds ((runtime.assembleContext preContextItems
          session).1.note (.generated messages (.error exception))) :=
        recounted.beside same
          ((Kept.generated _ messages exception).replies.trans assembled.replies)
      exact ⟨rounds, asked.stops rfl (failProvider_kept _ exception).replies rfl rfl rfl⟩
  | answers messages message within =>
      have hears : Hears message session _ :=
        (receive_hears _ messages message).after_assembling runtime preContextItems
      exact ⟨_, (recounted.hears hears).stops rfl (answerDirectly_kept _ message).replies rfl
        rfl rfl⟩
  | calls messages message calls within =>
      have hears : Hears message session _ :=
        (receive_hears _ messages message).after_assembling runtime preContextItems
      obtain ⟨others, processed⟩ := (recounted.hears hears).processCalls runtime calls
      exact ⟨_, processed⟩

end Recounted

def promptOf (userInput : String) : AgentMessage :=
  { role := "user", content := some userInput }

theorem runSession_recounted (runtime : AgentRuntime) (runId userInput : String) :
    ∃ rounds, Recounted (promptOf userInput) rounds (runtime.runSession runId userInput) := by
  have base : Recounted (promptOf userInput) [] (runtime.prepare runId userInput).1 := by
    have state := (prepare_beside runtime runId userInput).1
    have counted := (prepare_start runtime runId userInput).2.stepCount
    rw [state] at counted
    have replies : (runtime.prepare runId userInput).1.replies = [] :=
      List.length_eq_zero_iff.mp counted.symm
    refine ⟨?_, replies, ?_, ?_, nofun⟩
    · rw [state]
      rfl
    · rw [state]
      rfl
    · rw [state]
      rfl
  let holds := fun session => ∃ rounds, Recounted (promptOf userInput) rounds session
  have kept : ∀ session, AgentRuntime.Running session = true → holds session →
      holds (runtime.turn (runtime.prepare runId userInput).2 session) := by
    intro session _ held
    obtain ⟨rounds, recounted⟩ := held
    exact recounted.turn runtime _
  exact (runSession_exits runtime runId userInput).invariant kept ⟨[], base⟩

/-! ## The run keeps its identifier -/

theorem receive_runId (session : Session) (message : AgentMessage) :
    (session.receive message).state.runId = session.state.runId := by
  unfold Session.receive
  cases message.rationale with
  | none => rfl
  | some rationale => rfl

theorem processCalls_runId (runtime : AgentRuntime) (rationale : Option PlannerRationale)
    (calls : List ToolCall) (session : Session) :
    (runtime.processCalls rationale calls session).state.runId = session.state.runId := by
  induction calls generalizing session with
  | nil => rfl
  | cons call rest ih =>
      obtain ⟨tries, attempted, answered, -⟩ := answerCall_answered runtime rationale call session
      rw [AgentRuntime.processCalls, answered]
      split
      · rfl
      · exact ih _

theorem turn_runId (runtime : AgentRuntime) (preContextItems : List Context.ContextItem)
    (session : Session) :
    (runtime.turn preContextItems session).state.runId = session.state.runId := by
  have same := congrArg AgentState.runId
    (assembleContext_beside runtime preContextItems session).2
  have taken := turn_taken runtime preContextItems session
  generalize runtime.turn preContextItems session = next at taken ⊢
  cases taken with
  | exceeds exceeded => rfl
  | provider messages exception => exact same
  | answers messages message within => exact (receive_runId _ message).trans same
  | calls messages message calls within =>
      exact (processCalls_runId runtime _ calls _).trans ((receive_runId _ message).trans same)

theorem run_runId (runtime : AgentRuntime) (runId userInput : String) :
    (runtime.run runId userInput).runId = runId := by
  have base : (runtime.prepare runId userInput).1.state.runId = runId := by
    rw [(prepare_beside runtime runId userInput).1]
    rfl
  exact (runSession_exits runtime runId userInput).invariant
    (fun session _ held => (turn_runId runtime _ session).trans held) base

/-! ## The episode of a run -/

/-- The episode that these rounds make of a run which ended so. -/
def episodeOf (rounds : List Round) (runId userInput : String) (status : RunStatus)
    (episodeId recordedAt : String) : EpisodeRecord where
  episodeId := episodeId
  runId := runId
  taskSummary := if userInput = "" then "No user message recorded." else userInput
  outcome := statusText status
  keyDecisions := rounds.flatMap roundDecisions
  errorMessages := (resultsOf rounds).filterMap failure?
  stepCount := rounds.length
  recordedAt := recordedAt

theorem length_filterMap_failure? {results : List ToolResult}
    (excused : ∀ result ∈ results, result.ok = result.error.isNone) :
    (results.filterMap failure?).length = results.countP fun result => !result.ok := by
  induction results with
  | nil => rfl
  | cons result rest ih =>
      obtain ⟨first, others⟩ := List.forall_mem_cons.mp excused
      rw [List.filterMap_cons, List.countP_cons, ← ih others]
      cases error : result.error with
      | none => simp [failure?, first, error]
      | some agentError => simp [failure?, first, error]

theorem Recounted.condense {rounds : List Round} {session : Session} {userInput : String}
    (recounted : Recounted (promptOf userInput) rounds session)
    (counted : session.state.stepCount = session.replies.length) (events : List TraceEvent)
    (episodeId recordedAt : String) :
    MemoryCondenser.condense { session.state with traceEvents := events } episodeId recordedAt =
      episodeOf rounds session.state.runId userInput session.state.status episodeId recordedAt := by
  have user : userMsg { session.state with traceEvents := events } = some userInput := by
    simp [userMsg, recounted.messages, promptOf]
  have steps : session.state.stepCount = rounds.length := by
    rw [counted, recounted.replies, List.length_map]
  rw [MemoryCondenser.condense, user, outcomeMap_get?, episodeOf]
  simp only [recounted.decisions, recounted.errors, steps, taskSummary]

/-- The episode of a run tells of its messages: one decision for every tool call that has a
result there, with the rationale it was made for, and one error for every result that is a
failure, in their order. -/
theorem run_condensed (runtime : AgentRuntime) (runId userInput episodeId recordedAt : String) :
    ∃ rounds,
      (runtime.run runId userInput).messages =
          promptOf userInput :: rounds.flatMap Round.messages ∧
        (runtime.runSession runId userInput).replies = rounds.map Round.reply ∧
        condense (runtime.run runId userInput) episodeId recordedAt =
          episodeOf rounds runId userInput (runtime.run runId userInput).status episodeId
            recordedAt ∧
        ((resultsOf rounds).filterMap failure?).length =
          (resultsOf rounds).countP (fun result => !result.ok) ∧
        (condense (runtime.run runId userInput) episodeId recordedAt).outcome ∈
          ["completed", "max_steps_exceeded", "failed"] := by
  obtain ⟨rounds, recounted⟩ := runSession_recounted runtime runId userInput
  obtain ⟨stopped, counted⟩ := runSession_stopped runtime runId userInput
  have condensed : condense (runtime.run runId userInput) episodeId recordedAt =
      episodeOf rounds runId userInput (runtime.run runId userInput).status episodeId
        recordedAt := by
    have same := recounted.condense counted.stepCount (runtime.runSession runId userInput).events
      episodeId recordedAt
    have named : (runtime.runSession runId userInput).state.runId = runId :=
      run_runId runtime runId userInput
    rw [named] at same
    exact same
  refine ⟨rounds, recounted.messages, recounted.replies, condensed,
    length_filterMap_failure? recounted.excused, ?_⟩
  have ended : (runtime.run runId userInput).status ≠ .running := by
    intro running
    have going : AgentRuntime.Running (runtime.runSession runId userInput) = true :=
      decide_eq_true running
    exact stopped.not_running going
  rw [condensed]
  cases status : (runtime.run runId userInput).status with
  | running => exact absurd status ended
  | completed => simp [episodeOf, statusText]
  | maxStepsExceeded => simp [episodeOf, statusText]
  | failed => simp [episodeOf, statusText]

end DurableAgent.Memory
