import DurableAgent.Runtime.Trajectory

/-!
# The two ways to execute a tool

One tool call of `runtime/async_executor.py` beside one of the main loop: which
errors the two report for what a tool does, and where they part.
-/

set_option autoImplicit false

namespace DurableAgent.Runtime

open Library Python Context

structure AsyncToolExecutor where
  toolRegistry : ToolRegistry
  maxConcurrency : Int := 2

/-- The error that the handlers of the executor make of an exception. -/
def asyncToolError (exception : Raised) : AgentError :=
  match exception.cls with
  | .keyError => ⟨.unknownTool, exception.text, false, .dict []⟩
  | .validationError => ⟨.invalidArguments, "Validation failed", false, exception.errors⟩
  | _ => ⟨.toolExecutionFailed, exception.text, false, .dict []⟩

/-- The result of a call that came to the outcome. -/
def ToolCall.result (call : ToolCall) : Except Raised Dict → ToolResult
  | .ok output => ⟨call.callId, call.toolName, true, some output, none⟩
  | .error exception =>
      ⟨call.callId, call.toolName, false, none, some (asyncToolError exception)⟩

/-- What comes of waiting for a future. -/
inductive Awaited (α : Type) where
  | completed (value : α)
  | cancelled
  | pending

def Awaited.completed? {α : Type} : Awaited α → Option α
  | .completed value => some value
  | _ => none

def Awaited.map {α β : Type} (f : α → β) : Awaited α → Awaited β
  | .completed value => .completed (f value)
  | .cancelled => .cancelled
  | .pending => .pending

/-- What the future of `run_in_executor` makes of an outcome. A `CancelledError` of the pool
is turned into the one that cancels the waiting task and that no `except Exception` catches;
a `StopIteration` cannot be set on a future, which nothing completes then. -/
def awaited : Except Raised Dict → Awaited (Except Raised Dict)
  | .ok output => .completed (.ok output)
  | .error exception =>
      match exception.cls with
      | .cancelledError => .cancelled
      | .stopIteration => .pending
      | _ => .completed (.error exception)

/-- The result of a call whose tool is executed after the events of the journal. Only the
lookup happens outside of the pool. -/
def AsyncToolExecutor.executeSingleToolWithSem (executor : AsyncToolExecutor) (journal : Journal)
    (toolCall : ToolCall) : Awaited ToolResult :=
  match executor.toolRegistry.getTool toolCall.toolName with
  | .error unknown => .completed (toolCall.result (.error unknown))
  | .ok tool => (awaited (tool.execute journal toolCall.arguments)).map toolCall.result

/-- The result of a call in the main loop. -/
def AgentRuntime.callResult (runtime : AgentRuntime) (rationale : Option PlannerRationale)
    (call : ToolCall) (session : Session) : ToolResult :=
  let action := toolCallToAction call rationale
  let created := (session.record (.toolCallReceived call)).record
    (.toolActionCreated action.toolName action.callId)
  let (executed, outcome) := runtime.executeTool action created
  (AgentRuntime.settleCall call executed outcome).2

def ToolResult.errorType? (result : ToolResult) : Option ErrorType :=
  result.error.map AgentError.errorType

def ToolResult.retryable? (result : ToolResult) : Option Bool :=
  result.error.map AgentError.retryable

namespace BaseTool

def Accepts (tool : BaseTool) (arguments : Dict) : Prop :=
  ∃ validatedInput, tool.inputModel arguments = .ok validatedInput

def Rejects (tool : BaseTool) (arguments : Dict) : Prop :=
  ∃ invalid, tool.inputModel arguments = .error invalid ∧ invalid.cls = .validationError

/-- The exception is of a class that the handlers take for a cause that it does not have. -/
def Misleads (tool : BaseTool) (arguments : Dict) (exception : Raised) : Prop :=
  exception.cls = .keyError ∨
    (exception.cls = .validationError ∧ ¬ tool.Rejects arguments)

end BaseTool

/-- The error type tells the cause of a failure. -/
structure ErrorsByCause (registry : ToolRegistry) (call : ToolCall) (result : ToolResult) :
    Prop where
  unknown : result.errorType? = some .unknownTool ↔ registry.tools.get? call.toolName = none
  invalid : result.errorType? = some .invalidArguments ↔
    ∃ tool, registry.tools.get? call.toolName = some tool ∧ tool.Rejects call.arguments
  failed : ∀ tool, registry.tools.get? call.toolName = some tool →
    tool.Accepts call.arguments → result.ok = false →
    result.errorType? = some .toolExecutionFailed

/-- The call comes to a report, and to one that tells the cause. -/
def ReportedByCause (registry : ToolRegistry) (call : ToolCall) (awaited : Awaited ToolResult) :
    Prop :=
  ∃ result, awaited = .completed result ∧ ErrorsByCause registry call result

/-- What the two paths should agree on. -/
structure Alike (left right : ToolResult) : Prop where
  callId : left.callId = right.callId
  toolName : left.toolName = right.toolName
  ok : left.ok = right.ok
  output : left.output = right.output
  errorType : left.ok = false → left.errorType? = right.errorType?
  retryable : left.ok = false → left.retryable? = right.retryable?

section Results

variable (runtime : AgentRuntime) (rationale : Option PlannerRationale) (call : ToolCall)

/-- The result is the one that the main loop appends, and what the executions come to. -/
theorem callResult_comesTo (session : Session) :
    (runtime.answerCall rationale call session).state.messages =
        session.state.messages ++ [toolMessage (runtime.callResult rationale call session)] ∧
      ∃ attempted, runtime.callResult rationale call session = attempted.result call ∧
        runtime.ComesTo session.moment call attempted := by
  obtain ⟨tries, attempted, answered, _, comes⟩ :=
    answerCall_answered runtime rationale call session
  have appended : ∃ earlier, (runtime.answerCall rationale call session).state.messages =
      earlier ++ [toolMessage (runtime.callResult rationale call session)] := ⟨_, rfl⟩
  obtain ⟨earlier, messages⟩ := appended
  rw [answered] at messages
  obtain ⟨before, last⟩ := List.append_inj' messages rfl
  simp only [toolMessage, List.cons.injEq, AgentMessage.mk.injEq, Option.some.injEq, true_and,
    and_true] at last
  rw [answered, ← last]
  exact ⟨rfl, attempted, rfl, comes⟩

end Results

section Conclusions

variable {tool : BaseTool} {call : ToolCall} {remaining : Nat}

/-- What attempts conclude that all come to the outcome. -/
def constantConclusion : Except Raised Dict → Option (Except Raised Dict)
  | .ok output => some (.ok output)
  | .error exception => if exception.transient then none else some (.error exception)

theorem BaseTool.conclusion_of_constant {outcome : Except Raised Dict}
    (constant : ∀ journal, tool.execute journal call.arguments = outcome)
    (tried : 0 < remaining) (attempt : Nat) (moment : Moment) :
    tool.conclusion call remaining attempt moment = constantConclusion outcome := by
  induction remaining generalizing attempt moment with
  | zero => exact absurd tried (Nat.lt_irrefl 0)
  | succ remaining ih =>
      rw [BaseTool.conclusion, constant]
      cases outcome with
      | ok output => rfl
      | error exception =>
          dsimp only [constantConclusion]
          cases transient : exception.transient with
          | false => rfl
          | true =>
              rw [if_pos rfl, if_pos rfl]
              cases remaining with
              | zero => rfl
              | succ remaining =>
                  rw [ih (Nat.succ_pos remaining)]
                  simp [constantConclusion, transient]

theorem BaseTool.execute_of_invalid {invalid : Raised}
    (validated : tool.inputModel call.arguments = .error invalid) (journal : Journal) :
    tool.execute journal call.arguments = .error invalid := by
  simp [BaseTool.execute, validated]

theorem BaseTool.Rejects.conclusion (rejects : tool.Rejects call.arguments)
    (tried : 0 < remaining) (attempt : Nat) (moment : Moment) :
    ∃ invalid, tool.conclusion call remaining attempt moment = some (.error invalid) ∧
      invalid.cls = .validationError := by
  obtain ⟨invalid, validated, kind⟩ := rejects
  have concluded := BaseTool.conclusion_of_constant (BaseTool.execute_of_invalid validated) tried
    attempt moment
  have lasting : invalid.transient = false := by
    simp [Raised.transient, kind]
  exact ⟨invalid, by simpa [constantConclusion, lasting] using concluded, kind⟩

theorem BaseTool.not_rejects_of_returned {attempt : Nat} {moment : Moment} {output : Dict}
    (concluded : tool.conclusion call remaining attempt moment = some (.ok output)) :
    ¬ tool.Rejects call.arguments := by
  intro rejects
  cases remaining with
  | zero => cases concluded
  | succ remaining =>
      obtain ⟨invalid, other, _⟩ :=
        rejects.conclusion (Nat.succ_pos remaining) attempt moment
      rw [concluded] at other
      cases other

theorem BaseTool.Accepts.not_rejects {arguments : Dict} (accepts : tool.Accepts arguments) :
    ¬ tool.Rejects arguments := by
  obtain ⟨input, accepted⟩ := accepts
  rintro ⟨invalid, rejected, _⟩
  rw [accepted] at rejected
  cases rejected

end Conclusions

theorem ToolRegistry.getTool_of_get? {registry : ToolRegistry} {name : String} {tool : BaseTool}
    (registered : registry.tools.get? name = some tool) : registry.getTool name = .ok tool := by
  simp [ToolRegistry.getTool, registered]

theorem ToolRegistry.getTool_of_none {registry : ToolRegistry} {name : String}
    (unregistered : registry.tools.get? name = none) :
    ∃ unknown, registry.getTool name = .error unknown ∧ unknown.cls = .keyError :=
  ⟨keyError ("Unknown tool: '" ++ name ++ "'"), by simp [ToolRegistry.getTool, unregistered], rfl⟩

section Causes

variable {registry : ToolRegistry} {call : ToolCall} {result : ToolResult}

theorem errorsByCause_of_unregistered (unregistered : registry.tools.get? call.toolName = none)
    (reported : result.errorType? = some .unknownTool) : ErrorsByCause registry call result where
  unknown := iff_of_true reported unregistered
  invalid := by
    rw [reported, unregistered]
    simp
  failed := by
    intro tool registered
    rw [unregistered] at registered
    cases registered

theorem errorsByCause_of_registered {tool : BaseTool}
    (registered : registry.tools.get? call.toolName = some tool) :
    ErrorsByCause registry call result ↔
      result.errorType? ≠ some .unknownTool ∧
        (result.errorType? = some .invalidArguments ↔ tool.Rejects call.arguments) ∧
        (tool.Accepts call.arguments → result.ok = false →
          result.errorType? = some .toolExecutionFailed) := by
  constructor
  · intro byCause
    have unknown := byCause.unknown
    have invalid := byCause.invalid
    rw [registered] at unknown invalid
    exact ⟨by simpa using unknown, by simpa using invalid, byCause.failed tool registered⟩
  · rintro ⟨unknown, invalid, failed⟩
    constructor
    · rw [registered]
      simpa using unknown
    · rw [registered]
      simpa using invalid
    · intro other same
      rw [registered] at same
      cases same
      exact failed

theorem errorsByCause_of_raised {tool : BaseTool} {exception : Raised}
    (registered : registry.tools.get? call.toolName = some tool)
    (raised : tool.Rejects call.arguments → exception.cls = .validationError)
    (failed : result.ok = false)
    (reported : result.errorType? = some (toolError exception).errorType) :
    ErrorsByCause registry call result ↔ ¬ tool.Misleads call.arguments exception := by
  rw [errorsByCause_of_registered registered, reported]
  unfold BaseTool.Misleads toolError
  cases kind : exception.cls <;> simp_all
  -- left: rejected arguments are not accepted
  exact fun rejects accepts => accepts.not_rejects rejects

theorem errorsByCause_of_returned {tool : BaseTool}
    (registered : registry.tools.get? call.toolName = some tool)
    (returned : ¬ tool.Rejects call.arguments) (ok : result.ok = true)
    (reported : result.errorType? = none) : ErrorsByCause registry call result := by
  rw [errorsByCause_of_registered registered, reported]
  simp [returned, ok]

end Causes

section Futures

/-- The exception reaches the handlers of the executor. -/
def Raised.Crosses (exception : Raised) : Prop :=
  exception.cls ≠ .stopIteration ∧ exception.cls ≠ .cancelledError

theorem Raised.Crosses.awaited {exception : Raised} (crosses : exception.Crosses) :
    awaited (.error exception) = .completed (.error exception) := by
  obtain ⟨delivered, lasting⟩ := crosses
  cases cls : exception.cls with
  | stopIteration => exact absurd cls delivered
  | cancelledError => exact absurd cls lasting
  | keyError | validationError | connectionError | timeoutError | other =>
      simp only [Runtime.awaited, cls]

theorem Awaited.map_eq_completed_iff {α β : Type} {f : α → β} {awaited : Awaited α} {value : β} :
    awaited.map f = .completed value ↔ ∃ before, awaited = .completed before ∧ f before = value := by
  cases awaited <;> simp [Awaited.map]

theorem awaited_completed {outcome delivered : Except Raised Dict}
    (completed : awaited outcome = .completed delivered) :
    delivered = outcome ∧ ∀ exception, outcome = .error exception → exception.Crosses := by
  cases outcome with
  | ok output =>
      cases completed
      exact ⟨rfl, by simp⟩
  | error exception =>
      simp only [awaited] at completed
      split at completed
      · cases completed
      · cases completed
      · next lasting delivered =>
          cases completed
          refine ⟨rfl, fun other same => ?_⟩
          cases same
          exact ⟨delivered, lasting⟩

variable {executor : AsyncToolExecutor} {call : ToolCall}

theorem AsyncToolExecutor.executeSingle_of_unknown {unknown : Raised}
    (looked : executor.toolRegistry.getTool call.toolName = .error unknown) (journal : Journal) :
    executor.executeSingleToolWithSem journal call =
      .completed (call.result (.error unknown)) := by
  rw [executeSingleToolWithSem, looked]

theorem AsyncToolExecutor.executeSingle_of_found {tool : BaseTool}
    (found : executor.toolRegistry.getTool call.toolName = .ok tool) (journal : Journal) :
    executor.executeSingleToolWithSem journal call =
      (awaited (tool.execute journal call.arguments)).map call.result := by
  rw [executeSingleToolWithSem, found]

end Futures

theorem asyncToolError_type (exception : Raised) :
    (asyncToolError exception).errorType = (toolError exception).errorType := by
  unfold asyncToolError toolError
  cases exception.cls <;> rfl

theorem callResult_byCause_iff (runtime : AgentRuntime) (rationale : Option PlannerRationale)
    (call : ToolCall) (session : Session) :
    ErrorsByCause runtime.toolRegistry call (runtime.callResult rationale call session) ↔
      ∀ tool, runtime.toolRegistry.tools.get? call.toolName = some tool →
        (tool.Rejects call.arguments → 0 < runtime.maxToolRetries) ∧
        ∀ exception,
          tool.conclusion call runtime.maxToolRetries.toNat 0 (session.moment.opened call) =
            some (.error exception) → ¬ tool.Misleads call.arguments exception := by
  obtain ⟨_, attempted, result, comes⟩ := callResult_comesTo runtime rationale call session
  rw [result]
  cases registered : runtime.toolRegistry.tools.get? call.toolName with
  | none =>
      obtain ⟨unknown, looked, kind⟩ := ToolRegistry.getTool_of_none registered
      rw [comesTo_of_unknown looked] at comes
      have reported : (attempted.result call).errorType? = some .unknownTool := by
        simp [comes, Attempted.result, ToolResult.errorType?, toolError, kind]
      exact iff_of_true (errorsByCause_of_unregistered registered reported) (by simp)
  | some tool =>
      rw [comesTo_of_found (ToolRegistry.getTool_of_get? registered)] at comes
      have invalidated : tool.Rejects call.arguments → 0 < runtime.maxToolRetries →
          ∃ invalid, attempted.conclusion = some (.error invalid) ∧
            invalid.cls = .validationError := by
        intro rejects tried
        have positive : 0 < runtime.maxToolRetries.toNat := by omega
        obtain ⟨invalid, concluded, kind⟩ :=
          rejects.conclusion positive 0 (session.moment.opened call)
        exact ⟨invalid, comes.trans concluded, kind⟩
      simp only [Option.some.injEq, forall_eq', ← comes]
      cases attempted with
      | succeeded output =>
          have returned := BaseTool.not_rejects_of_returned comes.symm
          exact iff_of_true (errorsByCause_of_returned registered returned rfl rfl)
            ⟨fun rejects => absurd rejects returned, by simp [Attempted.conclusion]⟩
      | exhausted attempt lastExceptionMsg =>
          have untried : tool.Rejects call.arguments → ¬ 0 < runtime.maxToolRetries := by
            intro rejects tried
            obtain ⟨invalid, concluded, _⟩ := invalidated rejects tried
            cases concluded
          have reported : ((Attempted.exhausted attempt lastExceptionMsg).result
              call).errorType? = some .toolExecutionFailed := rfl
          rw [errorsByCause_of_registered registered, reported]
          simp only [Attempted.conclusion, reduceCtorEq, false_implies, implies_true, and_true,
            ne_eq, Option.some.injEq, not_false_eq_true, false_iff, true_and]
          exact ⟨fun returned rejects => absurd rejects returned,
            fun tried rejects => untried rejects (tried rejects)⟩
      | raised exception =>
          have tried : 0 < runtime.maxToolRetries := by
            by_contra none
            have zero : runtime.maxToolRetries.toNat = 0 := by omega
            rw [zero] at comes
            cases comes
          have kind : tool.Rejects call.arguments → exception.cls = .validationError := by
            intro rejects
            obtain ⟨invalid, concluded, kind⟩ := invalidated rejects tried
            cases concluded
            exact kind
          rw [errorsByCause_of_raised registered kind rfl rfl]
          simp [Attempted.conclusion, tried]

theorem executeSingle_byCause_iff (executor : AsyncToolExecutor) (journal : Journal)
    (call : ToolCall) :
    ReportedByCause executor.toolRegistry call (executor.executeSingleToolWithSem journal call) ↔
      ∀ tool, executor.toolRegistry.tools.get? call.toolName = some tool →
        ∀ exception, tool.execute journal call.arguments = .error exception →
          exception.Crosses ∧ ¬ tool.Misleads call.arguments exception := by
  cases registered : executor.toolRegistry.tools.get? call.toolName with
  | none =>
      obtain ⟨unknown, looked, kind⟩ := ToolRegistry.getTool_of_none registered
      have reported : (call.result (.error unknown)).errorType? = some .unknownTool := by
        simp [ToolCall.result, ToolResult.errorType?, asyncToolError, kind]
      refine iff_of_true ⟨_, AsyncToolExecutor.executeSingle_of_unknown looked journal, ?_⟩
        (by simp)
      exact errorsByCause_of_unregistered registered reported
  | some tool =>
      have found := ToolRegistry.getTool_of_get? registered
      simp only [Option.some.injEq, forall_eq']
      rw [AsyncToolExecutor.executeSingle_of_found found]
      cases outcome : tool.execute journal call.arguments with
      | ok output =>
          have returned : ¬ tool.Rejects call.arguments := by
            rintro ⟨invalid, validated, _⟩
            rw [BaseTool.execute_of_invalid validated] at outcome
            cases outcome
          exact iff_of_true ⟨_, rfl, errorsByCause_of_returned registered returned rfl rfl⟩
            (by simp)
      | error exception =>
          have kind : tool.Rejects call.arguments → exception.cls = .validationError := by
            rintro ⟨invalid, validated, kind⟩
            rw [BaseTool.execute_of_invalid validated] at outcome
            cases outcome
            exact kind
          have byCause : ErrorsByCause executor.toolRegistry call
                (call.result (.error exception)) ↔ ¬ tool.Misleads call.arguments exception :=
            errorsByCause_of_raised registered kind rfl
              (congrArg some (asyncToolError_type exception))
          simp only [Except.error.injEq, forall_eq']
          constructor
          · rintro ⟨result, reported, tells⟩
            obtain ⟨delivered, completed, rfl⟩ := Awaited.map_eq_completed_iff.mp reported
            obtain ⟨rfl, crosses⟩ := awaited_completed completed
            exact ⟨crosses exception rfl, byCause.mp tells⟩
          · rintro ⟨crosses, honest⟩
            rw [crosses.awaited]
            exact ⟨_, rfl, byCause.mpr honest⟩

theorem asyncToolError_retryable (exception : Raised) :
    (asyncToolError exception).retryable = false := by
  unfold asyncToolError
  cases exception.cls <;> rfl

theorem toolError_retryable (exception : Raised) :
    (toolError exception).retryable = decide (exception.cls = .validationError) := by
  unfold toolError
  cases exception.cls <;> rfl

/-- The two results of an exception differ in the flag of a validation error alone. -/
theorem alike_of_raised (call : ToolCall) (exception : Raised) :
    Alike ((Attempted.raised exception).result call) (call.result (.error exception)) ↔
      exception.cls ≠ .validationError := by
  constructor
  · intro alike invalid
    have flags := alike.retryable rfl
    simp [ToolResult.retryable?, Attempted.result, ToolCall.result, toolError_retryable,
      asyncToolError_retryable, invalid] at flags
  · intro valid
    exact ⟨rfl, rfl, rfl, rfl,
      fun _ => congrArg some (asyncToolError_type exception).symm,
      fun _ => by
        simp [ToolResult.retryable?, Attempted.result, ToolCall.result, toolError_retryable,
          asyncToolError_retryable, valid]⟩

theorem alike_of_exhausted (call : ToolCall) (attempt : Nat) (lastExceptionMsg : String)
    {exception : Raised} (transient : exception.transient = true) :
    Alike ((Attempted.exhausted attempt lastExceptionMsg).result call)
      (call.result (.error exception)) := by
  have kind : (asyncToolError exception).errorType = .toolExecutionFailed := by
    unfold asyncToolError
    cases cls : exception.cls <;> simp_all [Raised.transient]
  exact ⟨rfl, rfl, rfl, rfl, fun _ => congrArg some kind.symm,
    fun _ => congrArg some (asyncToolError_retryable exception).symm⟩

/-- The outcome of a constant tool, as the two paths report it. -/
theorem alike_of_constant (call : ToolCall) {outcome : Except Raised Dict} {attempted : Attempted}
    (comes : attempted.conclusion = constantConclusion outcome) :
    Alike (attempted.result call) (call.result outcome) ↔
      ∀ exception, outcome = .error exception → exception.cls ≠ .validationError := by
  cases outcome with
  | ok output =>
      cases attempted with
      | succeeded returned =>
          cases comes
          exact iff_of_true ⟨rfl, rfl, rfl, rfl, by simp [Attempted.result],
            by simp [Attempted.result]⟩ (by simp)
      | exhausted _ _ => cases comes
      | raised _ => cases comes
  | error exception =>
      simp only [Except.error.injEq, forall_eq']
      dsimp only [constantConclusion] at comes
      cases transient : exception.transient with
      | true =>
          rw [if_pos transient] at comes
          have valid : exception.cls ≠ .validationError := by
            intro invalid
            simp [Raised.transient, invalid] at transient
          cases attempted with
          | exhausted attempt lastExceptionMsg =>
              exact iff_of_true (alike_of_exhausted call attempt lastExceptionMsg transient) valid
          | succeeded _ => cases comes
          | raised _ => cases comes
      | false =>
          rw [if_neg (by simp [transient])] at comes
          cases attempted with
          | raised raised =>
              cases comes
              exact alike_of_raised call exception
          | succeeded _ => cases comes
          | exhausted _ _ => cases comes

/-- A tool that looks at its arguments and then does the same each time. -/
def steadyTool (inputModel : Dict → Except Raised Dict) (outcome : Except Raised Dict) :
    BaseTool where
  name := "quote"
  inputModel := inputModel
  run _ _ := outcome

def quoteCall : ToolCall := ⟨"c1", "quote", []⟩

def quoting (inputModel : Dict → Except Raised Dict) (outcome : Except Raised Dict) :
    ToolRegistry :=
  ⟨OrderedDict.empty.insert "quote" (steadyTool inputModel outcome)⟩

theorem quoting_steady {inputModel : Dict → Except Raised Dict} {outcome : Except Raised Dict}
    {tool : BaseTool} (registered : (quoting inputModel outcome).tools.get? "quote" = some tool)
    (journal : Journal) (arguments : Dict) :
    tool.execute journal arguments = (steadyTool inputModel outcome).execute [] arguments := by
  have same : some (steadyTool inputModel outcome) = some tool := by
    rw [← registered]
    exact (OrderedDict.get?_insert_self _ _ _).symm
  cases same
  rfl

end DurableAgent.Runtime
