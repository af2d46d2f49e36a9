import DurableAgent.Library.OrderedDict
import DurableAgent.Python.Value

/-!
# Messages, steps and trace events of the runtime

`models.py`, `errors.py`, `tracing.py`, `runtime/state.py`, `tools/base.py` and
`tools/registry.py`. The payload of a trace event is carried by its type.
-/

set_option autoImplicit false

namespace DurableAgent.Runtime

open Library Python

/-- The subclasses of `Exception` that a handler or a future tells from the others. The
`CancelledError` is that of `concurrent.futures`. -/
inductive ExceptionClass where
  | keyError
  | validationError
  | connectionError
  | timeoutError
  | stopIteration
  | cancelledError
  | other
  deriving DecidableEq, Repr

/-- An exception, with its `str` and, for a validation error, its `errors`. -/
structure Raised where
  cls : ExceptionClass
  text : String
  errors : Value := .list []

inductive ErrorType where
  | toolExecutionFailed
  | unknownTool
  | invalidArguments
  | timeout
  deriving DecidableEq, Repr

structure AgentError where
  errorType : ErrorType
  message : String
  retryable : Bool
  details : Value

structure ToolCall where
  callId : String
  toolName : String
  arguments : Dict

/-- The error is the dump of an `AgentError`. -/
structure ToolResult where
  callId : String
  toolName : String
  ok : Bool
  output : Option Dict := none
  error : Option AgentError := none

structure PlannerRationale where
  summary : String
  confidence : Option String := none
  citedStateKeys : List String := []

structure AgentMessage where
  role : String
  content : Option String := none
  toolCalls : Option (List ToolCall) := none
  toolResult : Option ToolResult := none
  rationale : Option PlannerRationale := none

structure ToolAction where
  callId : String
  toolName : String
  arguments : Dict
  rationale : Option PlannerRationale := none

structure ToolObservation where
  callId : String
  toolName : String
  ok : Bool
  output : Option Dict := none
  error : Option AgentError := none

inductive StopKind where
  | finalAnswer
  | maxStepsExceeded
  | nonRetryableError
  | providerFailed
  deriving DecidableEq, Repr

structure StopReason where
  reason : StopKind
  message : Option String := none
  step : Nat

structure AgentStep where
  runId : String
  step : Nat
  rationale : Option PlannerRationale := none
  action : Option ToolAction := none
  observation : Option ToolObservation := none
  stopReason : Option StopReason := none

/-- What the payload of `tool_failed` says beside the call. -/
inductive FailureDetail where
  | retriesExhausted
  | error (text : String)

inductive Event where
  | runStarted (userInput : String)
  | skillActivated (skillName : String)
  | retrievalMelt
  | retrievalSuccess (citations : List String)
  | maxStepsExceeded
  | modelRequested (budgetTokens itemsDropped itemsPruned : Nat) (utilizationRatio : String)
  | contextLostInMiddleWarning (utilization : String)
  | modelProviderFailed (error : String)
  | modelResponded (message : AgentMessage)
  | rationaleRecorded (summary : String)
  | toolCallReceived (toolCall : ToolCall)
  | toolActionCreated (toolName callId : String)
  | toolStarted (toolName callId : String)
  | toolTransientError (toolName : String) (attempt : Nat) (error : String)
  | toolSucceeded (toolName callId : String)
  | toolFailed (toolName callId : String) (detail : FailureDetail)
  | toolValidationFailed (errorType : ErrorType) (callId : String)
  | observationRecorded (callId : String) (ok : Bool)
  | stepCompleted (callId : String) (ok : Bool)
  | stopReasonRecorded (reason : Option StopKind)
  | runCompleted (finalAnswer : Option String)

structure TraceEvent where
  runId : String
  step : Nat
  event : Event

inductive RunStatus where
  | running
  | completed
  | maxStepsExceeded
  | failed
  deriving DecidableEq, Repr

structure AgentState where
  runId : String
  messages : List AgentMessage
  stepCount : Nat := 0
  status : RunStatus := .running
  steps : List AgentStep := []
  traceEvents : List TraceEvent := []
  finalAnswer : Option String := none
  stopReason : Option StopKind := none

/-- What happens in the course of a run: events are recorded, the provider is
asked, tools are executed. -/
inductive Entry where
  | traced (event : TraceEvent)
  | generated (messages : List AgentMessage) (outcome : Except Raised AgentMessage)
  | executed (toolName : String) (arguments : Dict) (outcome : Except Raised Dict)

abbrev Journal := List Entry

/-- A tool, by the validation of its input model and its `run`, which may depend
on all that happened before. Its output is the dump of the output model. -/
structure BaseTool where
  name : String
  inputModel : Dict → Except Raised Dict
  run : Journal → Dict → Except Raised Dict

def BaseTool.execute (tool : BaseTool) (journal : Journal) (arguments : Dict) :
    Except Raised Dict :=
  match tool.inputModel arguments with
  | .error invalid => .error invalid
  | .ok validatedInput => tool.run journal validatedInput

structure ToolRegistry where
  tools : OrderedDict String BaseTool

/-- A backslash escape with two hexadecimal digits. -/
private def hexEscape (code : Nat) : String :=
  let digits := Nat.toDigits 16 code
  "\\x" ++ String.ofList (List.replicate (2 - digits.length) '0' ++ digits)

private def escapeChar (quote char : Char) : String :=
  let code := char.toNat
  if char = quote ∨ code = 92 then "\\" ++ char.toString
  else if code = 9 then "\\t"
  else if code = 10 then "\\n"
  else if code = 13 then "\\r"
  else if code < 32 ∨ (127 ≤ code ∧ code ≤ 160) ∨ code = 173 then hexEscape code
  else char.toString

/-- `repr` of a string; beyond Latin-1 every character is taken as printable. -/
def strRepr (text : String) : String :=
  let single := Char.ofNat 39
  let double := Char.ofNat 34
  let quote := if text.toList.contains single && !text.toList.contains double then double else single
  quote.toString ++ String.join (text.toList.map (escapeChar quote)) ++ quote.toString

/-- The `str` of a `KeyError` is the `repr` of its argument. -/
def keyError (message : String) : Raised := ⟨.keyError, strRepr message, .list []⟩

def ToolRegistry.register (registry : ToolRegistry) (tool : BaseTool) :
    Except Raised ToolRegistry :=
  match registry.tools.get? tool.name with
  | some _ =>
      .error (keyError ("Tool collision detected: '" ++ tool.name ++ "' is already registered."))
  | none => .ok ⟨registry.tools.insert tool.name tool⟩

def ToolRegistry.getTool (registry : ToolRegistry) (name : String) : Except Raised BaseTool :=
  match registry.tools.get? name with
  | some tool => .ok tool
  | none => .error (keyError ("Unknown tool: '" ++ name ++ "'"))

end DurableAgent.Runtime
