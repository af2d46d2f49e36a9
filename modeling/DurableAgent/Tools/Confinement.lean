import DurableAgent.Runtime.Trajectory
import DurableAgent.Tools.ScriptRunner

/-!
# Confined processes

A run sees of its tools only how they execute. The runner of approved scripts executes nothing
but safe commands, so that no run depends on what any other command would do.
-/

set_option autoImplicit false

namespace DurableAgent.Tools

open Library Python Context DurableAgent.Runtime

/-! ## Registries that execute alike -/

def ExecuteAlike (tool other : BaseTool) : Prop :=
  ∀ journal arguments, tool.execute journal arguments = other.execute journal arguments

/-- What a name brings in one registry, compared with what it brings in another. -/
inductive SameTool : Except Raised BaseTool → Except Raised BaseTool → Prop where
  | unknown (exception : Raised) : SameTool (.error exception) (.error exception)
  | known {tool other : BaseTool} : ExecuteAlike tool other → SameTool (.ok tool) (.ok other)

def RegistriesAlike (first second : ToolRegistry) : Prop :=
  ∀ name, SameTool (first.getTool name) (second.getTool name)

def equip (runtime : AgentRuntime) (toolRegistry : ToolRegistry) : AgentRuntime :=
  { runtime with toolRegistry := toolRegistry }

section Congruence

variable {first second : ToolRegistry} (alike : RegistriesAlike first second)
  (runtime : AgentRuntime)

theorem attempts_congr {tool other : BaseTool} (same : ExecuteAlike tool other)
    (action : ToolAction) (remaining attempt : Nat) (lastExceptionMsg : String)
    (session : Session) :
    tool.attempts action remaining attempt lastExceptionMsg session =
      other.attempts action remaining attempt lastExceptionMsg session := by
  induction remaining generalizing attempt lastExceptionMsg session with
  | zero => rfl
  | succ remaining ih =>
      rw [BaseTool.attempts, BaseTool.attempts, same session.journal action.arguments]
      cases other.execute session.journal action.arguments with
      | ok output => rfl
      | error exception =>
          dsimp only
          split
          · exact ih _ _ _
          · rfl

include alike

theorem executeTool_congr (action : ToolAction) (session : Session) :
    (equip runtime first).executeTool action session =
      (equip runtime second).executeTool action session := by
  have same := alike action.toolName
  unfold AgentRuntime.executeTool equip
  dsimp only
  cases found : first.getTool action.toolName with
  | error exception =>
      rw [found] at same
      cases other : second.getTool action.toolName with
      | error unknown =>
          rw [other] at same
          cases same
          rfl
      | ok tool =>
          rw [other] at same
          cases same
  | ok tool =>
      rw [found] at same
      cases other : second.getTool action.toolName with
      | error unknown =>
          rw [other] at same
          cases same
      | ok counterpart =>
          rw [other] at same
          cases same with
          | known executes =>
              dsimp only
              rw [attempts_congr executes]

theorem answerCall_congr (rationale : Option PlannerRationale) (call : ToolCall)
    (session : Session) :
    (equip runtime first).answerCall rationale call session =
      (equip runtime second).answerCall rationale call session := by
  unfold AgentRuntime.answerCall
  simp only [executeTool_congr alike]

theorem processCalls_congr (rationale : Option PlannerRationale) (calls : List ToolCall)
    (session : Session) :
    (equip runtime first).processCalls rationale calls session =
      (equip runtime second).processCalls rationale calls session := by
  induction calls generalizing session with
  | nil => rfl
  | cons call rest ih =>
      rw [AgentRuntime.processCalls, AgentRuntime.processCalls, answerCall_congr alike]
      split
      · rfl
      · exact ih _

theorem turn_congr (preContextItems : List ContextItem) (session : Session) :
    (equip runtime first).turn preContextItems session =
      (equip runtime second).turn preContextItems session := by
  unfold AgentRuntime.turn
  simp only [processCalls_congr alike]
  rfl

/-- Runs with registries that execute alike are the same runs. -/
theorem runSession_congr (runId userInput : String) :
    (equip runtime first).runSession runId userInput =
      (equip runtime second).runSession runId userInput := by
  have turns : ∀ items, (equip runtime first).turn items =
      (equip runtime second).turn items :=
    fun items => funext (turn_congr alike runtime items)
  unfold AgentRuntime.runSession
  dsimp only
  rw [turns]
  rfl

end Congruence

theorem register_sameTool {registry first second : ToolRegistry} {tool other : BaseTool}
    (executes : ExecuteAlike tool other) (named : tool.name = other.name)
    (registered : registry.register tool = .ok first)
    (instead : registry.register other = .ok second) : RegistriesAlike first second := by
  have inserted : ∀ {tool : BaseTool} {after : ToolRegistry},
      registry.register tool = .ok after → after = ⟨registry.tools.insert tool.name tool⟩ := by
    intro tool after taken
    unfold ToolRegistry.register at taken
    split at taken
    · cases taken
    · cases taken
      rfl
  intro name
  rw [inserted registered, inserted instead, ← named]
  by_cases new : name = tool.name
  · subst new
    simp only [ToolRegistry.getTool, OrderedDict.get?_insert_self]
    exact .known executes
  · simp only [ToolRegistry.getTool, OrderedDict.get?_insert_of_ne _ new]
    cases registry.tools.get? name with
    | none => exact .unknown _
    | some kept => exact .known fun _ _ => rfl

/-! ## The runner -/

theorem ofDump_dump (args : ScriptRunnerInput) :
    ScriptRunnerInput.ofDump args.dump = some args := by
  simp [ScriptRunnerInput.ofDump, ScriptRunnerInput.dump, Dict.get?]

/-- Two ways to spawn processes do the same for safe commands. -/
def AgreeOnSafe (fs : FileSystem) (first second : Spawn) : Prop :=
  ∀ journal cmd timeout, SafeCommand fs cmd →
    first journal cmd timeout = second journal cmd timeout

theorem runner_executeAlike {fs : FileSystem} {first second : Spawn}
    (agree : AgreeOnSafe fs first second) (pydantic : Pydantic) :
    ExecuteAlike (controlledScriptRunnerTool fs pydantic first)
      (controlledScriptRunnerTool fs pydantic second) := by
  intro journal arguments
  simp only [BaseTool.execute, controlledScriptRunnerTool]
  cases validated : ScriptRunnerInput.modelValidate fs pydantic arguments with
  | error exception => rfl
  | ok args =>
      simp only [Except.map, ofDump_dump, ScriptRunnerInput.run]
      cases made : args.command fs with
      | error exception => rfl
      | ok cmd =>
          dsimp only
          rw [agree journal cmd args.timeoutSeconds (command_safe validated made)]

/-- Whatever the model asks for in a run, with whatever other tools, the runner spawns no
process but for a safe command: the run is the same whatever other commands would do. -/
theorem runs_spawn_only_safe {fs : FileSystem} {first second : Spawn}
    (agree : AgreeOnSafe fs first second) (pydantic : Pydantic)
    {registry registered instead : ToolRegistry}
    (registers : registry.register (controlledScriptRunnerTool fs pydantic first) =
      .ok registered)
    (replaced : registry.register (controlledScriptRunnerTool fs pydantic second) = .ok instead)
    (runtime : AgentRuntime) (runId userInput : String) :
    (equip runtime registered).runSession runId userInput =
      (equip runtime instead).runSession runId userInput := by
  have alike := register_sameTool (runner_executeAlike agree pydantic) rfl registers replaced
  exact runSession_congr alike runtime runId userInput

/-- It runs whatever it is given. -/
def obliging : Spawn := fun _ _ _ => .ok (.completed 0 "Headers: ['month', 'sales']" "", "1.0")

/-- It refuses what is no script on one file. -/
def guarded : Spawn := fun journal cmd timeout =>
  if cmd.length = 3 then obliging journal cmd timeout
  else .error ⟨.other, "Unexpected command", .list []⟩

def lenient : Pydantic where
  toInt
    | .int number => .ok number
    | _ => .error "Input should be a valid integer"
  text _ := "validation errors for ScriptRunnerInput"
  errors _ := .list []

/-- The model asks for one approved script. -/
def describing : AgentRuntime :=
  scripted ⟨.empty⟩ [callMessage ⟨"c1", "run_approved_script",
    [("script_name", .str "safe_describe_csv"), ("file_path", .str "series/monthly_sales.csv")]⟩]

theorem guarded_runs_same :
    ∃ registered instead,
      ToolRegistry.register ⟨.empty⟩ (controlledScriptRunnerTool leaky lenient obliging) =
          .ok registered ∧
        ToolRegistry.register ⟨.empty⟩ (controlledScriptRunnerTool leaky lenient guarded) =
          .ok instead ∧
        (equip describing registered).runSession "r1" "Describe the sales." =
          (equip describing instead).runSession "r1" "Describe the sales." := by
  have agree : AgreeOnSafe leaky obliging guarded := by
    intro journal cmd timeout safe
    obtain ⟨script, -, file, baseDir, rfl, -⟩ := safe
    rfl
  have registers : ToolRegistry.register ⟨.empty⟩
      (controlledScriptRunnerTool leaky lenient obliging) =
        .ok ⟨OrderedDict.empty.insert "run_approved_script"
          (controlledScriptRunnerTool leaky lenient obliging)⟩ := rfl
  have replaced : ToolRegistry.register ⟨.empty⟩
      (controlledScriptRunnerTool leaky lenient guarded) =
        .ok ⟨OrderedDict.empty.insert "run_approved_script"
          (controlledScriptRunnerTool leaky lenient guarded)⟩ := rfl
  exact ⟨_, _, registers, replaced,
    runs_spawn_only_safe agree lenient registers replaced describing "r1" "Describe the sales."⟩

end DurableAgent.Tools
