import DurableAgent.Library.SymbolicLinks
import DurableAgent.Python.Text
import DurableAgent.Runtime.Loop

/-!
# The runner of approved scripts

`tools/script_runner.py`, with what `pathlib` does for it. The file system is given by its
symbolic links; what `resolve` makes of a path that leads nowhere differs between versions of
Python and may be anything.
-/

set_option autoImplicit false

namespace DurableAgent.Tools

open Library Python
open DurableAgent.Runtime (Raised BaseTool Journal keyError)

/-! ## Paths -/

/-- A name between the slashes of a path. -/
structure FileName where
  text : String
  nonempty : text ≠ ""
  notHere : text ≠ "."
  notUp : text ≠ ".."
  slashless : '/' ∉ text.toList
  deriving DecidableEq

/-- `.` and the empty part lead nowhere. -/
def partStep (part : String) (slashless : '/' ∉ part.toList) : Option (PathStep FileName) :=
  if nonempty : part = "" then none
  else if notHere : part = "." then none
  else if notUp : part = ".." then some .up
  else some (.down ⟨part, nonempty, notHere, notUp, slashless⟩)

theorem slashless_of_mem {text part : String} (member : part ∈ splitOn '/' text) :
    '/' ∉ part.toList := by
  obtain ⟨chars, split, rfl⟩ := List.mem_map.mp member
  rw [String.toList_ofList]
  exact not_mem_of_mem_splitOn split

/-- A `PurePosixPath`; its root is empty, one slash or two. -/
structure PosixPath where
  root : String
  steps : List (PathStep FileName)

def pathRoot (text : String) : String :=
  match text.toList with
  | '/' :: '/' :: '/' :: _ => "/"
  | '/' :: '/' :: _ => "//"
  | '/' :: _ => "/"
  | _ => ""

def pathSteps (text : String) : List (PathStep FileName) :=
  ((splitOn '/' text).pmap partStep fun _ => slashless_of_mem).filterMap id

def PosixPath.parse (text : String) : PosixPath := ⟨pathRoot text, pathSteps text⟩

namespace PosixPath

def stepText : PathStep FileName → String
  | .up => ".."
  | .down name => name.text

/-- `str`. -/
def str (path : PosixPath) : String :=
  if path.root = "" ∧ path.steps = [] then "."
  else path.root ++ joinOn '/' (path.steps.map stepText)

/-- `path / text`. -/
def join (path : PosixPath) (text : String) : PosixPath :=
  let other := parse text
  if other.root = "" then ⟨path.root, path.steps ++ other.steps⟩ else other

def route (path : PosixPath) : Route FileName := ⟨decide (path.root ≠ ""), path.steps⟩

/-- The path of a place. -/
def ofPlace (place : List FileName) : PosixPath := ⟨"/", place.map .down⟩

end PosixPath

/-- No link stands above the working directory. -/
structure FileSystem where
  links : Links FileName
  cwd : List FileName
  canonical : Plain links cwd
  unresolved : PosixPath → Except Raised (List FileName)

namespace FileSystem

variable (fs : FileSystem)

/-- Where the system ends up when it opens the path, if it opens it. -/
def LeadsTo (path : PosixPath) (target : List FileName) : Prop :=
  Walks fs.links (path.route.origin fs.cwd) path.steps target

/-- `path.resolve()`. -/
def resolve (path : PosixPath) : Except Raised (List FileName) :=
  match realPath fs.links (path.route.origin fs.cwd) path.steps with
  | some target => .ok target
  | none => fs.unresolved path

end FileSystem

/-! ## The input -/

def approvedScripts : OrderedDict String String :=
  (OrderedDict.empty.insert "safe_describe_csv" "scripts/safe_describe_csv.py").insert
    "safe_series_summary" "scripts/safe_series_summary.py"

structure ScriptRunnerInput where
  scriptName : String
  filePath : String
  timeoutSeconds : Int := 5

/-- What pydantic does beside the validators of the fields. -/
structure Pydantic where
  toInt : Value → Except String Int
  text : List (String × String) → String
  errors : List (String × String) → Value

/-- A field is valid, it has an error to report, or its validation breaks off. -/
inductive Checked (α : Type) where
  | valid (value : α)
  | invalid (message : String)
  | raises (exception : Raised)

/-- A required field of type `str` with its validator. -/
def checkedStr (arguments : Dict) (field : String) (validator : String → Checked String) :
    Checked String :=
  match Dict.get? arguments field with
  | none => .invalid "Field required"
  | some (.str text) => validator text
  | some _ => .invalid "Input should be a valid string"

def validateScript (v : String) : Checked String :=
  match approvedScripts.get? v with
  | none => .invalid ("Value error, Script '" ++ v ++ "' is not approved for execution.")
  | some _ => .valid v

namespace FileSystem

variable (fs : FileSystem)

def sampleData : PosixPath := .parse "sample_data"

def securityViolation : String :=
  "Value error, Security violation: Access path is outside allowed directory constraint."

def validatePathBoundary (v : String) : Checked String :=
  match fs.resolve sampleData with
  | .error exception => .raises exception
  | .ok baseDir =>
      -- The system takes no path with a NUL.
      if Char.ofNat 0 ∈ v.toList then .invalid "Value error, embedded null byte"
      else
        match fs.resolve ((PosixPath.ofPlace baseDir).join v) with
        | .error exception => .raises exception
        | .ok targetPath =>
            if baseDir <+: targetPath then .valid v
            else .invalid securityViolation

end FileSystem

def checkedTimeout (pydantic : Pydantic) (arguments : Dict) : Checked Int :=
  match Dict.get? arguments "timeout_seconds" with
  | none => .valid 5
  | some value =>
      match pydantic.toInt value with
      | .ok number => .valid number
      | .error message => .invalid message

def Checked.error? {α : Type} (field : String) : Checked α → List (String × String)
  | .invalid message => [(field, message)]
  | _ => []

/-- The errors of all fields are reported together. -/
def ScriptRunnerInput.modelValidate (fs : FileSystem) (pydantic : Pydantic) (arguments : Dict) :
    Except Raised ScriptRunnerInput :=
  let script := checkedStr arguments "script_name" validateScript
  let path := checkedStr arguments "file_path" fs.validatePathBoundary
  let timeout := checkedTimeout pydantic arguments
  match script, path, timeout with
  | .raises exception, _, _ => .error exception
  | _, .raises exception, _ => .error exception
  | _, _, .raises exception => .error exception
  | .valid scriptName, .valid filePath, .valid timeoutSeconds =>
      .ok ⟨scriptName, filePath, timeoutSeconds⟩
  | _, _, _ =>
      let reported := script.error? "script_name" ++ path.error? "file_path" ++
        timeout.error? "timeout_seconds"
      .error ⟨.validationError, pydantic.text reported, pydantic.errors reported⟩

def ScriptRunnerInput.dump (args : ScriptRunnerInput) : Dict :=
  [("script_name", .str args.scriptName), ("file_path", .str args.filePath),
    ("timeout_seconds", .int args.timeoutSeconds)]

/-! ## The tool -/

inductive ProcessResult where
  | completed (returncode : Int) (stdout stderr : String)
  | timeoutExpired

/-- `subprocess.run` of a command with a timeout, and the milliseconds that it took; it may
depend on all that happened before. -/
abbrev Spawn := Journal → List String → Int → Except Raised (ProcessResult × String)

def scriptRunnerOutput (scriptName : String) (exitCode : Int) (stdout stderr durationMs : String)
    (timedOut : Bool) : Dict :=
  [("script_name", .str scriptName), ("exit_code", .int exitCode), ("stdout", .str stdout),
    ("stderr", .str stderr), ("duration_ms", .float durationMs), ("timed_out", .bool timedOut)]

/-- The argument array of the process, or the exception that comes before it. -/
def ScriptRunnerInput.command (fs : FileSystem) (args : ScriptRunnerInput) :
    Except Raised (List String) :=
  match approvedScripts.get? args.scriptName with
  | none => .error (keyError args.scriptName)
  | some scriptPath =>
      match fs.resolve FileSystem.sampleData with
      | .error exception => .error exception
      | .ok baseDir =>
          .ok ["python", scriptPath, ((PosixPath.ofPlace baseDir).join args.filePath).str]

def ScriptRunnerInput.run (fs : FileSystem) (spawn : Spawn) (journal : Journal)
    (args : ScriptRunnerInput) : Except Raised Dict :=
  match args.command fs with
  | .error exception => .error exception
  | .ok cmd =>
      match spawn journal cmd args.timeoutSeconds with
      | .error exception => .error exception
      | .ok (.completed returncode stdout stderr, duration) =>
          .ok (scriptRunnerOutput args.scriptName returncode (strip stdout) (strip stderr)
            duration false)
      | .ok (.timeoutExpired, duration) =>
          .ok (scriptRunnerOutput args.scriptName (-1) ""
            ("Process timed out after " ++ toString args.timeoutSeconds ++ " seconds.")
            duration true)

/-- The input that a dump is of. -/
def ScriptRunnerInput.ofDump (validated : Dict) : Option ScriptRunnerInput :=
  match Dict.get? validated "script_name", Dict.get? validated "file_path",
    Dict.get? validated "timeout_seconds" with
  | some (.str scriptName), some (.str filePath), some (.int timeoutSeconds) =>
      some ⟨scriptName, filePath, timeoutSeconds⟩
  | _, _, _ => none

def controlledScriptRunnerTool (fs : FileSystem) (pydantic : Pydantic) (spawn : Spawn) :
    BaseTool where
  name := "run_approved_script"
  inputModel arguments :=
    (ScriptRunnerInput.modelValidate fs pydantic arguments).map ScriptRunnerInput.dump
  run journal validated :=
    match ScriptRunnerInput.ofDump validated with
    | some args => args.run fs spawn journal
    | none => .error ⟨.other, "", .list []⟩

/-! ## What the paths lead to -/

theorem pathSteps_slash (text : String) : pathSteps ("/" ++ text) = pathSteps text := by
  have parts : splitOn '/' ("/" ++ text) = "" :: splitOn '/' text := by
    simp [splitOn, List.splitOn_cons_eq_if_modifyHead]
  have steps : ∀ parts others : List String, ∀ slashless fine, parts = "" :: others →
      (parts.pmap partStep slashless).filterMap id = (others.pmap partStep fine).filterMap id := by
    rintro _ others _ _ rfl
    rfl
  exact steps _ _ _ _ parts

theorem pathSteps_join (steps : List (PathStep FileName)) :
    pathSteps (joinOn '/' (steps.map PosixPath.stepText)) = steps := by
  have back : ∀ (parts : List String) (slashless : ∀ part ∈ parts, '/' ∉ part.toList),
      parts = steps.map PosixPath.stepText →
        (parts.pmap partStep slashless).filterMap id = steps := by
    intro parts slashless same
    subst same
    induction steps with
    | nil => rfl
    | cons step rest ih =>
        have later := ih fun part member => slashless part (List.mem_cons_of_mem _ member)
        cases step with
        | up => simpa [PosixPath.stepText, partStep] using later
        | down name =>
            simpa [PosixPath.stepText, partStep, name.nonempty, name.notHere, name.notUp] using
              later
  cases steps with
  | nil => rfl
  | cons step rest =>
      apply back
      rw [splitOn_joinOn_iff]
      refine ⟨List.cons_ne_nil _ _, fun part member => ?_⟩
      obtain ⟨step, -, rfl⟩ := List.mem_map.mp member
      cases step with
      | up => decide
      | down name => exact name.slashless

namespace PosixPath

def Rooted (path : PosixPath) : Prop := path.root = "/" ∨ path.root = "//"

theorem parse_root (text : String) : (parse text).root = "" ∨ (parse text).Rooted := by
  unfold parse pathRoot Rooted
  split <;> simp

theorem join_rooted {path : PosixPath} (rooted : path.Rooted) (text : String) :
    (path.join text).Rooted := by
  unfold join
  dsimp only
  split
  · exact rooted
  · next absolute => exact (parse_root text).resolve_left absolute

/-- The text of a path with a root is read as a path to the same place. -/
theorem parse_str_route {path : PosixPath} (rooted : path.Rooted) :
    (parse path.str).route = path.route := by
  have slash : ∀ text, pathRoot ("/" ++ text) ≠ "" := by
    intro text
    unfold pathRoot
    split
    · decide
    · decide
    · decide
    · next other => simp at other
  have printed : path.str = path.root ++ joinOn '/' (path.steps.map stepText) := by
    refine if_neg fun empty => ?_
    rcases rooted with single | double
    · simp [empty.1] at single
    · simp [empty.1] at double
  rcases rooted with single | double
  · rw [printed, single, parse, route, route, pathSteps_slash, pathSteps_join, single]
    simp [slash]
  · have twice : "//" = "/" ++ "/" := rfl
    rw [printed, double, parse, route, route, twice, String.append_assoc, pathSteps_slash,
      pathSteps_slash, pathSteps_join, double]
    simp [slash]

end PosixPath

namespace FileSystem

variable {fs : FileSystem} {base target : List FileName}

theorem resolve_of_leadsTo {path : PosixPath} (leads : fs.LeadsTo path target) :
    fs.resolve path = .ok target := by
  rw [resolve, realPath_eq_some_iff.mpr leads]

theorem leadsTo_congr {path other : PosixPath} (same : path.route = other.route) :
    fs.LeadsTo path target ↔ fs.LeadsTo other target := by
  have steps : path.steps = other.steps := congrArg Route.steps same
  rw [LeadsTo, LeadsTo, same, steps]

theorem LeadsTo.plain {path : PosixPath} (leads : fs.LeadsTo path target) :
    Plain fs.links target := by
  apply Walks.plain leads
  unfold Route.origin
  split
  · exact .root
  · exact fs.canonical

/-- A path below a place without links is walked from there. -/
theorem leadsTo_join_iff (plain : Plain fs.links base) (text : String) :
    fs.LeadsTo ((PosixPath.ofPlace base).join text) target ↔
      Walks fs.links ((PosixPath.parse text).route.origin base) (PosixPath.parse text).steps
        target := by
  unfold PosixPath.join
  dsimp only
  split
  · next relative =>
      have origin : (PosixPath.parse text).route.origin base = base := by
        simp [PosixPath.route, relative, Route.origin]
      have start : (PosixPath.route ⟨(PosixPath.ofPlace base).root,
          (PosixPath.ofPlace base).steps ++ (PosixPath.parse text).steps⟩).origin fs.cwd = [] := by
        simp [PosixPath.route, PosixPath.ofPlace, Route.origin]
      rw [LeadsTo, origin, start]
      constructor
      · intro walks
        obtain ⟨middle, first, second⟩ := Walks.split walks rfl
        rwa [← first.deterministic plain.walks]
      · exact plain.walks.append
  · next absolute =>
      have start : ∀ place, (PosixPath.parse text).route.origin place = [] := by
        intro place
        simp [PosixPath.route, absolute, Route.origin]
      rw [LeadsTo, start, start]

/-- The validator decides by the very place that the process is sent to. -/
theorem validatePathBoundary_eq (found : fs.LeadsTo sampleData base) {v : String}
    (allowed : Char.ofNat 0 ∉ v.toList)
    (leads : fs.LeadsTo ((PosixPath.ofPlace base).join v) target) :
    fs.validatePathBoundary v =
      if base <+: target then .valid v else .invalid securityViolation := by
  rw [validatePathBoundary, resolve_of_leadsTo found]
  dsimp only
  rw [if_neg allowed, resolve_of_leadsTo leads]

theorem of_validatePathBoundary {v given : String}
    (valid : fs.validatePathBoundary v = .valid given) :
    given = v ∧ ∃ baseDir, fs.resolve sampleData = .ok baseDir ∧
      ∀ target, fs.LeadsTo ((PosixPath.ofPlace baseDir).join v) target → baseDir <+: target := by
  unfold validatePathBoundary at valid
  cases resolved : fs.resolve sampleData with
  | error exception => simp [resolved] at valid
  | ok baseDir =>
      rw [resolved] at valid
      dsimp only at valid
      split at valid
      · cases valid
      · cases full : fs.resolve ((PosixPath.ofPlace baseDir).join v) with
        | error exception => simp [full] at valid
        | ok targetPath =>
            rw [full] at valid
            dsimp only at valid
            split at valid
            · next within =>
                cases valid
                refine ⟨rfl, baseDir, rfl, fun target leads => ?_⟩
                rw [resolve_of_leadsTo leads] at full
                cases full
                exact within
            · cases valid

end FileSystem

/-! ## Commands -/

/-- An approved script on one file; if the file can be opened, it is sample data. -/
def SafeCommand (fs : FileSystem) (cmd : List String) : Prop :=
  ∃ script ∈ approvedScripts.values, ∃ file baseDir,
    cmd = ["python", script, file] ∧ fs.resolve FileSystem.sampleData = .ok baseDir ∧
      ∀ target, fs.LeadsTo (.parse file) target → baseDir <+: target

section Commands

variable {fs : FileSystem} {pydantic : Pydantic} {arguments : Dict} {args : ScriptRunnerInput}

theorem checkedStr_valid {field : String} {validator : String → Checked String} {given : String}
    (valid : checkedStr arguments field validator = .valid given) :
    ∃ text, Dict.get? arguments field = some (.str text) ∧ validator text = .valid given := by
  unfold checkedStr at valid
  split at valid
  · cases valid
  · next text found => exact ⟨text, found, valid⟩
  · cases valid

theorem of_modelValidate (validated : ScriptRunnerInput.modelValidate fs pydantic arguments =
    .ok args) :
    (∃ v, validateScript v = .valid args.scriptName) ∧
      ∃ v, fs.validatePathBoundary v = .valid args.filePath := by
  unfold ScriptRunnerInput.modelValidate at validated
  dsimp only at validated
  split at validated
  · cases validated
  · cases validated
  · cases validated
  · next scriptName filePath timeoutSeconds script path timeout =>
      cases validated
      obtain ⟨name, -, named⟩ := checkedStr_valid script
      obtain ⟨file, -, confined⟩ := checkedStr_valid path
      exact ⟨⟨name, named⟩, file, confined⟩
  · cases validated

/-- The command of a validated input is safe. -/
theorem command_safe (validated : ScriptRunnerInput.modelValidate fs pydantic arguments =
    .ok args) {cmd : List String} (made : args.command fs = .ok cmd) : SafeCommand fs cmd := by
  obtain ⟨-, file, confined⟩ := of_modelValidate validated
  obtain ⟨rfl, baseDir, resolved, inside⟩ := FileSystem.of_validatePathBoundary confined
  unfold ScriptRunnerInput.command at made
  cases approved : approvedScripts.get? args.scriptName with
  | none => simp [approved] at made
  | some scriptPath =>
      simp only [approved, resolved, Except.ok.injEq] at made
      have listed : scriptPath ∈ approvedScripts.values :=
        OrderedDict.mem_values_iff.mpr ⟨_, OrderedDict.get?_eq_some_iff.mp approved⟩
      refine ⟨scriptPath, listed, _, baseDir, made.symm, resolved, fun target leads => ?_⟩
      have rooted : ((PosixPath.ofPlace baseDir).join args.filePath).Rooted :=
        PosixPath.join_rooted (.inl rfl) args.filePath
      exact inside target
        ((FileSystem.leadsTo_congr (PosixPath.parse_str_route rooted)).mp leads)

end Commands

/-- Where the working directory has its sample data and `file_path` leads anywhere from there,
links and `..` included, the validator accepts it exactly if that place is inside, and a process
that opens the path it is given ends up there and nowhere else. -/
theorem file_path_confined (fs : FileSystem) {base target : List FileName}
    (found : fs.LeadsTo FileSystem.sampleData base) {v : String}
    (allowed : Char.ofNat 0 ∉ v.toList)
    (leads : Walks fs.links ((PosixPath.parse v).route.origin base) (PosixPath.parse v).steps
      target) :
    fs.validatePathBoundary v =
        (if base <+: target then .valid v else .invalid FileSystem.securityViolation) ∧
      ∀ scriptName timeoutSeconds cmd,
        ScriptRunnerInput.command fs ⟨scriptName, v, timeoutSeconds⟩ = .ok cmd →
        ∃ file, cmd.getLast? = some file ∧
          ∀ other, fs.LeadsTo (.parse file) other ↔ other = target := by
  have joined := (FileSystem.leadsTo_join_iff found.plain v).mpr leads
  refine ⟨FileSystem.validatePathBoundary_eq found allowed joined, ?_⟩
  intro scriptName timeoutSeconds cmd made
  unfold ScriptRunnerInput.command at made
  cases approved : approvedScripts.get? scriptName with
  | none => simp [approved] at made
  | some scriptPath =>
      simp only [approved, FileSystem.resolve_of_leadsTo found, Except.ok.injEq] at made
      subst made
      refine ⟨((PosixPath.ofPlace base).join v).str, rfl, fun other => ?_⟩
      have rooted : ((PosixPath.ofPlace base).join v).Rooted :=
        PosixPath.join_rooted (.inl rfl) v
      rw [FileSystem.leadsTo_congr (PosixPath.parse_str_route rooted)]
      constructor
      · intro opened
        exact Walks.deterministic opened joined
      · rintro rfl
        exact joined

/-- The directory of the sample data has a link that leads out of it. -/
def leaky : FileSystem where
  links := OrderedDict.empty.insert
    [⟨"app", by decide, by decide, by decide, by decide⟩,
      ⟨"sample_data", by decide, by decide, by decide, by decide⟩,
      ⟨"latest", by decide, by decide, by decide, by decide⟩] (PosixPath.parse "../../etc").route
  cwd := [⟨"app", by decide, by decide, by decide, by decide⟩]
  canonical := .under .root (by decide)
  unresolved _ := .error ⟨.other, "Symlink loop", .list []⟩

theorem leaky_link_refused :
    ∃ target : List FileName, target.map FileName.text = ["etc", "passwd"] ∧
      leaky.validatePathBoundary "series/../latest/passwd" =
        .invalid FileSystem.securityViolation ∧
      ∀ scriptName timeoutSeconds cmd,
        ScriptRunnerInput.command leaky ⟨scriptName, "series/../latest/passwd", timeoutSeconds⟩ =
          .ok cmd →
        ∃ file, cmd.getLast? = some file ∧
          ∀ other, leaky.LeadsTo (.parse file) other ↔ other = target := by
  let base : List FileName := [⟨"app", by decide, by decide, by decide, by decide⟩,
    ⟨"sample_data", by decide, by decide, by decide, by decide⟩]
  let target : List FileName := [⟨"etc", by decide, by decide, by decide, by decide⟩,
    ⟨"passwd", by decide, by decide, by decide, by decide⟩]
  have found : leaky.LeadsTo FileSystem.sampleData base :=
    realPath_eq_some_iff.mp (by decide +kernel)
  have leads : Walks leaky.links
      ((PosixPath.parse "series/../latest/passwd").route.origin base)
      (PosixPath.parse "series/../latest/passwd").steps target :=
    realPath_eq_some_iff.mp (by decide +kernel)
  have confined := file_path_confined leaky found (by decide) leads
  have outside : ¬ base <+: target := by decide
  rw [if_neg outside] at confined
  exact ⟨target, rfl, confined⟩

end DurableAgent.Tools
