import DurableAgent.Library.OrderedDict
import DurableAgent.Python.Text

/-!
# Memory records

`memory/models.py`. A float is given by its `repr`.
-/

set_option autoImplicit false

namespace DurableAgent.Memory

open Library Python

deriving instance DecidableEq for OrderedDict

def memoryTypeEpisodic : String := "episodic"

def memoryTypeLongTerm : String := "long_term"

structure MemoryRecord where
  memoryId : String
  «namespace» : String
  key : String
  memoryType : String := memoryTypeLongTerm
  content : String
  importance : String := "1.0"
  updatedAt : String
  metadata : OrderedDict String String := OrderedDict.empty
  deriving DecidableEq

@[ext] structure EpisodeRecord where
  episodeId : String
  runId : String
  taskSummary : String
  outcome : String
  keyDecisions : List String := []
  errorMessages : List String := []
  stepCount : Int := 0
  recordedAt : String
  deriving DecidableEq

namespace EpisodeRecord

/-- `max(0.1, 1.0 - errors * 0.2)` in binary floating point. -/
def importance : Nat → String
  | 0 => "1.0"
  | 1 => "0.8"
  | 2 => "0.6"
  | 3 => "0.3999999999999999"
  | 4 => "0.19999999999999996"
  | _ => "0.1"

def metadata (episode : EpisodeRecord) (stepCount : String) : OrderedDict String String :=
  (((((OrderedDict.empty.insert "episode_id" episode.episodeId).insert
    "run_id" episode.runId).insert
    "outcome" episode.outcome).insert
    "step_count" stepCount).insert
    "decisions" (joinOn '|' episode.keyDecisions)).insert
    "errors" (joinOn '|' episode.errorMessages)

/-- The record to store, or none where `str` refuses the step count. The record
dates from `now`, the clock that its default of `updated_at` reads. -/
def toMemoryRecord (episode : EpisodeRecord) (name now : String) : Option MemoryRecord := do
  let stepCount ← intStr episode.stepCount
  some {
    memoryId := episode.episodeId
    «namespace» := name
    key := "episode_" ++ episode.runId
    memoryType := memoryTypeEpisodic
    content := episode.taskSummary
    importance := importance episode.errorMessages.length
    updatedAt := now
    metadata := episode.metadata stepCount }

/-- `meta.get(field, "").split("|") if meta.get(field) else []`. -/
def listField (entries : OrderedDict String String) (field : String) : List String :=
  match entries.get? field with
  | none => []
  | some text => if text = "" then [] else splitOn '|' text

/-- The episode that a record tells of, or none where `int` refuses its step count. -/
def fromMemoryRecord (record : MemoryRecord) : Option EpisodeRecord := do
  let entries := record.metadata
  let stepCount ← match entries.get? "step_count" with
    | none => some 0
    | some text => intOf text
  some {
    episodeId := (entries.get? "episode_id").getD record.memoryId
    runId := (entries.get? "run_id").getD ""
    taskSummary := record.content
    outcome := (entries.get? "outcome").getD "unknown"
    keyDecisions := listField entries "decisions"
    errorMessages := listField entries "errors"
    stepCount := stepCount
    recordedAt := record.updatedAt }

end EpisodeRecord

end DurableAgent.Memory
