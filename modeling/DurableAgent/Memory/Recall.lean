import DurableAgent.Memory.Condenser
import DurableAgent.Memory.Episodes
import DurableAgent.Memory.ReadYourWrites

/-!
# Recalled runs

Runs are condensed, stored and listed as episodes. What is listed of a run is the episode
stored last for it; its lists of texts may be cut anew at a `|`.
-/

set_option autoImplicit false

namespace DurableAgent.Memory

open Library Python DurableAgent.Runtime MemoryCondenser

/-- A run that is condensed into an episode, and the record to store of it. -/
structure Saving where
  runtime : AgentRuntime
  runId : String
  userInput : String
  episodeId : String
  recordedAt : String
  name : String
  updatedAt : String
  record : MemoryRecord
  made : (condense (runtime.run runId userInput) episodeId recordedAt).toMemoryRecord name
    updatedAt = some record

/-- The texts that a list joined with `|` is split into. -/
def recut (texts : List String) : List String :=
  if joinOn '|' texts = "" then [] else splitOn '|' (joinOn '|' texts)

namespace Saving

def episode (saving : Saving) : EpisodeRecord :=
  condense (saving.runtime.run saving.runId saving.userInput) saving.episodeId saving.recordedAt

def write (saving : Saving) : Write := .putEpisode saving.record

/-- The episode as it comes back from the store. -/
def recalled (saving : Saving) : EpisodeRecord :=
  { saving.episode with
    keyDecisions := recut saving.episode.keyDecisions
    errorMessages := recut saving.episode.errorMessages
    recordedAt := saving.updatedAt }

end Saving

/-- The saving of a run that comes last in a namespace. -/
def lastSaved (savings : List Saving) (name runId : String) : Option Saving :=
  (savings.filter fun saving => decide (saving.name = name ∧ saving.runId = runId)).getLast?

/-! ## The records of runs -/

theorem recut_eq_iff (texts : List String) : recut texts = texts ↔ Separable texts := by
  have stored : (OrderedDict.empty.insert "decisions" (joinOn '|' texts)).get? "decisions" =
      some (joinOn '|' texts) := OrderedDict.get?_insert_self _ _ _
  have listed := EpisodeRecord.listField_joinOn_iff stored
  rwa [EpisodeRecord.listField, stored] at listed

namespace Saving

variable (saving : Saving)

theorem record_shape : saving.record.namespace = saving.name ∧
    saving.record.key = "episode_" ++ saving.runId ∧ saving.record.memoryType = "episodic" ∧
    saving.record.updatedAt = saving.updatedAt ∧ saving.record.importance ≠ "nan" := by
  have made := saving.made
  have numbers : ∀ errors, EpisodeRecord.importance errors ≠ "nan" := by
    intro errors
    unfold EpisodeRecord.importance
    split <;> decide
  unfold EpisodeRecord.toMemoryRecord at made
  cases printed : intStr (condense (saving.runtime.run saving.runId saving.userInput)
      saving.episodeId saving.recordedAt).stepCount with
  | none => simp [printed] at made
  | some stepCount =>
      simp only [printed, Option.bind_eq_bind, Option.bind_some, Option.some.injEq] at made
      rw [← made]
      have named := run_runId saving.runtime saving.runId saving.userInput
      exact ⟨rfl, by rw [condense, named], rfl, rfl, numbers _⟩

/-- A record with the contents of the saved one is read as the episode, whatever its own
identifier. -/
theorem fromMemoryRecord_of_reflects {found : MemoryRecord}
    (reflects : Reflects found saving.record) :
    EpisodeRecord.fromMemoryRecord found = some saving.recalled := by
  have made := saving.made
  cases printed : intStr saving.episode.stepCount with
  | none =>
      rw [EpisodeRecord.toMemoryRecord, ← episode, printed] at made
      cases made
  | some stepCount =>
      obtain ⟨episodeId, -, -, -, decisions, errors⟩ := saving.episode.metadata_get? stepCount
      have back := EpisodeRecord.bind_fromMemoryRecord printed saving.name saving.updatedAt
      rw [episode, made, Option.bind_some, ← episode] at back
      have metadata : saving.record.metadata = saving.episode.metadata stepCount := by
        rw [EpisodeRecord.toMemoryRecord, ← episode, printed] at made
        simp only [Option.bind_eq_bind, Option.bind_some, Option.some.injEq] at made
        rw [← made]
      have same : EpisodeRecord.fromMemoryRecord found =
          EpisodeRecord.fromMemoryRecord saving.record := by
        simp only [EpisodeRecord.fromMemoryRecord, reflects.metadata, reflects.content,
          reflects.updatedAt, metadata, episodeId, Option.getD_some]
      rw [same, back, recalled, EpisodeRecord.listField, EpisodeRecord.listField, decisions,
        errors]
      rfl

end Saving

theorem lastPut_savings (savings : List Saving) (name key : String) :
    lastPut (savings.map Saving.write) name key =
      ((savings.filter fun saving =>
        decide (saving.name = name ∧ "episode_" ++ saving.runId = key)).getLast?).map
          Saving.record := by
  rw [lastPut, putsUnder, List.map_map, List.filter_map, List.getLast?_map]
  have same : savings.filter ((fun record : MemoryRecord =>
      decide (record.namespace = name ∧ record.key = key)) ∘ Write.record ∘ Saving.write) =
      savings.filter fun saving =>
        decide (saving.name = name ∧ "episode_" ++ saving.runId = key) := by
    apply List.filter_congr
    intro saving _
    obtain ⟨named, keyed, -⟩ := saving.record_shape
    simp [Saving.write, Write.record, named, keyed]
  rw [same]
  rfl

theorem lastPut_of_lastSaved {savings : List Saving} {name runId : String} {saving : Saving}
    (last : lastSaved savings name runId = some saving) :
    lastPut (savings.map Saving.write) name ("episode_" ++ runId) = some saving.record := by
  have same : (fun saving : Saving =>
      decide (saving.name = name ∧ "episode_" ++ saving.runId = "episode_" ++ runId)) =
      fun saving => decide (saving.name = name ∧ saving.runId = runId) := by
    simp only [String.append_right_inj]
  rw [lastPut_savings, same]
  exact congrArg (Option.map Saving.record) last

theorem lastSaved_of_lastPut {savings : List Saving} {name key : String} {put : MemoryRecord}
    (last : lastPut (savings.map Saving.write) name key = some put) :
    ∃ saving, lastSaved savings name saving.runId = some saving ∧ saving.record = put ∧
      key = "episode_" ++ saving.runId := by
  rw [lastPut_savings, Option.map_eq_some_iff] at last
  obtain ⟨saving, last, rfl⟩ := last
  have member := List.mem_of_getLast? last
  obtain ⟨-, rfl⟩ := of_decide_eq_true (List.mem_filter.mp member).2
  simp only [String.append_right_inj] at last
  exact ⟨saving, last, rfl, rfl⟩

theorem savings_steady (savings : List Saving) : Steady (savings.map Saving.write) := by
  have shapes : ∀ name key put, put ∈ putsUnder (savings.map Saving.write) name key →
      put.memoryType = "episodic" ∧ put.importance ≠ "nan" := by
    intro name key put member
    obtain ⟨write, listed, rfl⟩ := List.mem_map.mp (List.mem_of_mem_filter member)
    obtain ⟨saving, -, rfl⟩ := List.mem_map.mp listed
    obtain ⟨-, -, kind, -, number⟩ := saving.record_shape
    exact ⟨kind, number⟩
  intro name key first last head tail
  obtain ⟨kind, -⟩ := shapes name key first (List.mem_of_head? head)
  obtain ⟨same, number⟩ := shapes name key last (List.mem_of_getLast? tail)
  exact ⟨same.trans kind.symm, number⟩

/-! ## The list of episodes -/

/-- A record of the list, and the saving it holds. -/
structure Holds (savings : List Saving) (name : String) (found : MemoryRecord)
    (saving : Saving) : Prop where
  last : lastSaved savings name saving.runId = some saving
  key : found.key = "episode_" ++ saving.runId
  reflects : Reflects found saving.record

section Held

variable {savings pool : List Saving} {name : String} {records : List MemoryRecord}

theorem exists_held
    (each : ∀ found ∈ records, ∃ saving, Holds savings name found saving) :
    ∃ pool, List.Forall₂ (Holds savings name) records pool := by
  induction records with
  | nil => exact ⟨[], .nil⟩
  | cons found rest ih =>
      obtain ⟨⟨saving, holds⟩, others⟩ := List.forall_mem_cons.mp each
      obtain ⟨pool, held⟩ := ih others
      exact ⟨saving :: pool, .cons holds held⟩

theorem held_keys (held : List.Forall₂ (Holds savings name) records pool) :
    records.map MemoryRecord.key = (pool.map Saving.runId).map fun runId => "episode_" ++ runId := by
  induction held with
  | nil => rfl
  | cons holds _ ih => simp only [List.map_cons, ih, holds.key]

theorem held_dates (held : List.Forall₂ (Holds savings name) records pool) :
    records.map MemoryRecord.updatedAt = pool.map Saving.updatedAt := by
  induction held with
  | nil => rfl
  | @cons found saving rest others holds _ ih =>
      obtain ⟨-, -, -, dated, -⟩ := saving.record_shape
      simp only [List.map_cons, ih, holds.reflects.updatedAt, dated]

theorem held_read (held : List.Forall₂ (Holds savings name) records pool) :
    records.mapM EpisodeRecord.fromMemoryRecord = some (pool.map Saving.recalled) := by
  induction held with
  | nil => rfl
  | @cons found saving rest others holds _ ih =>
      rw [List.mapM_cons, saving.fromMemoryRecord_of_reflects holds.reflects, ih]
      rfl

theorem mem_held (held : List.Forall₂ (Holds savings name) records pool) {saving : Saving}
    (member : saving ∈ pool) : lastSaved savings name saving.runId = some saving := by
  induction held with
  | nil => cases member
  | cons holds _ ih =>
      rcases List.mem_cons.mp member with rfl | later
      · exact holds.last
      · exact ih later

theorem held_limited (held : List.Forall₂ (Holds savings name) records pool) (limit : Int) :
    List.Forall₂ (Holds savings name) (SQLiteMemoryStore.limited limit records)
      (SQLiteMemoryStore.limited limit pool) := by
  unfold SQLiteMemoryStore.limited
  split
  · exact held
  · exact List.forall₂_take limit.toNat held

end Held

/-- The savings of a namespace that are remembered: the last of each run, the newest first. -/
structure Remembered (savings : List Saving) (name : String) (pool : List Saving) : Prop where
  last : ∀ saving, saving ∈ pool ↔ lastSaved savings name saving.runId = some saving
  once : (pool.map Saving.runId).Nodup
  newestFirst : pool.Pairwise fun first second => second.updatedAt ≤ first.updatedAt

/-- However runs of any runtimes are condensed and stored, in any namespaces and also more
than once, the list of a namespace holds the episode stored last for each of its runs, the
newest first, up to the limit. -/
theorem saved_runs_recalled {savings : List Saving} {store : SQLiteMemoryStore}
    (saved : SQLiteMemoryStore.init.writeAll (savings.map Saving.write) = .ok store)
    (name : String) :
    ∃ pool, Remembered savings name pool ∧
      ∀ limit, SQLiteMemoryStore.SqlInteger limit →
        ∃ records, store.listEpisodesByNamespace name limit = .ok records ∧
          records.mapM EpisodeRecord.fromMemoryRecord =
            some ((SQLiteMemoryStore.limited limit pool).map Saving.recalled) := by
  obtain ⟨records, listed, sorted, limits⟩ :=
    (readsWrites_of_steady saved (savings_steady savings)).episodes name
  have each : ∀ found ∈ records, ∃ saving, Holds savings name found saving := by
    intro found member
    obtain ⟨put, last, -, reflects⟩ := listed.sound found member
    obtain ⟨saving, lastOne, rfl, key⟩ := lastSaved_of_lastPut last
    exact ⟨saving, lastOne, key, reflects⟩
  obtain ⟨pool, held⟩ := exists_held each
  refine ⟨pool, ⟨fun saving => ⟨mem_held held, fun last => ?_⟩, ?_, ?_⟩, fun limit integer => ?_⟩
  · have kind := saving.record_shape.2.2.1
    have known := listed.complete _ _ (lastPut_of_lastSaved last) kind
    rw [held_keys held] at known
    obtain ⟨runId, listedRun, same⟩ := List.mem_map.mp known
    obtain ⟨other, member, rfl⟩ := List.mem_map.mp listedRun
    rw [String.append_right_inj] at same
    have lastOther := mem_held held member
    rw [same, last, Option.some.injEq] at lastOther
    rwa [lastOther]
  · have distinct := listed.distinct
    rw [held_keys held] at distinct
    exact distinct.of_map
  · have dates : (records.map MemoryRecord.updatedAt).Pairwise fun first second =>
        second ≤ first := List.pairwise_map.mpr sorted
    rw [held_dates held, List.pairwise_map] at dates
    exact dates
  · refine ⟨_, (limits limit).trans (if_pos integer), ?_⟩
    exact held_read (held_limited held limit)

/-- The same run of an unknown tool, stored under identifiers and dates of its own. -/
def ghostSaving (episodeId updatedAt : String) (record : MemoryRecord)
    (made : (condense ((scripted ⟨.empty⟩ [callMessage ⟨"c1", "ghost_tool", []⟩]).run "r1"
      "Compare the rates.") episodeId "2026-01-01T00:00:00+00:00").toMemoryRecord "runs"
        updatedAt = some record) : Saving where
  runtime := scripted ⟨.empty⟩ [callMessage ⟨"c1", "ghost_tool", []⟩]
  runId := "r1"
  userInput := "Compare the rates."
  episodeId := episodeId
  recordedAt := "2026-01-01T00:00:00+00:00"
  name := "runs"
  updatedAt := updatedAt
  record := record
  made := made

def ghostRecord (episodeId updatedAt : String) : MemoryRecord where
  memoryId := episodeId
  «namespace» := "runs"
  key := "episode_r1"
  memoryType := "episodic"
  content := "Compare the rates."
  importance := "0.8"
  updatedAt := updatedAt
  metadata := (((((OrderedDict.empty.insert "episode_id" episodeId).insert
    "run_id" "r1").insert
    "outcome" "failed").insert
    "step_count" "1").insert
    "decisions" "called ghost_tool (call_id=c1)").insert
    "errors" "ghost_tool: \"Unknown tool: 'ghost_tool'\""

theorem ghost_recalled_once :
    ∃ savings store, savings.length = 2 ∧
      SQLiteMemoryStore.init.writeAll (savings.map Saving.write) = .ok store ∧
      ∃ pool, Remembered savings "runs" pool ∧
        ∀ limit, SQLiteMemoryStore.SqlInteger limit →
          ∃ records, store.listEpisodesByNamespace "runs" limit = .ok records ∧
            records.mapM EpisodeRecord.fromMemoryRecord =
              some ((SQLiteMemoryStore.limited limit pool).map Saving.recalled) := by
  let savings := [
    ghostSaving "e1" "2026-01-01T00:05:00+00:00" (ghostRecord "e1" "2026-01-01T00:05:00+00:00")
      (by decide +kernel),
    ghostSaving "e2" "2026-01-02T00:05:00+00:00" (ghostRecord "e2" "2026-01-02T00:05:00+00:00")
      (by decide +kernel)]
  have succeeds : (SQLiteMemoryStore.init.writeAll (savings.map Saving.write)).isOk = true := by
    decide +kernel
  cases saved : SQLiteMemoryStore.init.writeAll (savings.map Saving.write) with
  | error error =>
      rw [saved] at succeeds
      cases succeeds
  | ok store => exact ⟨savings, store, rfl, saved, saved_runs_recalled saved "runs"⟩

/-! ## Episodes that come back as they were told -/

/-- No text that goes into the decision or the error of the result has a `|`. -/
structure Unbarred (rationale : Option PlannerRationale) (result : ToolResult) : Prop where
  toolName : '|' ∉ result.toolName.toList
  callId : '|' ∉ result.callId.toList
  rationale : ∀ given, rationale = some given → '|' ∉ given.summary.toList
  error : ∀ error, result.error = some error → '|' ∉ error.message.toList

theorem not_bar_mem_decision_iff (toolName callId : String) (rationale : Option PlannerRationale) :
    '|' ∉ (decision toolName callId rationale).toList ↔
      '|' ∉ toolName.toList ∧ '|' ∉ callId.toList ∧
        ∀ given, rationale = some given → '|' ∉ given.summary.toList := by
  cases rationale with
  | none => simp [decision]
  | some given => simp [decision]

theorem not_bar_mem_errorMsg_iff (toolName : String) (error : AgentError) :
    '|' ∉ (errorMsg toolName error).toList ↔
      '|' ∉ toolName.toList ∧ '|' ∉ error.message.toList := by
  simp [errorMsg]

/-- A list of decisions or of errors is never the list of the empty text alone. -/
theorem separable_iff {texts : List String} (nonempty : ∀ text ∈ texts, text ≠ "") :
    Separable texts ↔ ∀ text ∈ texts, '|' ∉ text.toList := by
  have told : texts ≠ [""] := by
    intro only
    exact nonempty "" (by simp [only]) rfl
  exact and_iff_right told

theorem decision_ne_empty (toolName callId : String) (rationale : Option PlannerRationale) :
    decision toolName callId rationale ≠ "" := by
  intro empty
  have chars := congrArg String.toList empty
  cases rationale <;> simp [decision] at chars

theorem errorMsg_ne_empty (toolName : String) (error : AgentError) :
    errorMsg toolName error ≠ "" := by
  intro empty
  have chars := congrArg String.toList empty
  simp [errorMsg] at chars

theorem mem_failures {results : List ToolResult} {text : String} :
    text ∈ results.filterMap failure? ↔ ∃ result ∈ results, result.ok = false ∧
      ∃ error, result.error = some error ∧ text = errorMsg result.toolName error := by
  rw [List.mem_filterMap]
  refine exists_congr fun result => and_congr_right fun _ => ?_
  cases ok : result.ok with
  | true => simp [failure?, ok]
  | false =>
      cases error : result.error with
      | none => simp [failure?, ok, error]
      | some agentError => simp [failure?, ok, error, eq_comm]

/-- The episode of a run comes back as it was told exactly if no call that has a result has a
`|` in its tool, its identifier, its rationale or its error. -/
theorem recalled_as_told_iff (saving : Saving) :
    ∃ rounds : List Round,
      (saving.runtime.run saving.runId saving.userInput).messages =
          promptOf saving.userInput :: rounds.flatMap Round.messages ∧
        (saving.recalled = { saving.episode with recordedAt := saving.updatedAt } ↔
          ∀ round ∈ rounds, ∀ result ∈ round.results,
            Unbarred round.reply.rationale result) := by
  obtain ⟨rounds, recounted⟩ := runSession_recounted saving.runtime saving.runId saving.userInput
  have counted := (runSession_stopped saving.runtime saving.runId saving.userInput).2.stepCount
  have condensed := recounted.condense counted
    (saving.runtime.runSession saving.runId saving.userInput).events saving.episodeId
      saving.recordedAt
  have decisions : saving.episode.keyDecisions = rounds.flatMap roundDecisions :=
    congrArg EpisodeRecord.keyDecisions condensed
  have errors : saving.episode.errorMessages = (resultsOf rounds).filterMap failure? :=
    congrArg EpisodeRecord.errorMessages condensed
  refine ⟨rounds, recounted.messages, ?_⟩
  have lists : saving.recalled = { saving.episode with recordedAt := saving.updatedAt } ↔
      Separable (rounds.flatMap roundDecisions) ∧
        Separable ((resultsOf rounds).filterMap failure?) := by
    rw [← recut_eq_iff, ← recut_eq_iff, ← decisions, ← errors, EpisodeRecord.ext_iff]
    simp [Saving.recalled]
  have told : ∀ text ∈ rounds.flatMap roundDecisions, text ≠ "" := by
    intro text member
    obtain ⟨round, -, listed⟩ := List.mem_flatMap.mp member
    obtain ⟨result, -, rfl⟩ := List.mem_map.mp listed
    exact decision_ne_empty _ _ _
  have failed : ∀ text ∈ (resultsOf rounds).filterMap failure?, text ≠ "" := by
    intro text member
    obtain ⟨result, -, -, error, -, rfl⟩ := mem_failures.mp member
    exact errorMsg_ne_empty _ _
  rw [lists, separable_iff told, separable_iff failed]
  constructor
  · intro apart round member result listed
    have inDecisions : decision result.toolName result.callId round.reply.rationale ∈
        rounds.flatMap roundDecisions :=
      List.mem_flatMap.mpr ⟨round, member, List.mem_map.mpr ⟨result, listed, rfl⟩⟩
    obtain ⟨toolName, callId, rationale⟩ :=
      (not_bar_mem_decision_iff _ _ _).mp (apart.1 _ inDecisions)
    refine ⟨toolName, callId, rationale, fun error given => ?_⟩
    have among : result ∈ resultsOf rounds := List.mem_flatMap.mpr ⟨round, member, listed⟩
    have failing : result.ok = false := by
      rw [recounted.excused result among, given]
      rfl
    have inErrors : errorMsg result.toolName error ∈ (resultsOf rounds).filterMap failure? :=
      mem_failures.mpr ⟨result, among, failing, error, given, rfl⟩
    exact ((not_bar_mem_errorMsg_iff _ _).mp (apart.2 _ inErrors)).2
  · intro unbarred
    refine ⟨fun text member => ?_, fun text member => ?_⟩
    · obtain ⟨round, listedRound, listed⟩ := List.mem_flatMap.mp member
      obtain ⟨result, listedResult, rfl⟩ := List.mem_map.mp listed
      have plain := unbarred round listedRound result listedResult
      exact (not_bar_mem_decision_iff _ _ _).mpr ⟨plain.toolName, plain.callId, plain.rationale⟩
    · obtain ⟨result, among, -, error, given, rfl⟩ := mem_failures.mp member
      obtain ⟨round, listedRound, listedResult⟩ := List.mem_flatMap.mp among
      have plain := unbarred round listedRound result listedResult
      exact (not_bar_mem_errorMsg_iff _ _).mpr ⟨plain.toolName, plain.error error given⟩

end DurableAgent.Memory
