import DurableAgent.Memory.Models

/-!
# Episodes in storage

Which episodes come back from their memory records as they were.
-/

set_option autoImplicit false

namespace DurableAgent.Memory

open Library Python

/-- The texts of a list that joining with `|` keeps apart. -/
def Separable (texts : List String) : Prop :=
  texts ≠ [""] ∧ ∀ text ∈ texts, '|' ∉ text.toList

namespace EpisodeRecord

theorem listField_joinOn_iff {entries : OrderedDict String String} {field : String}
    {texts : List String} (stored : entries.get? field = some (joinOn '|' texts)) :
    listField entries field = texts ↔ Separable texts := by
  rw [listField, stored]
  show (if joinOn '|' texts = "" then [] else splitOn '|' (joinOn '|' texts)) = texts ↔ _
  split
  · next empty =>
      rcases (joinOn_eq_empty_iff '|' texts).mp empty with rfl | rfl
      · simp [Separable]
      · simp [Separable]
  · next printed =>
      rw [joinOn_eq_empty_iff, not_or] at printed
      rw [splitOn_joinOn_iff, Separable]
      exact and_congr_left fun _ => ⟨fun _ => printed.2, fun _ => printed.1⟩

theorem metadata_get? (episode : EpisodeRecord) (stepCount : String) :
    (episode.metadata stepCount).get? "episode_id" = some episode.episodeId ∧
      (episode.metadata stepCount).get? "run_id" = some episode.runId ∧
      (episode.metadata stepCount).get? "outcome" = some episode.outcome ∧
      (episode.metadata stepCount).get? "step_count" = some stepCount ∧
      (episode.metadata stepCount).get? "decisions" = some (joinOn '|' episode.keyDecisions) ∧
      (episode.metadata stepCount).get? "errors" = some (joinOn '|' episode.errorMessages) := by
  refine ⟨?_, ?_, ?_, ?_, ?_, ?_⟩ <;>
    simp (disch := decide) only [metadata, OrderedDict.get?_insert_of_ne,
      OrderedDict.get?_insert_self]

/-- What comes back of an episode that can be stored. -/
theorem bind_fromMemoryRecord {episode : EpisodeRecord} {stepCount : String}
    (printed : intStr episode.stepCount = some stepCount) (name now : String) :
    (episode.toMemoryRecord name now).bind fromMemoryRecord = some { episode with
      keyDecisions := listField (episode.metadata stepCount) "decisions"
      errorMessages := listField (episode.metadata stepCount) "errors"
      recordedAt := now } := by
  obtain ⟨episodeId, runId, outcome, count, -, -⟩ := metadata_get? episode stepCount
  simp [toMemoryRecord, fromMemoryRecord, printed, episodeId, runId, outcome, count,
    intOf_intStr printed]

/-- An episode comes back as it was exactly if it is stored at the time it was recorded,
its step count can be printed and its texts are kept apart. -/
theorem roundTrip_iff (episode : EpisodeRecord) (name now : String) :
    (episode.toMemoryRecord name now).bind fromMemoryRecord = some episode ↔
      now = episode.recordedAt ∧ episode.stepCount.natAbs.repr.length ≤ maxStrDigits ∧
        Separable episode.keyDecisions ∧ Separable episode.errorMessages := by
  rw [← intStr_isSome_iff]
  cases printed : intStr episode.stepCount with
  | none => simp [toMemoryRecord, printed]
  | some stepCount =>
      obtain ⟨-, -, -, -, decisions, errors⟩ := metadata_get? episode stepCount
      rw [bind_fromMemoryRecord printed, ← listField_joinOn_iff decisions,
        ← listField_joinOn_iff errors, Option.some.injEq, EpisodeRecord.ext_iff]
      simp only [true_and, Option.isSome_some]
      exact ⟨fun ⟨kept, told, dated⟩ => ⟨dated, kept, told⟩,
        fun ⟨dated, kept, told⟩ => ⟨kept, told, dated⟩⟩

def piped : EpisodeRecord where
  episodeId := "e1"
  runId := "run-001"
  taskSummary := "Compare the rates."
  outcome := "completed"
  keyDecisions := ["called lookup (call_id=c1): rate|spread"]
  stepCount := 1
  recordedAt := "2026-01-01T00:00:00+00:00"

theorem piped_decision_split :
    (piped.toMemoryRecord "runs" "2026-01-01T00:05:00+00:00").bind fromMemoryRecord =
      some { piped with
        keyDecisions := ["called lookup (call_id=c1): rate", "spread"]
        recordedAt := "2026-01-01T00:05:00+00:00" } ∧
    (piped.toMemoryRecord "runs" piped.recordedAt).bind fromMemoryRecord ≠ some piped := by
  decide +kernel

end EpisodeRecord

end DurableAgent.Memory
