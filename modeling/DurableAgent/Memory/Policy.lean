import DurableAgent.Library.Delimited
import DurableAgent.Memory.ReadYourWrites
import DurableAgent.Python.Case
import DurableAgent.Runtime.Trajectory

/-!
# The memory write policy

`memory/policy.py`, and the block that a run renders from the memories. The policy
reads the content of a candidate and nothing else of it.
-/

set_option autoImplicit false

open DurableAgent.Runtime (AgentRuntime)

namespace DurableAgent.Memory

open Library Python

/-- What a call is given, by its caller, by `uuid4` and by the clock. -/
structure Candidate where
  «namespace» : String
  key : String
  content : String
  memoryType : String := "semantic"
  memoryId : String
  updatedAt : String

def Candidate.record (candidate : Candidate) : MemoryRecord where
  memoryId := candidate.memoryId
  «namespace» := candidate.namespace
  key := candidate.key
  memoryType := candidate.memoryType
  content := candidate.content
  updatedAt := candidate.updatedAt

namespace MemoryWritePolicy

def forbiddenKeywords : List String :=
  ["ignore previous", "delete all", "system instruction", "override runtime"]

inductive Review where
  | committed
  | rejectedSensitive
  | skippedNoise
  deriving DecidableEq

variable (data : CaseData)

def forbids (text : String) : Bool :=
  let lowered := data.lower text
  forbiddenKeywords.any fun keyword => occursIn keyword lowered

def noise (content : String) : Bool := decide ((strip content).length < 5)

def inspectAndCommit (store : SQLiteMemoryStore) (candidate : Candidate) :
    Except StoreError (SQLiteMemoryStore × Review) :=
  if forbids data candidate.content then .ok (store, .rejectedSensitive)
  else if noise candidate.content then .ok (store, .skippedNoise)
  else (store.putMemory candidate.record).map fun next => (next, .committed)

/-- The store after a series of calls, none of which raises an exception. -/
def inspectAll (store : SQLiteMemoryStore) (candidates : List Candidate) :
    Except StoreError SQLiteMemoryStore :=
  candidates.foldlM (fun store candidate => (inspectAndCommit data store candidate).map Prod.fst)
    store

/-- The policy has nothing against the content. -/
def admits (candidate : Candidate) : Bool :=
  !forbids data candidate.content && !noise candidate.content

def admitted (candidates : List Candidate) : List Write :=
  (candidates.filter (admits data)).map fun candidate => .putMemory candidate.record

theorem inspectAndCommit_store (store : SQLiteMemoryStore) (candidate : Candidate) :
    (inspectAndCommit data store candidate).map Prod.fst =
      if admits data candidate then store.putMemory candidate.record else .ok store := by
  unfold inspectAndCommit admits
  cases sensitive : forbids data candidate.content with
  | true => rfl
  | false =>
      cases short : noise candidate.content with
      | true => rfl
      | false =>
          cases put : store.putMemory candidate.record with
          | error error => simp [Except.map]
          | ok next => simp [Except.map]

/-- The calls write what the policy admits. -/
theorem inspectAll_eq_writeAll (store : SQLiteMemoryStore) (candidates : List Candidate) :
    inspectAll data store candidates = store.writeAll (admitted data candidates) := by
  induction candidates generalizing store with
  | nil => rfl
  | cons candidate rest ih =>
      rw [inspectAll, List.foldlM_cons, inspectAndCommit_store]
      cases admits : admits data candidate with
      | false =>
          have passed : admitted data (candidate :: rest) = admitted data rest := by
            simp [admitted, admits]
          rw [passed]
          exact ih store
      | true =>
          have written : admitted data (candidate :: rest) =
              .putMemory candidate.record :: admitted data rest := by
            simp [admitted, admits]
          rw [written, SQLiteMemoryStore.writeAll, List.foldlM_cons]
          simp only [Write.apply, if_true]
          cases store.putMemory candidate.record with
          | error error => rfl
          | ok next => exact ih next

/-! ## The block of the memories -/

theorem forbids_iff (text : String) :
    forbids data text = true ↔
      ∃ keyword ∈ forbiddenKeywords, keyword.toList <:+: text.toList.flatMap data.plain := by
  have few : ∀ keyword ∈ forbiddenKeywords,
      'σ' ∉ keyword.toList ∧ 'ς' ∉ keyword.toList := by decide +kernel
  rw [forbids, List.any_eq_true]
  refine exists_congr fun keyword => and_congr_right fun member => ?_
  exact data.occursIn_lower_iff (few keyword member).1 (few keyword member).2 text

def heading : String := "[retrieved long-term preferences for namespace "

/-- No keyword can reach across the delimiters of the block. -/
structure Compact (keyword : List Char) : Prop where
  lacks : '\n' ∉ keyword ∧ ']' ∉ keyword ∧ ':' ∉ keyword
  nonempty : keyword ≠ []
  starts : keyword.head? ≠ some '\n' ∧ keyword.head? ≠ some '-' ∧ keyword.head? ≠ some ' '
  foreign : ∀ tail ∈ heading.toList.tails, tail ≠ [] → ¬ tail <+: keyword ∧ ¬ keyword <+: tail

theorem keyword_compact : ∀ keyword ∈ forbiddenKeywords, Compact keyword.toList := by
  have lacks : ∀ keyword ∈ forbiddenKeywords,
      '\n' ∉ keyword.toList ∧ ']' ∉ keyword.toList ∧ ':' ∉ keyword.toList := by decide +kernel
  have nonempty : ∀ keyword ∈ forbiddenKeywords, keyword.toList ≠ [] := by decide +kernel
  have starts : ∀ keyword ∈ forbiddenKeywords, keyword.toList.head? ≠ some '\n' ∧
      keyword.toList.head? ≠ some '-' ∧ keyword.toList.head? ≠ some ' ' := by decide +kernel
  have foreign : ∀ keyword ∈ forbiddenKeywords, ∀ tail ∈ heading.toList.tails, tail ≠ [] →
      ¬ tail <+: keyword.toList ∧ ¬ keyword.toList <+: tail := by decide +kernel
  exact fun keyword member => ⟨lacks keyword member, nonempty keyword member,
    starts keyword member, foreign keyword member⟩

def entryChars (key content : List Char) : List Char := '-' :: ' ' :: (key ++ ':' :: ' ' :: content)

namespace Compact

variable {keyword : List Char} (compact : Compact keyword)

include compact

theorem infix_entry_iff (key content : List Char) :
    keyword <:+: entryChars key content ↔ keyword <:+: key ∨ keyword <:+: content := by
  obtain ⟨_, dash, space⟩ := compact.starts
  rw [entryChars, infix_cons_iff_of_head? compact.nonempty dash,
    infix_cons_iff_of_head? compact.nonempty space, infix_separated_iff compact.lacks.2.2,
    infix_cons_iff_of_head? compact.nonempty space]

theorem infix_block_iff (name : List Char) (entries : List (List Char)) :
    keyword <:+: heading.toList ++ name ++ ']' :: '\n' :: ['\n'].intercalate entries ↔
      keyword <:+: name ∨ ∃ entry ∈ entries, keyword <:+: entry := by
  obtain ⟨newline, bracket, _⟩ := compact.lacks
  rw [infix_separated_iff bracket, infix_append_iff_of_tails compact.foreign,
    infix_cons_iff_of_head? compact.nonempty compact.starts.1,
    infix_intercalate_iff newline compact.nonempty]

end Compact

theorem heading_lowered :
    "[Retrieved Long-Term Preferences for Namespace ".toList.flatMap data.plain =
      heading.toList :=
  (data.flatMap_plain_of_ascii (by decide +kernel)).trans (by decide +kernel)

/-- The lower case of the block, up to the kind of its sigmas. -/
theorem memoryItem_lowered (name : String) (memories : List Runtime.MemoryRecord) :
    (AgentRuntime.memoryItem name memories).content.toList.flatMap data.plain =
      heading.toList ++ name.toList.flatMap data.plain ++ ']' :: '\n' ::
        ['\n'].intercalate (memories.map fun memory =>
          entryChars (memory.key.toList.flatMap data.plain)
            (memory.content.toList.flatMap data.plain)) := by
  have close : "]\n".toList.flatMap data.plain = [']', '\n'] := rfl
  have dash : "- ".toList.flatMap data.plain = ['-', ' '] := rfl
  have colon : ": ".toList.flatMap data.plain = [':', ' '] := rfl
  have newline : data.plain '\n' = ['\n'] := rfl
  have lines : "\n".toList = ['\n'] := rfl
  simp only [AgentRuntime.memoryItem, String.toList_append, String.toList_intercalate,
    List.flatMap_append, heading_lowered, close, lines, flatMap_intercalate data.plain newline,
    List.map_map, Function.comp_def, dash, colon, entryChars, List.cons_append, List.nil_append,
    List.append_assoc]

theorem forbids_memoryItem_iff (name : String) (memories : List Runtime.MemoryRecord) :
    forbids data (AgentRuntime.memoryItem name memories).content = true ↔
      forbids data name = true ∨
        ∃ memory ∈ memories, forbids data memory.key = true ∨ forbids data memory.content = true := by
  have each : ∀ keyword ∈ forbiddenKeywords,
      (keyword.toList <:+: (AgentRuntime.memoryItem name memories).content.toList.flatMap data.plain ↔
        keyword.toList <:+: name.toList.flatMap data.plain ∨
          ∃ memory ∈ memories, keyword.toList <:+: memory.key.toList.flatMap data.plain ∨
            keyword.toList <:+: memory.content.toList.flatMap data.plain) := by
    intro keyword member
    have compact := keyword_compact keyword member
    rw [memoryItem_lowered, compact.infix_block_iff]
    simp [compact.infix_entry_iff]
  simp only [forbids_iff]
  constructor
  · rintro ⟨keyword, member, within⟩
    rcases (each keyword member).mp within with named | ⟨memory, listed, key | content⟩
    · exact .inl ⟨keyword, member, named⟩
    · exact .inr ⟨memory, listed, .inl ⟨keyword, member, key⟩⟩
    · exact .inr ⟨memory, listed, .inr ⟨keyword, member, content⟩⟩
  · rintro (⟨keyword, member, named⟩ |
      ⟨memory, listed, ⟨keyword, member, key⟩ | ⟨keyword, member, content⟩⟩)
    · exact ⟨keyword, member, (each keyword member).mpr (.inl named)⟩
    · exact ⟨keyword, member, (each keyword member).mpr (.inr ⟨memory, listed, .inl key⟩)⟩
    · exact ⟨keyword, member, (each keyword member).mpr (.inr ⟨memory, listed, .inr content⟩)⟩

/-- What a run reads of a record. -/
def recalled (record : MemoryRecord) : Runtime.MemoryRecord := ⟨record.key, record.content⟩

/-- The runtime in the namespace, with a store that lists these memories. -/
def remembering (runtime : AgentRuntime) (name : String) (memories : List Runtime.MemoryRecord) :
    AgentRuntime :=
  { runtime with
    currentNamespace := name
    memoryStore := some fun _ => memories }

/-- What a run over the store recalls of a namespace. -/
def recalls (runtime : AgentRuntime) (store : SQLiteMemoryStore) (name : String) :
    Except StoreError (List Context.ContextItem) :=
  (store.listNamespaceMemories name).map fun records =>
    (remembering runtime name (records.map recalled)).recallMemories

/-- A run over the store recalls of the namespace nothing that the policy forbids. -/
def RecallsClean (runtime : AgentRuntime) (store : SQLiteMemoryStore) (name : String) : Prop :=
  ∃ block, recalls runtime store name = .ok block ∧
    ∀ item ∈ block, forbids data item.content = false

theorem mem_recallMemories_iff {runtime : AgentRuntime} {memories : List Runtime.MemoryRecord}
    {name : String} {item : Context.ContextItem} :
    item ∈ (remembering runtime name memories).recallMemories ↔
      memories ≠ [] ∧ item = AgentRuntime.memoryItem name memories := by
  cases memories with
  | nil => simp [remembering, AgentRuntime.recallMemories]
  | cons memory rest => simp [remembering, AgentRuntime.recallMemories]

section Committed

variable {data} {candidates : List Candidate} {store : SQLiteMemoryStore}
  (ran : inspectAll data .init candidates = .ok store)

include ran

theorem admitted_row {candidate : Candidate} (member : candidate ∈ candidates)
    (passed : admits data candidate = true) :
    ∃ row ∈ store.table.rows, row.namespace = candidate.namespace ∧ row.key = candidate.key := by
  rw [inspectAll_eq_writeAll] at ran
  have put : candidate.record ∈
      putsUnder (admitted data candidates) candidate.namespace candidate.key := by
    refine List.mem_filter.mpr ⟨List.mem_map.mpr ⟨.putMemory candidate.record, ?_, rfl⟩, ?_⟩
    · exact List.mem_map.mpr ⟨candidate, List.mem_filter.mpr ⟨member, passed⟩, rfl⟩
    · simp [Candidate.record]
  have last := List.getLast?_eq_some_getLast (List.ne_nil_of_mem put)
  exact row_of_lastPut ran last

theorem row_admitted {row : Row} (member : row ∈ store.table.rows) :
    row.importance ≠ none ∧ ∃ candidate ∈ candidates, admits data candidate = true ∧
      candidate.namespace = row.namespace ∧ candidate.key = row.key ∧
        candidate.content = row.content := by
  rw [inspectAll_eq_writeAll] at ran
  have stands : standing (putsUnder (admitted data candidates) row.namespace row.key) =
      some row := by
    rw [← find?_writeAll ran]
    exact UniqueTable.find?_eq_some_iff.mpr ⟨member, rfl⟩
  obtain ⟨first, last, _, tail, shape⟩ := standing_eq_some stands
  have put := List.mem_of_getLast? tail
  obtain ⟨name, key⟩ := mem_putsUnder put
  obtain ⟨write, written, recorded⟩ := List.mem_map.mp (List.mem_filter.mp put).1
  obtain ⟨candidate, passed, rfl⟩ := List.mem_map.mp written
  obtain ⟨given, admits⟩ := List.mem_filter.mp passed
  subst recorded
  have content : row.content = candidate.content := congrArg Row.content shape
  have importance : row.importance = some "1.0" := congrArg Row.importance shape
  refine ⟨by simp [importance], candidate, given, admits, name, key, content.symm⟩

theorem recalls_rows (runtime : AgentRuntime) (name : String) :
    recalls runtime store name =
      .ok (remembering runtime name
        ((store.rowsOf name).map fun row => recalled row.restored)).recallMemories := by
  have numbers : ∀ row ∈ store.rowsOf name, row.importance ≠ none := fun row listed =>
    (row_admitted ran (mem_rowsOf.mp listed).1).1
  rw [recalls, SQLiteMemoryStore.listNamespaceMemories, mapM_toRecord numbers]
  simp [Except.map, Function.comp_def]

theorem keys_clean {runtime : AgentRuntime} {candidate : Candidate}
    (recallsClean : RecallsClean data runtime store candidate.namespace)
    (member : candidate ∈ candidates) (passed : admits data candidate = true) :
    forbids data candidate.namespace = false ∧ forbids data candidate.key = false := by
  obtain ⟨block, found, clean⟩ := recallsClean
  rw [recalls_rows ran] at found
  obtain rfl := Except.ok.inj found
  obtain ⟨row, stored, here, key⟩ := admitted_row ran member passed
  have among : recalled row.restored ∈
      (store.rowsOf candidate.namespace).map fun row => recalled row.restored :=
    List.mem_map.mpr ⟨row, mem_rowsOf.mpr ⟨stored, here⟩, rfl⟩
  have free := clean _ (mem_recallMemories_iff.mpr ⟨List.ne_nil_of_mem among, rfl⟩)
  rw [← Bool.not_eq_true, forbids_memoryItem_iff, not_or] at free
  refine ⟨eq_false_of_ne_true free.1, ?_⟩
  rw [← key, ← Bool.not_eq_true]
  exact fun found => free.2 ⟨_, among, .inl found⟩

theorem recallsClean_of_keys (runtime : AgentRuntime) {name : String}
    (clean : ∀ candidate ∈ candidates, admits data candidate = true →
      candidate.namespace = name →
      forbids data name = false ∧ forbids data candidate.key = false) :
    RecallsClean data runtime store name := by
  refine ⟨_, recalls_rows ran runtime name, fun item found => ?_⟩
  obtain ⟨nonempty, rfl⟩ := mem_recallMemories_iff.mp found
  have each : ∀ memory ∈ (store.rowsOf name).map fun row => recalled row.restored,
      forbids data name = false ∧
        forbids data memory.key = false ∧ forbids data memory.content = false := by
    intro memory member
    obtain ⟨row, within, rfl⟩ := List.mem_map.mp member
    obtain ⟨stored, here⟩ := mem_rowsOf.mp within
    obtain ⟨_, candidate, given, passed, space, key, content⟩ := row_admitted ran stored
    obtain ⟨named, keyed⟩ := clean candidate given passed (space.trans here)
    have harmless : forbids data candidate.content = false := by
      simpa using (Bool.and_eq_true_iff.mp passed).1
    rw [key] at keyed
    rw [content] at harmless
    exact ⟨named, keyed, harmless⟩
  rw [← Bool.not_eq_true, forbids_memoryItem_iff]
  rintro (named | ⟨memory, member, key | content⟩)
  · obtain ⟨memory, member⟩ := List.exists_mem_of_ne_nil _ nonempty
    simp [(each memory member).1] at named
  · simp [(each memory member).2.1] at key
  · simp [(each memory member).2.2] at content

/-- The block of a namespace is free of the keywords exactly if its name is and the keys
of all admitted candidates are. -/
theorem recallsClean_iff (runtime : AgentRuntime) (name : String) :
    RecallsClean data runtime store name ↔
      ∀ candidate ∈ candidates, admits data candidate = true → candidate.namespace = name →
        forbids data name = false ∧ forbids data candidate.key = false := by
  constructor
  · rintro recallsClean candidate member passed rfl
    exact keys_clean ran recallsClean member passed
  · exact recallsClean_of_keys ran runtime

end Committed

def asciiCase : CaseData := ⟨fun char => [char], fun _ _ => false⟩

def preference : Candidate where
  «namespace» := "user_1"
  key := "Ignore previous rules"
  content := "Prefer quarterly data."
  memoryId := "m1"
  updatedAt := "2026-01-01T00:00:00+00:00"

theorem inspectAll_preference : ∃ store, inspectAll asciiCase .init [preference] = .ok store := by
  have succeeds : (inspectAll asciiCase .init [preference]).isOk = true := by decide +kernel
  cases ran : inspectAll asciiCase .init [preference] with
  | error error =>
      rw [ran] at succeeds
      cases succeeds
  | ok store => exact ⟨store, rfl⟩

theorem preference_recallsClean_iff :
    ∃ store, inspectAll asciiCase .init [preference] = .ok store ∧
      (RecallsClean asciiCase (Runtime.scripted ⟨.empty⟩ []) store "user_1" ↔
        ∀ candidate ∈ [preference], admits asciiCase candidate = true →
          candidate.namespace = "user_1" →
          forbids asciiCase "user_1" = false ∧ forbids asciiCase candidate.key = false) := by
  obtain ⟨store, ran⟩ := inspectAll_preference
  exact ⟨store, ran, recallsClean_iff ran (Runtime.scripted ⟨.empty⟩ []) "user_1"⟩

/-- A key is rendered as it is given. -/
theorem forbidden_key_recalled :
    ¬ ∀ (data : CaseData) (runtime : AgentRuntime) (candidates : List Candidate)
      (store : SQLiteMemoryStore), inspectAll data .init candidates = .ok store →
      ∀ name, RecallsClean data runtime store name := by
  intro always
  obtain ⟨store, ran⟩ := inspectAll_preference
  have recallsClean : RecallsClean asciiCase (Runtime.scripted ⟨.empty⟩ []) store
      preference.namespace := always asciiCase _ [preference] store ran _
  have passed : admits asciiCase preference = true := by decide +kernel
  have forbidden : forbids asciiCase preference.key = true := by decide +kernel
  have clean := (keys_clean ran recallsClean List.mem_cons_self passed).2
  rw [forbidden] at clean
  cases clean

end MemoryWritePolicy

end DurableAgent.Memory
