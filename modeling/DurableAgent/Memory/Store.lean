import DurableAgent.Library.UniqueTable
import DurableAgent.Memory.Models
import Mathlib.Data.List.Sort
import Mathlib.Data.String.Basic

/-!
# The memory store

`memory/sqlite_store.py`. The database is the table `memories` with its two
uniqueness constraints; the JSON text of a row's metadata is the mapping that
it encodes.
-/

set_option autoImplicit false

namespace DurableAgent.Memory

open Library

inductive StoreError where
  | integrityError (message : String)
  | overflowError
  | validationError
  | valueError (message : String)
  deriving DecidableEq

structure Row where
  memoryId : String
  «namespace» : String
  key : String
  memoryType : String
  content : String
  importance : Option String
  updatedAt : String
  metadata : OrderedDict String String
  deriving DecidableEq

def unsignedZero (repr : String) : String := if repr = "-0.0" then "0.0" else repr

/-- What a column `REAL` holds of a float; SQLite has no NaN and stores `NULL` for it. -/
def storedReal (repr : String) : Option String :=
  if repr = "nan" then none else some (unsignedZero repr)

def Row.ofRecord (record : MemoryRecord) : Row where
  memoryId := record.memoryId
  «namespace» := record.namespace
  key := record.key
  memoryType := record.memoryType
  content := record.content
  importance := storedReal record.importance
  updatedAt := record.updatedAt
  metadata := record.metadata

/-- The model `MemoryRecord` rejects a missing importance. -/
def Row.toRecord (row : Row) : Except StoreError MemoryRecord :=
  match row.importance with
  | none => .error .validationError
  | some importance => .ok {
      memoryId := row.memoryId
      «namespace» := row.namespace
      key := row.key
      memoryType := row.memoryType
      content := row.content
      importance := importance
      updatedAt := row.updatedAt
      metadata := row.metadata }

/-- `memory_id` is the primary key, `(namespace, key)` is unique, and a conflict on the
latter updates four of the columns. -/
def memories : TableSchema Row String (String × String) where
  identify := Row.memoryId
  locate := fun row => (row.namespace, row.key)
  merge := fun old row => { old with
    content := row.content
    updatedAt := row.updatedAt
    importance := row.importance
    metadata := row.metadata }
  identify_merge _ _ := rfl
  locate_merge _ _ := rfl

structure SQLiteMemoryStore where
  table : UniqueTable memories

namespace SQLiteMemoryStore

def init : SQLiteMemoryStore := ⟨UniqueTable.empty⟩

def putMemory (store : SQLiteMemoryStore) (record : MemoryRecord) :
    Except StoreError SQLiteMemoryStore :=
  match store.table.upsert (Row.ofRecord record) with
  | none => .error (.integrityError "UNIQUE constraint failed: memories.memory_id")
  | some table => .ok ⟨table⟩

def getMemoryByKey (store : SQLiteMemoryStore) (name key : String) :
    Except StoreError (Option MemoryRecord) :=
  match store.table.find? (name, key) with
  | none => .ok none
  | some row => row.toRecord.map some

def inNamespace (name : String) (key : String × String) : Bool := decide (key.1 = name)

/-- The rows of a namespace as the index on `(namespace, key)` yields them; SQLite promises
no order. -/
def rowsOf (store : SQLiteMemoryStore) (name : String) : List Row :=
  (store.table.restrict (inNamespace name)).rows.insertionSort
    fun first second => first.key ≤ second.key

def listNamespaceMemories (store : SQLiteMemoryStore) (name : String) :
    Except StoreError (List MemoryRecord) :=
  (store.rowsOf name).mapM Row.toRecord

/-- The integers that a statement can be given. -/
def SqlInteger (number : Int) : Prop :=
  -9223372036854775808 ≤ number ∧ number ≤ 9223372036854775807

instance (number : Int) : Decidable (SqlInteger number) := by
  unfold SqlInteger
  infer_instance

/-- `LIMIT`; a negative one is none. -/
def limited {α : Type} (limit : Int) (rows : List α) : List α :=
  if limit < 0 then rows else rows.take limit.toNat

theorem map_limited {α β : Type} (limit : Int) (f : α → β) (rows : List α) :
    (limited limit rows).map f = limited limit (rows.map f) := by
  unfold limited
  split
  · rfl
  · exact List.map_take

theorem mem_of_mem_limited {α : Type} {limit : Int} {rows : List α} {row : α}
    (member : row ∈ limited limit rows) : row ∈ rows := by
  unfold limited at member
  split at member
  · exact member
  · exact List.mem_of_mem_take member

def episodeRows (store : SQLiteMemoryStore) (name : String) : List Row :=
  ((store.rowsOf name).filter fun row => decide (row.memoryType = "episodic")).insertionSort
    fun first second => second.updatedAt ≤ first.updatedAt

def listEpisodesByNamespace (store : SQLiteMemoryStore) (name : String) (limit : Int := 10) :
    Except StoreError (List MemoryRecord) :=
  if SqlInteger limit then (limited limit (store.episodeRows name)).mapM Row.toRecord
  else .error .overflowError

def putEpisode (store : SQLiteMemoryStore) (record : MemoryRecord) :
    Except StoreError SQLiteMemoryStore :=
  if record.memoryType ≠ "episodic" then
    .error (.valueError
      ("put_episode requires memory_type='episodic', got '" ++ record.memoryType ++ "'"))
  else store.putMemory record

theorem putMemory_eq_ok {store next : SQLiteMemoryStore} {record : MemoryRecord}
    (stored : store.putMemory record = .ok next) :
    store.table.upsert (Row.ofRecord record) = some next.table := by
  unfold putMemory at stored
  cases inserted : store.table.upsert (Row.ofRecord record) with
  | none => simp [inserted] at stored
  | some table =>
      simp only [inserted, Except.ok.injEq] at stored
      rw [← stored]

theorem putEpisode_eq_ok {store next : SQLiteMemoryStore} {record : MemoryRecord}
    (stored : store.putEpisode record = .ok next) : store.putMemory record = .ok next := by
  unfold putEpisode at stored
  split at stored
  · cases stored
  · exact stored

end SQLiteMemoryStore

inductive Write where
  | putMemory (record : MemoryRecord)
  | putEpisode (record : MemoryRecord)
  deriving DecidableEq

namespace Write

def record : Write → MemoryRecord
  | .putMemory record => record
  | .putEpisode record => record

def apply (store : SQLiteMemoryStore) : Write → Except StoreError SQLiteMemoryStore
  | .putMemory record => store.putMemory record
  | .putEpisode record => store.putEpisode record

theorem apply_eq_ok {store next : SQLiteMemoryStore} {write : Write}
    (applied : write.apply store = .ok next) :
    store.table.upsert (Row.ofRecord write.record) = some next.table := by
  cases write with
  | putMemory record => exact SQLiteMemoryStore.putMemory_eq_ok applied
  | putEpisode record =>
      exact SQLiteMemoryStore.putMemory_eq_ok (SQLiteMemoryStore.putEpisode_eq_ok applied)

end Write

def SQLiteMemoryStore.writeAll (store : SQLiteMemoryStore) (writes : List Write) :
    Except StoreError SQLiteMemoryStore :=
  writes.foldlM Write.apply store

end DurableAgent.Memory
