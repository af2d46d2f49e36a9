import DurableAgent.Memory.Store

/-!
# What a memory store remembers

A row keeps the memory type under which its key was first put and takes
everything else that can be read by key from the last put. Readers agree with
a plain map exactly when this makes no difference.
-/

set_option autoImplicit false

namespace DurableAgent.Memory

open Library

/-- The records put under a key, in the order of the writes. -/
def putsUnder (writes : List Write) (name key : String) : List MemoryRecord :=
  (writes.map Write.record).filter fun record =>
    decide (record.namespace = name ∧ record.key = key)

/-! ## The plain map -/

/-- The map from namespaces and keys to the records last put under them. -/
def lastPut (writes : List Write) (name key : String) : Option MemoryRecord :=
  (putsUnder writes name key).getLast?

/-- `==` on floats. -/
def floatEq (left right : String) : Prop := left ≠ "nan" ∧ unsignedZero left = unsignedZero right

structure Reflects (found put : MemoryRecord) : Prop where
  «namespace» : found.namespace = put.namespace
  key : found.key = put.key
  memoryType : found.memoryType = put.memoryType
  content : found.content = put.content
  importance : floatEq found.importance put.importance
  updatedAt : found.updatedAt = put.updatedAt
  metadata : found.metadata = put.metadata

/-- One record for each key of the namespace under which a record of such a type was put
last. -/
structure OnePerKey (writes : List Write) (name : String) (kind : String → Prop)
    (records : List MemoryRecord) : Prop where
  distinct : (records.map MemoryRecord.key).Nodup
  sound : ∀ found ∈ records, ∃ put, lastPut writes name found.key = some put ∧
    kind put.memoryType ∧ Reflects found put
  complete : ∀ key put, lastPut writes name key = some put → kind put.memoryType →
    key ∈ records.map MemoryRecord.key

structure ReadsWrites (writes : List Write) (store : SQLiteMemoryStore) : Prop where
  byKey : ∀ name key, ∃ found, store.getMemoryByKey name key = .ok found ∧
    Option.Rel Reflects found (lastPut writes name key)
  listed : ∀ name, ∃ records, store.listNamespaceMemories name = .ok records ∧
    OnePerKey writes name (fun _ => True) records
  episodes : ∀ name, ∃ pool, OnePerKey writes name (fun kind => kind = "episodic") pool ∧
    pool.Pairwise (fun first second => second.updatedAt ≤ first.updatedAt) ∧
    ∀ limit, store.listEpisodesByNamespace name limit =
      if SQLiteMemoryStore.SqlInteger limit then
        .ok (SQLiteMemoryStore.limited limit pool)
      else .error .overflowError

/-! ## The rows of the store -/

theorem mem_rowsOf {store : SQLiteMemoryStore} {name : String} {row : Row} :
    row ∈ store.rowsOf name ↔ row ∈ store.table.rows ∧ row.namespace = name := by
  rw [SQLiteMemoryStore.rowsOf, List.mem_insertionSort, UniqueTable.mem_restrict,
    SQLiteMemoryStore.inNamespace, decide_eq_true_iff]
  rfl

theorem rowsOf_keys_nodup (store : SQLiteMemoryStore) (name : String) :
    ((store.rowsOf name).map Row.key).Nodup := by
  have rows : (store.rowsOf name).Nodup :=
    (List.perm_insertionSort _ _).nodup_iff.mpr
      ((store.table.restrict _).keysDistinct.of_map _)
  refine rows.map_on fun first firstMember second secondMember same => ?_
  rw [mem_rowsOf] at firstMember secondMember
  exact UniqueTable.row_unique firstMember.1 secondMember.1
    (Prod.mk_inj.mpr ⟨firstMember.2.trans secondMember.2.symm, same⟩)

theorem episodeRows_perm (store : SQLiteMemoryStore) (name : String) :
    (store.episodeRows name).Perm
      ((store.rowsOf name).filter fun row => decide (row.memoryType = "episodic")) :=
  List.perm_insertionSort _ _

theorem mem_episodeRows {store : SQLiteMemoryStore} {name : String} {row : Row} :
    row ∈ store.episodeRows name ↔
      row ∈ store.table.rows ∧ row.namespace = name ∧ row.memoryType = "episodic" := by
  rw [(episodeRows_perm store name).mem_iff, List.mem_filter, mem_rowsOf, decide_eq_true_iff,
    and_assoc]

theorem episodeRows_keys_nodup (store : SQLiteMemoryStore) (name : String) :
    ((store.episodeRows name).map Row.key).Nodup := by
  rw [((episodeRows_perm store name).map Row.key).nodup_iff]
  exact (rowsOf_keys_nodup store name).sublist (List.filter_sublist.map _)

theorem episodeRows_sorted (store : SQLiteMemoryStore) (name : String) :
    (store.episodeRows name).Pairwise fun first second => second.updatedAt ≤ first.updatedAt := by
  have total : Std.Total fun first second : Row => second.updatedAt ≤ first.updatedAt :=
    ⟨fun first second => le_total second.updatedAt first.updatedAt⟩
  have transitive : IsTrans Row fun first second => second.updatedAt ≤ first.updatedAt :=
    ⟨fun _ _ _ later earlier => le_trans earlier later⟩
  exact List.pairwise_insertionSort _ _

/-- The row that a series of puts under one key leaves. -/
def standing (puts : List MemoryRecord) : Option Row :=
  match puts.head?, puts.getLast? with
  | some first, some last => some (memories.merge (Row.ofRecord first) (Row.ofRecord last))
  | _, _ => none

theorem standing_concat (puts : List MemoryRecord) (put : MemoryRecord) :
    standing (puts ++ [put]) =
      some ((standing puts).elim (Row.ofRecord put)
        fun old => memories.merge old (Row.ofRecord put)) := by
  cases puts with
  | nil => rfl
  | cons first rest =>
      have last := List.getLast?_eq_some_getLast (List.cons_ne_nil first rest)
      rw [standing, standing, last, List.getLast?_concat]
      rfl

theorem putsUnder_concat (writes : List Write) (write : Write) (name key : String) :
    putsUnder (writes ++ [write]) name key =
      if write.record.namespace = name ∧ write.record.key = key then
        putsUnder writes name key ++ [write.record]
      else putsUnder writes name key := by
  rw [putsUnder, List.map_append, List.filter_append]
  split
  · next under => simp [putsUnder, under]
  · next elsewhere => simp [putsUnder, elsewhere]

theorem writeAll_concat_eq_ok {store last : SQLiteMemoryStore} {writes : List Write}
    {write : Write} (ran : store.writeAll (writes ++ [write]) = .ok last) :
    ∃ middle, store.writeAll writes = .ok middle ∧ write.apply middle = .ok last := by
  simp only [SQLiteMemoryStore.writeAll, List.foldlM_append, List.foldlM_cons, List.foldlM_nil,
    bind_pure] at ran
  cases before : store.writeAll writes with
  | error error =>
      rw [SQLiteMemoryStore.writeAll] at before
      simp [before, bind, Except.bind] at ran
  | ok middle =>
      rw [SQLiteMemoryStore.writeAll] at before
      refine ⟨middle, rfl, ?_⟩
      rwa [before] at ran

/-- By induction on the writes from their end: the last one merges into what stands. -/
theorem find?_writeAll {writes : List Write} {store : SQLiteMemoryStore}
    (ran : SQLiteMemoryStore.init.writeAll writes = .ok store) (name key : String) :
    store.table.find? (name, key) = standing (putsUnder writes name key) := by
  induction writes using List.reverseRecOn generalizing store with
  | nil =>
      cases ran
      rfl
  | append_singleton writes write ih =>
      obtain ⟨middle, before, applied⟩ := writeAll_concat_eq_ok ran
      rw [UniqueTable.find?_upsert (Write.apply_eq_ok applied), putsUnder_concat, ih before]
      have located : memories.locate (Row.ofRecord write.record) = (name, key) ↔
          write.record.namespace = name ∧ write.record.key = key := Prod.mk_inj
      simp only [located]
      split
      · rw [standing_concat]
      · rfl

/-- Under every key the last record has the type of the first, and a number as importance. -/
def Steady (writes : List Write) : Prop :=
  ∀ name key first last, (putsUnder writes name key).head? = some first →
    lastPut writes name key = some last →
    last.memoryType = first.memoryType ∧ last.importance ≠ "nan"

theorem standing_eq_some {puts : List MemoryRecord} {row : Row}
    (stands : standing puts = some row) :
    ∃ first last, puts.head? = some first ∧ puts.getLast? = some last ∧
      row = memories.merge (Row.ofRecord first) (Row.ofRecord last) := by
  unfold standing at stands
  split at stands
  · next first last head tail =>
      exact ⟨first, last, head, tail, (Option.some.inj stands).symm⟩
  · cases stands

theorem standing_of_lastPut {writes : List Write} {name key : String} {last : MemoryRecord}
    (put : lastPut writes name key = some last) :
    ∃ first, (putsUnder writes name key).head? = some first ∧
      standing (putsUnder writes name key) =
        some (memories.merge (Row.ofRecord first) (Row.ofRecord last)) := by
  unfold lastPut at put
  cases head : (putsUnder writes name key).head? with
  | none =>
      rw [List.head?_eq_none_iff] at head
      simp [head] at put
  | some first =>
      refine ⟨first, rfl, ?_⟩
      rw [standing, head, put]

theorem mem_putsUnder {writes : List Write} {name key : String} {record : MemoryRecord}
    (member : record ∈ putsUnder writes name key) :
    record.namespace = name ∧ record.key = key := by
  simpa using (List.mem_filter.mp member).2

/-- The record of a row that holds a number. -/
def Row.restored (row : Row) : MemoryRecord where
  memoryId := row.memoryId
  «namespace» := row.namespace
  key := row.key
  memoryType := row.memoryType
  content := row.content
  importance := row.importance.getD "nan"
  updatedAt := row.updatedAt
  metadata := row.metadata

theorem Row.toRecord_eq_ok {row : Row} (number : row.importance ≠ none) :
    row.toRecord = .ok row.restored := by
  cases held : row.importance with
  | none => exact absurd held number
  | some importance => simp [toRecord, restored, held]

theorem mapM_toRecord {rows : List Row} (numbers : ∀ row ∈ rows, row.importance ≠ none) :
    rows.mapM Row.toRecord = .ok (rows.map Row.restored) := by
  induction rows with
  | nil => rfl
  | cons row rest ih =>
      rw [List.mapM_cons, Row.toRecord_eq_ok (numbers row List.mem_cons_self),
        ih fun other member => numbers other (List.mem_cons_of_mem row member)]
      rfl

theorem storedReal_of_number {repr : String} (number : repr ≠ "nan") :
    storedReal repr = some (unsignedZero repr) := if_neg number

theorem floatEq_unsignedZero {repr : String} (number : repr ≠ "nan") :
    floatEq (unsignedZero repr) repr := by
  unfold floatEq unsignedZero
  split
  · decide
  · simp [number]

/-- A row reflects the last put if its memory type and its importance do. -/
theorem reflects_restored {first last : MemoryRecord}
    (name : first.namespace = last.namespace) (key : first.key = last.key)
    (kind : last.memoryType = first.memoryType) (number : last.importance ≠ "nan") :
    Reflects (memories.merge (Row.ofRecord first) (Row.ofRecord last)).restored last where
  «namespace» := name
  key := key
  memoryType := kind.symm
  content := rfl
  importance := by
    have stored := storedReal_of_number number
    simpa [Row.restored, memories, Row.ofRecord, stored] using floatEq_unsignedZero number
  updatedAt := rfl
  metadata := rfl

section Steady

variable {writes : List Write} {store : SQLiteMemoryStore}
  (ran : SQLiteMemoryStore.init.writeAll writes = .ok store) (steady : Steady writes)

include ran

theorem row_of_lastPut {name key : String} {last : MemoryRecord}
    (put : lastPut writes name key = some last) :
    ∃ row ∈ store.table.rows, row.namespace = name ∧ row.key = key := by
  obtain ⟨first, -, stands⟩ := standing_of_lastPut put
  rw [← find?_writeAll ran, UniqueTable.find?_eq_some_iff] at stands
  obtain ⟨member, located⟩ := stands
  exact ⟨_, member, Prod.mk_inj.mp located⟩

include steady

theorem row_reflects {row : Row} (member : row ∈ store.table.rows) :
    row.importance ≠ none ∧ ∃ put, lastPut writes row.namespace row.key = some put ∧
      put.memoryType = row.memoryType ∧ Reflects row.restored put := by
  have stands : standing (putsUnder writes row.namespace row.key) = some row := by
    rw [← find?_writeAll ran]
    exact UniqueTable.find?_eq_some_iff.mpr ⟨member, rfl⟩
  obtain ⟨first, last, head, tail, shape⟩ := standing_eq_some stands
  obtain ⟨kind, number⟩ := steady _ _ first last head tail
  obtain ⟨firstName, firstKey⟩ := mem_putsUnder (List.mem_of_head? head)
  obtain ⟨lastName, lastKey⟩ := mem_putsUnder (List.mem_of_getLast? tail)
  refine ⟨?_, last, tail, ?_, ?_⟩
  · have stored : row.importance = some (unsignedZero last.importance) := by
      rw [shape]
      exact storedReal_of_number number
    rw [stored]
    exact nofun
  · rw [shape]
    exact kind
  · have reflects := reflects_restored (firstName.trans lastName.symm)
      (firstKey.trans lastKey.symm) kind number
    rwa [← shape] at reflects

theorem onePerKey_restored {name : String} {kind : String → Prop} {rows : List Row}
    (distinct : (rows.map Row.key).Nodup)
    (exact : ∀ row, row ∈ rows ↔
      row ∈ store.table.rows ∧ row.namespace = name ∧ kind row.memoryType) :
    OnePerKey writes name kind (rows.map Row.restored) where
  distinct := by
    rw [List.map_map]
    exact distinct
  sound := by
    intro found listed
    obtain ⟨row, member, rfl⟩ := List.mem_map.mp listed
    obtain ⟨stored, rfl, ofKind⟩ := (exact row).mp member
    obtain ⟨-, put, last, same, reflects⟩ := row_reflects ran steady stored
    exact ⟨put, last, same ▸ ofKind, reflects⟩
  complete := by
    intro key put last ofKind
    obtain ⟨row, stored, rfl, rfl⟩ := row_of_lastPut ran last
    obtain ⟨-, other, otherLast, same, -⟩ := row_reflects ran steady stored
    rw [last, Option.some.injEq] at otherLast
    subst otherLast
    rw [List.map_map]
    exact List.mem_map.mpr ⟨row, (exact row).mpr ⟨stored, rfl, same ▸ ofKind⟩, rfl⟩

theorem readsWrites_of_steady : ReadsWrites writes store where
  byKey := by
    intro name key
    unfold SQLiteMemoryStore.getMemoryByKey
    cases found : store.table.find? (name, key) with
    | none =>
        refine ⟨none, rfl, ?_⟩
        cases put : lastPut writes name key with
        | none => exact .none
        | some last =>
            obtain ⟨first, -, stands⟩ := standing_of_lastPut put
            rw [← find?_writeAll ran, found] at stands
            cases stands
    | some row =>
        obtain ⟨member, located⟩ := UniqueTable.find?_eq_some_iff.mp found
        obtain ⟨rfl, rfl⟩ := Prod.mk_inj.mp located
        obtain ⟨number, put, last, -, reflects⟩ := row_reflects ran steady member
        refine ⟨some row.restored, ?_, ?_⟩
        · simp only [Row.toRecord_eq_ok number]
          rfl
        · rw [last]
          exact .some reflects
  listed := by
    intro name
    have member : ∀ row, row ∈ store.rowsOf name ↔
        row ∈ store.table.rows ∧ row.namespace = name := fun _ => mem_rowsOf
    refine ⟨(store.rowsOf name).map Row.restored, mapM_toRecord fun row listed => ?_,
      onePerKey_restored ran steady (rowsOf_keys_nodup store name) fun row => ?_⟩
    · exact (row_reflects ran steady ((member row).mp listed).1).1
    · rw [member, and_true]
  episodes := by
    intro name
    refine ⟨(store.episodeRows name).map Row.restored,
      onePerKey_restored ran steady (episodeRows_keys_nodup store name) fun _ => mem_episodeRows,
      List.pairwise_map.mpr (episodeRows_sorted store name), fun limit => ?_⟩
    unfold SQLiteMemoryStore.listEpisodesByNamespace
    split
    · rw [mapM_toRecord, SQLiteMemoryStore.map_limited]
      intro row listed
      have member := mem_episodeRows.mp (SQLiteMemoryStore.mem_of_mem_limited listed)
      exact (row_reflects ran steady member.1).1
    · rfl

end Steady

theorem steady_of_readsWrites {writes : List Write} {store : SQLiteMemoryStore}
    (ran : SQLiteMemoryStore.init.writeAll writes = .ok store)
    (reads : ReadsWrites writes store) : Steady writes := by
  intro name key first last head put
  obtain ⟨found, returned, related⟩ := reads.byKey name key
  obtain ⟨other, otherHead, stands⟩ := standing_of_lastPut put
  rw [head, Option.some.injEq] at otherHead
  subst otherHead
  rw [put] at related
  cases related with
  | @some record _ reflects =>
      have row := find?_writeAll ran name key
      rw [stands] at row
      simp only [SQLiteMemoryStore.getMemoryByKey, row] at returned
      by_cases number : last.importance = "nan"
      · simp [Row.toRecord, memories, Row.ofRecord, storedReal, number, Except.map] at returned
      · have held :
            (memories.merge (Row.ofRecord first) (Row.ofRecord last)).importance ≠ none := by
          simp [memories, Row.ofRecord, storedReal, number]
        rw [Row.toRecord_eq_ok held] at returned
        cases returned
        exact ⟨reflects.memoryType.symm, number⟩

/-- After writes that all succeed, the store reads like a plain map exactly if under every
key the last record has the memory type of the first and a number as importance. -/
theorem readsWrites_iff {writes : List Write} {store : SQLiteMemoryStore}
    (ran : SQLiteMemoryStore.init.writeAll writes = .ok store) :
    ReadsWrites writes store ↔ Steady writes :=
  ⟨steady_of_readsWrites ran, readsWrites_of_steady ran⟩

def note : MemoryRecord where
  memoryId := "m1"
  «namespace» := "runs"
  key := "episode_run-001"
  content := "Prefer quarterly data."
  updatedAt := "2026-01-01T00:00:00+00:00"

def episodeNote : MemoryRecord where
  memoryId := "m2"
  «namespace» := "runs"
  key := "episode_run-001"
  memoryType := "episodic"
  content := "Compared the rates."
  updatedAt := "2026-01-02T00:00:00+00:00"

theorem writeAll_notes :
    ∃ store, SQLiteMemoryStore.init.writeAll [.putMemory note, .putEpisode episodeNote] =
      .ok store := by
  have succeeds : (SQLiteMemoryStore.init.writeAll
      [.putMemory note, .putEpisode episodeNote]).isOk = true := by decide +kernel
  cases ran : SQLiteMemoryStore.init.writeAll [.putMemory note, .putEpisode episodeNote] with
  | error error =>
      rw [ran] at succeeds
      cases succeeds
  | ok store => exact ⟨store, rfl⟩

theorem notes_readsWrites_iff :
    ∃ store, SQLiteMemoryStore.init.writeAll [.putMemory note, .putEpisode episodeNote] =
        .ok store ∧
      (ReadsWrites [.putMemory note, .putEpisode episodeNote] store ↔
        Steady [.putMemory note, .putEpisode episodeNote]) := by
  obtain ⟨store, ran⟩ := writeAll_notes
  exact ⟨store, ran, readsWrites_iff ran⟩

/-- An episode put over another record takes on that record's type. -/
theorem overwritten_type_kept :
    ∃ store, SQLiteMemoryStore.init.writeAll [.putMemory note, .putEpisode episodeNote] =
        .ok store ∧
      ¬ ReadsWrites [.putMemory note, .putEpisode episodeNote] store := by
  obtain ⟨store, ran⟩ := writeAll_notes
  refine ⟨store, ran, fun reads => ?_⟩
  have steady := steady_of_readsWrites ran reads "runs" "episode_run-001" note episodeNote
  exact absurd (steady (by decide +kernel) (by decide +kernel)).1 (by decide)

end DurableAgent.Memory
