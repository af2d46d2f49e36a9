import DurableAgent.Memory.Store

/-!
# Interference between namespaces

What the operations on one namespace meet of the others: nothing but the
memory ids that rows of other namespaces hold.
-/

set_option autoImplicit false

namespace DurableAgent.Memory

open Library

inductive Operation where
  | put (write : Write)
  | getMemoryByKey (name key : String)
  | listNamespaceMemories (name : String)
  | listEpisodesByNamespace (name : String) (limit : Int)
  deriving DecidableEq

inductive Answer where
  | done
  | memory (found : Option MemoryRecord)
  | memories (records : List MemoryRecord)
  deriving DecidableEq

namespace Operation

def name : Operation → String
  | .put write => write.record.namespace
  | .getMemoryByKey name _ => name
  | .listNamespaceMemories name => name
  | .listEpisodesByNamespace name _ => name

/-- The store after the operation, unchanged if it raises, and what the caller gets. -/
def execute (store : SQLiteMemoryStore) :
    Operation → SQLiteMemoryStore × Except StoreError Answer
  | .put write =>
      match write.apply store with
      | .ok next => (next, .ok .done)
      | .error error => (store, .error error)
  | .getMemoryByKey name key => (store, (store.getMemoryByKey name key).map .memory)
  | .listNamespaceMemories name => (store, (store.listNamespaceMemories name).map .memories)
  | .listEpisodesByNamespace name limit =>
      (store, (store.listEpisodesByNamespace name limit).map .memories)

end Operation

/-- What an operation answers, if it does not raise. -/
def Operation.outcome (operation : Operation) (store : SQLiteMemoryStore) : Option Answer :=
  (operation.execute store).2.toOption

def onNamespace (name : String) (operations : List Operation) : List Operation :=
  operations.filter fun operation => decide (operation.name = name)

def outcomesOn (name : String) : SQLiteMemoryStore → List Operation → List (Option Answer)
  | _, [] => []
  | store, operation :: rest =>
      let later := outcomesOn name (operation.execute store).1 rest
      if operation.name = name then operation.outcome store :: later else later

/-! ## Clashes -/

namespace SQLiteMemoryStore

/-- The record's key is new, and a row of another namespace has its memory id. -/
def TakenElsewhere (store : SQLiteMemoryStore) (record : MemoryRecord) : Prop :=
  store.table.find? (record.namespace, record.key) = none ∧
    ∃ row ∈ store.table.rows, row.memoryId = record.memoryId ∧ row.namespace ≠ record.namespace

instance (store : SQLiteMemoryStore) (record : MemoryRecord) :
    Decidable (store.TakenElsewhere record) :=
  inferInstanceAs (Decidable (_ ∧ _))

def within (store : SQLiteMemoryStore) (name : String) : UniqueTable memories :=
  store.table.restrict (inNamespace name)

end SQLiteMemoryStore

def Write.Clashes (store : SQLiteMemoryStore) : Write → Prop
  | .putMemory record => store.TakenElsewhere record
  | .putEpisode record => record.memoryType = "episodic" ∧ store.TakenElsewhere record

instance (store : SQLiteMemoryStore) : (write : Write) → Decidable (write.Clashes store)
  | .putMemory record => inferInstanceAs (Decidable (store.TakenElsewhere record))
  | .putEpisode record =>
      inferInstanceAs (Decidable (record.memoryType = "episodic" ∧ store.TakenElsewhere record))

def Operation.Clashes (store : SQLiteMemoryStore) : Operation → Prop
  | .put write => write.Clashes store
  | _ => False

instance (store : SQLiteMemoryStore) :
    (operation : Operation) → Decidable (operation.Clashes store)
  | .put write => inferInstanceAs (Decidable (write.Clashes store))
  | .getMemoryByKey .. | .listNamespaceMemories .. | .listEpisodesByNamespace .. =>
      inferInstanceAs (Decidable False)

/-- Which of the operations on a namespace clash with a row of another one. -/
def clashesOn (name : String) : SQLiteMemoryStore → List Operation → List Bool
  | _, [] => []
  | store, operation :: rest =>
      let later := clashesOn name (operation.execute store).1 rest
      if operation.name = name then decide (operation.Clashes store) :: later else later

/-! ## One operation -/

section Writes

variable {store : SQLiteMemoryStore} {record : MemoryRecord}

theorem putMemory_toOption (store : SQLiteMemoryStore) (record : MemoryRecord) :
    (store.putMemory record).toOption =
      (store.table.upsert (Row.ofRecord record)).map SQLiteMemoryStore.mk := by
  unfold SQLiteMemoryStore.putMemory
  cases store.table.upsert (Row.ofRecord record) with
  | none => rfl
  | some table => rfl

theorem putMemory_of_taken (taken : store.TakenElsewhere record) :
    (store.putMemory record).toOption = none := by
  obtain ⟨absent, row, member, same, -⟩ := taken
  have held : store.table.Holds (memories.identify (Row.ofRecord record)) := ⟨row, member, same⟩
  rw [putMemory_toOption, UniqueTable.upsert_of_taken absent held, Option.map_none]

theorem inNamespace_locate (record : MemoryRecord) :
    SQLiteMemoryStore.inNamespace record.namespace (memories.locate (Row.ofRecord record)) = true :=
  decide_eq_true rfl

/-- Without a clash, a put does to the rows of its namespace what it does without any others. -/
theorem putMemory_within (free : ¬ store.TakenElsewhere record) :
    (store.putMemory record).toOption.map (fun next => next.within record.namespace) =
      (store.within record.namespace).upsert (Row.ofRecord record) := by
  rw [putMemory_toOption, Option.map_map]
  refine UniqueTable.restrict_upsert_inside (inNamespace_locate record) ?_
  rintro absent ⟨row, member, same⟩
  have inside : row.namespace = record.namespace := by
    by_contra elsewhere
    exact free ⟨absent, row, member, same, elsewhere⟩
  exact ⟨row, UniqueTable.mem_restrict.mpr ⟨member, decide_eq_true inside⟩, same⟩

/-- A clash hides that the namespace on its own would take the record. -/
theorem upsert_within_of_taken (taken : store.TakenElsewhere record) :
    (store.within record.namespace).upsert (Row.ofRecord record) ≠ none := by
  obtain ⟨absent, row, member, same, elsewhere⟩ := taken
  rw [ne_eq, UniqueTable.upsert_eq_none_iff]
  rintro ⟨-, other, otherMember, otherSame⟩
  obtain ⟨stored, inside⟩ := UniqueTable.mem_restrict.mp otherMember
  have equal : row = other := UniqueTable.row_unique_id member stored (same.trans otherSame.symm)
  exact elsewhere (equal ▸ of_decide_eq_true inside)

end Writes

namespace Write

variable {store : SQLiteMemoryStore} {write : Write}

/-- The effect of a write on the rows of its namespace alone. -/
def alone : Write → UniqueTable memories → Option (UniqueTable memories)
  | .putMemory record, table => table.upsert (Row.ofRecord record)
  | .putEpisode record, table =>
      if record.memoryType = "episodic" then table.upsert (Row.ofRecord record) else none

theorem apply_of_clash (clash : write.Clashes store) : (write.apply store).toOption = none := by
  cases write with
  | putMemory record => exact putMemory_of_taken clash
  | putEpisode record =>
      obtain ⟨episodic, taken⟩ := clash
      simp only [apply, SQLiteMemoryStore.putEpisode, ne_eq, episodic, not_true_eq_false, if_false]
      exact putMemory_of_taken taken

theorem apply_within (free : ¬ write.Clashes store) :
    (write.apply store).toOption.map (fun next => next.within write.record.namespace) =
      write.alone (store.within write.record.namespace) := by
  cases write with
  | putMemory record => exact putMemory_within free
  | putEpisode record =>
      by_cases episodic : record.memoryType = "episodic"
      · simp only [apply, alone, SQLiteMemoryStore.putEpisode, ne_eq, episodic, not_true_eq_false,
          if_false, if_true]
        exact putMemory_within fun taken => free ⟨episodic, taken⟩
      · simp only [apply, alone, SQLiteMemoryStore.putEpisode, ne_eq, episodic, not_false_eq_true,
          if_true, if_false]
        rfl

theorem alone_of_clash (clash : write.Clashes store) :
    write.alone (store.within write.record.namespace) ≠ none := by
  cases write with
  | putMemory record => exact upsert_within_of_taken clash
  | putEpisode record =>
      obtain ⟨episodic, taken⟩ := clash
      rw [alone, if_pos episodic]
      exact upsert_within_of_taken taken

end Write

namespace Operation

variable {store first second : SQLiteMemoryStore} {operation : Operation}

theorem outcome_put (write : Write) (store : SQLiteMemoryStore) :
    (put write).outcome store = (write.apply store).toOption.map fun _ => .done := by
  simp only [outcome, execute]
  cases write.apply store with
  | error error => rfl
  | ok next => rfl

theorem execute_put (write : Write) (store : SQLiteMemoryStore) :
    ((put write).execute store).1 = (write.apply store).toOption.getD store := by
  simp only [execute]
  cases write.apply store with
  | error error => rfl
  | ok next => rfl

theorem execute_outside {name : String} (elsewhere : operation.name ≠ name) :
    (operation.execute store).1.within name = store.within name := by
  cases operation with
  | put write =>
      rw [execute_put]
      cases applied : write.apply store with
      | error error => rfl
      | ok next =>
          have outside : SQLiteMemoryStore.inNamespace name
              (memories.locate (Row.ofRecord write.record)) = false := decide_eq_false elsewhere
          exact UniqueTable.restrict_upsert_outside outside (Write.apply_eq_ok applied)
  | getMemoryByKey | listNamespaceMemories | listEpisodesByNamespace => rfl

theorem rowsOf_congr {name : String} (same : first.within name = second.within name) :
    first.rowsOf name = second.rowsOf name :=
  congrArg (fun table : UniqueTable memories => table.rows.insertionSort _) same

theorem getMemoryByKey_congr {name : String} (same : first.within name = second.within name)
    (key : String) : first.getMemoryByKey name key = second.getMemoryByKey name key := by
  have inside : SQLiteMemoryStore.inNamespace name (name, key) = true := decide_eq_true rfl
  have found : first.table.find? (name, key) = second.table.find? (name, key) := by
    rw [← UniqueTable.find?_restrict first.table inside,
      ← UniqueTable.find?_restrict second.table inside]
    exact congrArg (fun table : UniqueTable memories => table.find? (name, key)) same
  rw [SQLiteMemoryStore.getMemoryByKey, SQLiteMemoryStore.getMemoryByKey, found]

/-- Two stores that agree on a namespace, before and after an operation on it that clashes in
both or in neither. -/
theorem execute_inside (same : first.within operation.name = second.within operation.name)
    (alike : operation.Clashes first ↔ operation.Clashes second) :
    operation.outcome first = operation.outcome second ∧
      (operation.execute first).1.within operation.name =
        (operation.execute second).1.within operation.name := by
  cases operation with
  | put write =>
      rw [outcome_put, outcome_put, execute_put, execute_put]
      by_cases clash : write.Clashes first
      · rw [Write.apply_of_clash clash, Write.apply_of_clash (alike.mp clash)]
        exact ⟨rfl, same⟩
      · have firstEffect := Write.apply_within clash
        have secondEffect := Write.apply_within fun other => clash (alike.mpr other)
        have effect := firstEffect.trans ((congrArg write.alone same).trans secondEffect.symm)
        cases firstApplied : (write.apply first).toOption with
        | none =>
            rw [firstApplied] at effect
            rw [Option.map_eq_none_iff.mp effect.symm]
            exact ⟨rfl, same⟩
        | some next =>
            rw [firstApplied] at effect
            obtain ⟨other, secondApplied, agreed⟩ := Option.map_eq_some_iff.mp effect.symm
            rw [secondApplied]
            exact ⟨rfl, agreed.symm⟩
  | getMemoryByKey name key =>
      refine ⟨?_, same⟩
      exact congrArg (fun found => (Except.map Answer.memory found).toOption)
        (getMemoryByKey_congr same key)
  | listNamespaceMemories name =>
      refine ⟨?_, same⟩
      exact congrArg (fun rows => ((rows.mapM Row.toRecord).map Answer.memories).toOption)
        (rowsOf_congr same)
  | listEpisodesByNamespace name limit =>
      refine ⟨?_, same⟩
      have rows : first.rowsOf name = second.rowsOf name := rowsOf_congr same
      simp only [outcome, execute, SQLiteMemoryStore.listEpisodesByNamespace,
        SQLiteMemoryStore.episodeRows, rows]

theorem clashes_of_outcome (same : first.within operation.name = second.within operation.name)
    (agreed : operation.outcome first = operation.outcome second)
    (clash : operation.Clashes first) : operation.Clashes second := by
  cases operation with
  | put write =>
      by_contra free
      have effect := Write.apply_within free
      have raised := Write.apply_of_clash clash
      rw [outcome_put, outcome_put, raised, Option.map_none] at agreed
      rw [Option.map_eq_none_iff.mp agreed.symm, Option.map_none] at effect
      exact Write.alone_of_clash clash ((congrArg write.alone same).trans effect.symm)
  | getMemoryByKey | listNamespaceMemories | listEpisodesByNamespace => exact clash

end Operation

/-! ## Runs -/

theorem outcomesOn_cons_inside {operation : Operation} {rest : List Operation} {name : String}
    (inside : operation.name = name) (store : SQLiteMemoryStore) :
    outcomesOn name store (operation :: rest) =
      operation.outcome store :: outcomesOn name (operation.execute store).1 rest :=
  if_pos inside

theorem clashesOn_cons_inside {operation : Operation} {rest : List Operation} {name : String}
    (inside : operation.name = name) (store : SQLiteMemoryStore) :
    clashesOn name store (operation :: rest) =
      decide (operation.Clashes store) :: clashesOn name (operation.execute store).1 rest :=
  if_pos inside

theorem skip_outside {name : String} {skipped : List Operation}
    (elsewhere : ∀ operation ∈ skipped, operation.name ≠ name) (store : SQLiteMemoryStore) :
    ∃ next : SQLiteMemoryStore, next.within name = store.within name ∧
      ∀ rest, outcomesOn name store (skipped ++ rest) = outcomesOn name next rest ∧
        clashesOn name store (skipped ++ rest) = clashesOn name next rest := by
  induction skipped generalizing store with
  | nil => exact ⟨store, rfl, fun _ => ⟨rfl, rfl⟩⟩
  | cons operation later ih =>
      have outside := elsewhere operation List.mem_cons_self
      obtain ⟨next, kept, continued⟩ := ih
        (fun other member => elsewhere other (List.mem_cons_of_mem operation member))
        (operation.execute store).1
      refine ⟨next, kept.trans (Operation.execute_outside outside), fun rest => ?_⟩
      obtain ⟨outcomes, clashes⟩ := continued rest
      exact ⟨(if_neg outside).trans outcomes, (if_neg outside).trans clashes⟩

theorem run_outside {name : String} {operations : List Operation}
    (elsewhere : onNamespace name operations = []) (store : SQLiteMemoryStore) :
    outcomesOn name store operations = [] ∧ clashesOn name store operations = [] := by
  have skipped : ∀ operation ∈ operations, operation.name ≠ name := by
    simpa [onNamespace] using elsewhere
  obtain ⟨next, -, continued⟩ := skip_outside skipped store
  have finished := continued []
  rw [List.append_nil] at finished
  exact finished

/-- By induction on the operations that the two runs share. -/
theorem outcomes_agree {name : String} {shared : List Operation} :
    ∀ {firstStore secondStore : SQLiteMemoryStore} {first second : List Operation},
      firstStore.within name = secondStore.within name → onNamespace name first = shared →
      onNamespace name second = shared →
      (outcomesOn name firstStore first = outcomesOn name secondStore second ↔
        clashesOn name firstStore first = clashesOn name secondStore second) := by
  induction shared with
  | nil =>
      intro firstStore secondStore first second _ firstShared secondShared
      obtain ⟨firstOutcomes, firstClashes⟩ := run_outside firstShared firstStore
      obtain ⟨secondOutcomes, secondClashes⟩ := run_outside secondShared secondStore
      rw [firstOutcomes, firstClashes, secondOutcomes, secondClashes]
      exact iff_of_true rfl rfl
  | cons operation later ih =>
      intro firstStore secondStore first second same firstShared secondShared
      obtain ⟨firstSkipped, firstRest, rfl, firstElsewhere, inside, firstLater⟩ :=
        List.filter_eq_cons_iff.mp firstShared
      obtain ⟨secondSkipped, secondRest, rfl, secondElsewhere, -, secondLater⟩ :=
        List.filter_eq_cons_iff.mp secondShared
      obtain rfl : operation.name = name := of_decide_eq_true inside
      obtain ⟨firstNext, firstKept, firstRun⟩ := skip_outside
        (fun other member => of_decide_eq_false (by simpa using firstElsewhere other member))
        firstStore
      obtain ⟨secondNext, secondKept, secondRun⟩ := skip_outside
        (fun other member => of_decide_eq_false (by simpa using secondElsewhere other member))
        secondStore
      have met := firstKept.trans (same.trans secondKept.symm)
      rw [(firstRun _).1, (firstRun _).2, (secondRun _).1, (secondRun _).2,
        outcomesOn_cons_inside rfl, outcomesOn_cons_inside rfl, clashesOn_cons_inside rfl,
        clashesOn_cons_inside rfl, List.cons.injEq, List.cons.injEq]
      constructor
      · rintro ⟨agreed, rest⟩
        have alike : operation.Clashes firstNext ↔ operation.Clashes secondNext :=
          ⟨Operation.clashes_of_outcome met agreed,
            Operation.clashes_of_outcome met.symm agreed.symm⟩
        have kept := (Operation.execute_inside met alike).2
        exact ⟨decide_eq_decide.mpr alike, (ih kept firstLater secondLater).mp rest⟩
      · rintro ⟨clash, rest⟩
        obtain ⟨agreed, kept⟩ := Operation.execute_inside met (decide_eq_decide.mp clash)
        exact ⟨agreed, (ih kept firstLater secondLater).mpr rest⟩

/-- Two runs on one store with the same operations on a namespace give these the same outcomes
exactly if the same of them clash with rows of other namespaces. -/
theorem outcomes_agree_iff (name : String) (store : SQLiteMemoryStore)
    {first second : List Operation}
    (same : onNamespace name first = onNamespace name second) :
    outcomesOn name store first = outcomesOn name store second ↔
      clashesOn name store first = clashesOn name store second :=
  outcomes_agree rfl same rfl

/-- An episode as `to_memory_record` files it under a namespace. -/
def filedUnder (name : String) : MemoryRecord where
  memoryId := "e1"
  «namespace» := name
  key := "episode_run-001"
  memoryType := "episodic"
  content := "Compare the rates."
  updatedAt := "2026-01-01T00:00:00+00:00"

theorem filed_outcomes_agree_iff :
    outcomesOn "team-a" .init [.put (.putEpisode (filedUnder "team-a"))] =
        outcomesOn "team-a" .init [.put (.putEpisode (filedUnder "team-b")),
          .put (.putEpisode (filedUnder "team-a"))] ↔
      clashesOn "team-a" .init [.put (.putEpisode (filedUnder "team-a"))] =
        clashesOn "team-a" .init [.put (.putEpisode (filedUnder "team-b")),
          .put (.putEpisode (filedUnder "team-a"))] :=
  outcomes_agree_iff "team-a" .init (by decide +kernel)

/-- The episode cannot be filed where another namespace has it. -/
theorem filed_elsewhere_raises :
    onNamespace "team-a" [.put (.putEpisode (filedUnder "team-a"))] =
        onNamespace "team-a" [.put (.putEpisode (filedUnder "team-b")),
          .put (.putEpisode (filedUnder "team-a"))] ∧
      outcomesOn "team-a" .init [.put (.putEpisode (filedUnder "team-a"))] = [some .done] ∧
      outcomesOn "team-a" .init [.put (.putEpisode (filedUnder "team-b")),
        .put (.putEpisode (filedUnder "team-a"))] = [none] := by
  decide +kernel

end DurableAgent.Memory
