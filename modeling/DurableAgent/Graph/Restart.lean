import DurableAgent.Graph.Persistence

/-!
# Threads that outlive their services

A thread lives in a database, not in the service that executes its calls. Services may be
closed and made again between its calls, and the process may be restarted.
-/

set_option autoImplicit false

namespace DurableAgent.Graph

open Jobs Library Python

/-- What lets the threads of a database live on: nothing that happens to files, each service
on a shared memory through a URI that the manager recognises, and a private memory that is
not closed. -/
def Spares (sqlite : Sqlite) (database : Database) (transition : ProcessTransition) : Prop :=
  match database with
  | .disk _ => True
  | .sharedMemory name => transition.label ≠ .restart ∧
      ∀ dbPath, transition.label = .construct dbPath →
        GraphProcess.locate sqlite dbPath = .sharedMemory name →
        CheckpointPersistenceManager.isSharedMemoryUri dbPath = true
  | .ofConnection conn => transition.label ≠ .restart ∧ transition.label ≠ .close conn

/-- Where the saver of a service writes to. -/
def GraphProcess.databaseOf (process : GraphProcess) (index : Nat) : Option Database :=
  process.services[index]?.bind fun service =>
    process.storage.connections[service.checkpointer]?.map fun connection => connection.database

/-- The database holds what a thread has come to. -/
structure Stores (database : Database) (threadId : String) (process : GraphProcess)
    (thread : Thread) : Prop where
  values : thread.values = (process.storage.checkpoints database threadId).values
  position : thread.position = (process.storage.checkpoints database threadId).position

/-- The steps of a thread are its commands through any service on the database; a restart is
one if it ends a call. -/
def storedAction (database : Database) (threadId : String) (transition : ProcessTransition) :
    Option ThreadAction :=
  match transition.label with
  | .thread index other command =>
      if other = threadId ∧ transition.source.databaseOf index = some database then
        some (command.resolve transition.source.jobs.store)
      else none
  | .restart =>
      if (transition.source.storage.checkpoints database threadId).executes = true then
        some (.crash transition.source.jobs.store none)
      else none
  | _ => none

def storedThread (database : Database) (threadId : String) :
    Component GraphProcess ProcessAction Thread ThreadAction where
  own := storedAction database threadId
  shows := Stores database threadId

namespace GraphProcess

variable {sqlite : Sqlite} {host : Host} {process next : GraphProcess} {database : Database}

/-! ## What a close leaves -/

/-- Every service on a shared memory has named it by a URI that the manager recognises. -/
def Recognised (sqlite : Sqlite) (database : Database) (process : GraphProcess) : Prop :=
  ∀ name, database = .sharedMemory name → ∀ path ∈ process.paths,
    locate sqlite path = .sharedMemory name →
    CheckpointPersistenceManager.isSharedMemoryUri path = true

theorem step_paths {action : ProcessAction}
    (stepped : process.step sqlite host action = some next) :
    next.paths = process.paths ∨ next.paths = [] ∨
      ∃ dbPath, action = .construct dbPath ∧ next.paths = process.paths ++ [dbPath] := by
  cases step_cases stepped with
  | construct dbPath => exact .inr (.inr ⟨dbPath, rfl, construct_paths dbPath⟩)
  | leaves index service found => exact .inl (closing_paths found _)
  | closes index service conn found => exact .inl (closing_paths found _)
  | thread index threadId command service connection after found =>
      exact .inl (paths_set found rfl)
  | pool action jobs => exact .inl rfl
  | restart => exact .inr (.inl rfl)

theorem Recognised.step (recognised : process.Recognised sqlite database)
    {action : ProcessAction} (stepped : process.step sqlite host action = some next)
    (spared : Spares sqlite database ⟨process, action, next⟩) :
    next.Recognised sqlite database := by
  rintro name rfl path listed located
  rcases step_paths stepped with same | empty | ⟨dbPath, rfl, grown⟩
  · rw [same] at listed
    exact recognised name rfl path listed located
  · simp [empty] at listed
  · rw [grown] at listed
    rcases List.mem_append.mp listed with old | new
    · exact recognised name rfl path old located
    · obtain rfl := List.mem_singleton.mp new
      exact spared.2 path rfl located

/-- Every open connection has been made by a service on its database. -/
theorem Accounted.connected (accounted : process.Accounted sqlite)
    (connected : process.storage.Connected database) :
    ∃ index service, process.services[index]? = some service ∧
      (locate sqlite service.persistence.connString).database index = database ∧
      process.storage.connections[index]? = some ⟨database, true⟩ := by
  obtain ⟨connection, listed, rfl, opened⟩ := connected
  obtain ⟨index, inside, at_index⟩ := List.getElem_of_mem listed
  have found : index < process.services.length := by
    rw [← accounted.length]
    exact inside
  obtain ⟨_, _, isOpen, owned, _⟩ :=
    accounted.owns index process.services[index] (List.getElem?_eq_getElem found)
  have here : process.storage.connections[index]? = some connection := by
    rw [List.getElem?_eq_getElem inside, at_index]
  obtain rfl := Option.some.inj (here.symm.trans owned)
  cases opened
  exact ⟨index, _, List.getElem?_eq_getElem found, rfl, here⟩

/-- The first service on a URI that is recognised leaves its connection open. -/
theorem Accounted.first_connected (accounted : process.Accounted sqlite) {path : String}
    (listed : path ∈ process.paths)
    (uri : CheckpointPersistenceManager.isSharedMemoryUri path = true) :
    ∃ service, process.services[process.paths.idxOf path]? = some service ∧
      service.persistence.connString = path ∧
      process.storage.connections[process.paths.idxOf path]? =
        some ⟨(locate sqlite path).database (process.paths.idxOf path), true⟩ := by
  have inside := List.idxOf_lt_length_of_mem listed
  have reads : process.paths[process.paths.idxOf path] = path := List.getElem_idxOf inside
  have found : process.paths.idxOf path < process.services.length := by
    simpa [paths] using inside
  have names : process.services[process.paths.idxOf path].persistence.connString = path := by
    refine Eq.trans ?_ reads
    simp only [paths, List.getElem_map]
  obtain ⟨_, _, isOpen, owned, accounts⟩ :=
    accounted.owns _ _ (List.getElem?_eq_getElem found)
  rw [names] at owned accounts
  obtain rfl := accounts.mpr (.inr ⟨uri, rfl⟩)
  exact ⟨_, List.getElem?_eq_getElem found, names, owned⟩

theorem close_connected {index conn : Nat}
    (opened : process.storage.connections[index]? = some ⟨database, true⟩)
    (different : index ≠ conn) : (process.storage.close conn).Keeps database := by
  have remains : (process.storage.close conn).connections[index]? = some ⟨database, true⟩ := by
    simp [CheckpointStorage.close, CheckpointStorage.forget, Ne.symm different, opened]
  exact CheckpointStorage.Connected.keeps ⟨_, List.mem_of_getElem? remains, rfl, rfl⟩

/-- A close empties a database only with the last connection to it. -/
theorem close_checkpoints (accounted : process.Accounted sqlite) {conn : Nat}
    (kept : process.storage.Connected database → (process.storage.close conn).Keeps database) :
    (process.storage.close conn).checkpoints database =
      process.storage.checkpoints database := by
  by_cases remains : (process.storage.close conn).Keeps database
  · exact if_pos remains
  · have closed : (process.storage.close conn).checkpoints database = fun _ => .blank :=
      if_neg remains
    rw [closed]
    refine (accounted.blank database fun before => ?_).symm
    cases database with
    | disk path => exact remains trivial
    | sharedMemory name => exact remains (kept before)
    | ofConnection other => exact remains (kept before)

theorem Accounted.close_spares (accounted : process.Accounted sqlite)
    (recognised : process.Recognised sqlite database) {index conn : Nat}
    {service : ServiceObject} (found : process.services[index]? = some service)
    (entered : service.persistence.conn = some conn)
    (unretained : process.storage.sharedMemoryConnections.get? service.persistence.connString ≠
      some conn)
    (own : ∀ other, database = .ofConnection other → index ≠ other) :
    (process.storage.close conn).checkpoints database =
      process.storage.checkpoints database := by
  obtain rfl := (accounted.owns index service found).entered conn entered
  refine close_checkpoints accounted fun connected => ?_
  obtain ⟨other, user, listed, leads, opened⟩ := accounted.connected connected
  cases located : locate sqlite user.persistence.connString with
  | disk path =>
      rw [located] at leads
      subst leads
      exact trivial
  | privateMemory =>
      rw [located] at leads
      exact close_connected opened (Ne.symm (own other leads.symm))
  | sharedMemory name =>
      rw [located] at leads
      -- The first service on the same URI has left its connection open.
      have uri := recognised name leads.symm _ (mem_paths listed) located
      obtain ⟨first, made, names, opens⟩ := accounted.first_connected (mem_paths listed) uri
      rw [located] at opens
      refine close_connected (leads ▸ opens) fun same => unretained ?_
      rw [same] at made
      obtain rfl := Option.some.inj (made.symm.trans found)
      rw [accounted.first_iff found, names]
      exact ⟨uri, same⟩

/-- What becomes of the threads of a database, calls on it apart. -/
structure KeepsThreads (database : Database) (transition : ProcessTransition) : Prop where
  quiet : (∀ index threadId command, transition.label ≠ .thread index threadId command) →
    transition.label ≠ .restart →
    transition.target.storage.checkpoints database = transition.source.storage.checkpoints database
  restarted : transition.label = .restart → ∀ threadId,
    transition.target.storage.checkpoints database threadId =
      (transition.source.storage.checkpoints database threadId).interrupt

theorem Accounted.keepsThreads (accounted : process.Accounted sqlite)
    (recognised : process.Recognised sqlite database) {action : ProcessAction}
    (stepped : process.step sqlite host action = some next)
    (spared : Spares sqlite database ⟨process, action, next⟩) :
    KeepsThreads database ⟨process, action, next⟩ := by
  cases step_cases stepped with
  | construct dbPath =>
      exact ⟨fun _ _ => congrFun (construct_checkpoints dbPath) database, nofun⟩
  | leaves => exact ⟨fun _ _ => rfl, nofun⟩
  | closes index service conn found _ entered unretained =>
      refine ⟨fun _ _ => ?_, nofun⟩
      refine accounted.close_spares recognised found entered unretained ?_
      rintro other rfl same
      exact spared.2 (same ▸ rfl)
  | thread index threadId command =>
      exact ⟨fun calls => absurd rfl (calls index threadId command), nofun⟩
  | pool => exact ⟨fun _ _ => rfl, nofun⟩
  | restart =>
      refine ⟨fun _ other => absurd rfl other, fun _ threadId => ?_⟩
      cases database with
      | disk path => rfl
      | sharedMemory name => exact absurd rfl spared.1
      | ofConnection conn => exact absurd rfl spared.1

end GraphProcess

/-! ## Threads of a database -/

section Threads

variable {sqlite : Sqlite} {host : Host} {process : GraphProcess} {database : Database}
  {history : List ProcessTransition}

theorem run_keepsThreads (run : Run (GraphProcess.step sqlite host) .initial history process)
    (spared : ∀ transition ∈ history, Spares sqlite database transition) :
    process.Recognised sqlite database ∧
      ∀ transition ∈ history, GraphProcess.KeepsThreads database transition := by
  induction run with
  | nil => exact ⟨by simp [GraphProcess.Recognised, GraphProcess.paths, GraphProcess.initial],
      by simp⟩
  | @snoc history state action next previous stepped ih =>
      obtain ⟨recognised, earlier⟩ := ih fun transition member =>
        spared transition (List.mem_append_left _ member)
      have sparing := spared ⟨state, action, next⟩ (by simp)
      refine ⟨recognised.step stepped sparing, fun transition member => ?_⟩
      rcases List.mem_append.mp member with old | new
      · exact earlier transition old
      · obtain rfl := List.mem_singleton.mp new
        exact (run_accounted previous).keepsThreads recognised stepped sparing

theorem Checkpoint.executes_iff {checkpoint : Checkpoint} :
    checkpoint.executes = true ↔ ∃ node review, checkpoint.position = .executing node review := by
  unfold Checkpoint.executes
  cases checkpoint.position <;> simp

/-- A thread that is executing may be lost before its node has done anything. -/
theorem Thread.step_crash {threadId : String} {thread : Thread} {node : Node}
    {review : Option Dict} (executing : thread.position = .executing node review)
    (store : SQLiteJobStore) :
    thread.step host threadId (.crash store none) =
      some { thread with position := .crashed, store := store } := by
  simp [Thread.step, executing, Thread.lostStore]

theorem storedThread_simulates (threadId : String) :
    (storedThread database threadId).Simulates (GraphProcess.step sqlite host)
      (Thread.step host threadId) (GraphProcess.KeepsThreads database) (fun _ => True) where
  moves := by
    intro process action next thread taken stored stepped keeps owned
    cases GraphProcess.step_cases stepped with
    | construct | leaves | closes | pool => cases owned
    | restart =>
        have executes : (process.storage.checkpoints database threadId).executes = true := by
          by_contra idle
          simp [storedThread, storedAction, idle] at owned
        obtain rfl : .crash process.jobs.store none = taken := by
          simpa [storedThread, storedAction, executes] using owned
        obtain ⟨node, review, executing⟩ := Checkpoint.executes_iff.mp executes
        have stands : thread.position = .executing node review := stored.position.trans executing
        refine ⟨_, Thread.step_crash stands process.jobs.store, ⟨?_, ?_⟩, trivial⟩
        · rw [keeps.restarted rfl threadId]
          simp [Checkpoint.interrupt, executes, stored.values]
        · rw [keeps.restarted rfl threadId]
          simp [Checkpoint.interrupt, executes]
    | thread index other command service connection after found connected opened admits moved =>
        have served : other = threadId ∧ process.databaseOf index = some database := by
          by_contra foreign
          simp [storedThread, storedAction, foreign] at owned
        obtain rfl : command.resolve process.jobs.store = taken := by
          simpa [storedThread, storedAction, served] using owned
        obtain ⟨rfl, leads⟩ := served
        obtain rfl : connection.database = database := by
          simpa [GraphProcess.databaseOf, found, connected] using leads
        obtain ⟨followed, took, shows, _, _⟩ := MacroAgentGraphService.take_inv moved
        have viewed : (process.view connection.database).threadAt other =
            { thread with store := process.jobs.store } := by
          simp [MacroAgentGraphService.threadAt, GraphProcess.view, stored.values,
            stored.position]
        rw [viewed] at took
        obtain ⟨reached, moves, behind⟩ := Thread.step_behind took
        have values : (after.threads other).values = followed.values := congrArg Thread.values shows
        have position : (after.threads other).position = followed.position :=
          congrArg Thread.position shows
        refine ⟨reached, moves, ⟨?_, ?_⟩, trivial⟩
        · rcases behind with rfl | ⟨rfl, _⟩ <;> simp [GraphProcess.commit, values]
        · rcases behind with rfl | ⟨rfl, _⟩ <;> simp [GraphProcess.commit, position]
  rests := by
    intro process action next thread stored stepped keeps foreign
    have kept : next.storage.checkpoints database threadId =
        process.storage.checkpoints database threadId := by
      cases GraphProcess.step_cases stepped with
      | construct | leaves | closes | pool => exact congrFun (keeps.quiet (by simp) (by simp)) threadId
      | restart =>
          rw [keeps.restarted rfl threadId]
          simp only [storedThread, storedAction] at foreign
          split at foreign
          · cases foreign
          · next idle => exact if_neg idle
      | thread index other command service connection after found connected opened admits moved =>
          by_cases here : connection.database = database
          · subst here
            have different : threadId ≠ other := by
              rintro rfl
              simp [storedThread, storedAction, GraphProcess.databaseOf, found, connected] at foreign
            obtain ⟨_, _, _, _, others⟩ := MacroAgentGraphService.take_inv moved
            simpa [GraphProcess.commit, GraphProcess.view] using others threadId different
          · simp [GraphProcess.commit, Ne.symm here]
    exact ⟨by rw [kept, stored.values], by rw [kept, stored.position]⟩

/-- However services on a database are made and closed, in this process or in later ones, its
threads go on where they stood: each takes exactly the steps of a single thread. -/
theorem threads_outlive_services
    (run : Run (GraphProcess.step sqlite host) .initial history process)
    (spared : ∀ transition ∈ history, Spares sqlite database transition) (threadId : String) :
    ∃ taken thread, Run (Thread.step host threadId) Thread.initial taken thread ∧
      Stores database threadId process thread ∧
      List.Forall₂ (storedThread database threadId).Takes
        (history.filter (storedThread database threadId).owns) taken := by
  have base : Stores database threadId .initial Thread.initial := ⟨rfl, rfl⟩
  obtain ⟨taken, thread, ran, stored, _, matched⟩ :=
    Library.Run.project (storedThread_simulates threadId) base run
      (run_keepsThreads run spared).2
  exact ⟨taken, thread, ran, stored, matched⟩

end Threads

private def replacedService : List ProcessAction :=
  [.construct demoUri, .construct ":memory:",
    .thread 0 "cpi" (.runWorkflow "r1" "Analyze CPI"),
    .thread 0 "cpi" (.node 0), .thread 0 "cpi" (.node 0), .thread 0 "cpi" (.node 7),
    .close 0, .close 0, .close 1, .construct demoUri,
    .thread 2 "cpi" (.runWorkflow "r2" "Analyze CPI"),
    .thread 2 "cpi" (.node 0), .thread 2 "cpi" (.node 0), .thread 2 "cpi" (.node 9)]

private theorem spares_demo {history : List ProcessTransition}
    (labels : history.map (·.label) = replacedService) :
    ∀ transition ∈ history, Spares readDemo (.sharedMemory "macro_demo") transition := by
  intro transition member
  have listed : transition.label ∈ replacedService := labels ▸ List.mem_map_of_mem member
  constructor
  · intro restarts
    rw [restarts] at listed
    simp [replacedService] at listed
  · intro dbPath constructs located
    rw [constructs] at listed
    simp only [replacedService, List.mem_cons, ProcessAction.construct.injEq, reduceCtorEq,
      List.not_mem_nil, or_false, false_or] at listed
    rcases listed with rfl | rfl | rfl
    · decide
    · revert located
      decide
    · decide

/-- A job that one service has submitted is polled by another, which submits none. -/
theorem replaced_service_polls :
    ∃ history process,
      Run (GraphProcess.step readDemo Host.ascii) .initial history process ∧
        process.storage.connections.map Connection.isOpen = [true, false, true] ∧
        process.jobs.store.jobs.map JobRecord.idempotencyKey = ["thread_cpi_step_2"] ∧
        ∃ taken thread, Run (Thread.step Host.ascii "cpi") Thread.initial taken thread ∧
          Stores (.sharedMemory "macro_demo") "cpi" process thread := by
  obtain ⟨history, process, run, labels, observed⟩ :=
    execute_observed (GraphProcess.step readDemo Host.ascii) .initial replacedService
      (fun outcome => (outcome.2.storage.connections.map Connection.isOpen,
        outcome.2.jobs.store.jobs.map JobRecord.idempotencyKey))
      ([true, false, true], ["thread_cpi_step_2"]) (by decide +kernel)
  obtain ⟨connections, keys⟩ := Prod.mk.inj observed
  obtain ⟨taken, thread, ran, stored, _⟩ :=
    threads_outlive_services run (spares_demo labels) "cpi"
  exact ⟨history, process, run, connections, keys, taken, thread, ran, stored⟩

end DurableAgent.Graph
