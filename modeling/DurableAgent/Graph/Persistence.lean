import DurableAgent.Graph.Service

/-!
# Checkpoint persistence

`graph/persistence.py`, and the services of `graph/service.py` that a process makes and
closes over it. SQLite keeps a database in memory as long as a connection to it is open, and
the manager leaves one open for each URI that names a shared one.
-/

set_option autoImplicit false

namespace DurableAgent.Graph

open Jobs Library Python

/-! ## SQLite -/

/-- What a connection string names. -/
inductive Location where
  | disk (path : String)
  | sharedMemory (name : String)
  | privateMemory
deriving DecidableEq

/-- A database in private memory belongs to one connection. -/
inductive Database where
  | disk (path : String)
  | sharedMemory (name : String)
  | ofConnection (conn : Nat)
deriving DecidableEq

def Location.database (conn : Nat) : Location → Database
  | .disk path => .disk path
  | .sharedMemory name => .sharedMemory name
  | .privateMemory => .ofConnection conn

/-- How `sqlite3.connect` reads a string, which is a URI or a path. -/
abbrev Sqlite := (uri : Bool) → String → Location

structure Connection where
  database : Database
  isOpen : Bool
deriving DecidableEq

def Checkpoint.blank : Checkpoint := ⟨{}, .atEnd⟩

/-- The connections of a process in the order in which it opened them, what the databases
hold of each thread, and the class attribute of the manager. -/
structure CheckpointStorage where
  connections : List Connection
  checkpoints : Database → String → Checkpoint
  sharedMemoryConnections : OrderedDict String Nat

namespace CheckpointStorage

def initial : CheckpointStorage := ⟨[], fun _ _ => .blank, .empty⟩

def Connected (storage : CheckpointStorage) (database : Database) : Prop :=
  ∃ connection ∈ storage.connections, connection.database = database ∧ connection.isOpen = true

instance (storage : CheckpointStorage) (database : Database) :
    Decidable (storage.Connected database) :=
  inferInstanceAs (Decidable (∃ connection ∈ storage.connections,
    connection.database = database ∧ connection.isOpen = true))

/-- A database on disk is kept in any case. -/
def Keeps (storage : CheckpointStorage) : Database → Prop
  | .disk _ => True
  | .sharedMemory name => storage.Connected (.sharedMemory name)
  | .ofConnection conn => storage.Connected (.ofConnection conn)

instance (storage : CheckpointStorage) (database : Database) :
    Decidable (storage.Keeps database) :=
  match database with
  | .disk _ => .isTrue trivial
  | .sharedMemory name => inferInstanceAs (Decidable (storage.Connected (.sharedMemory name)))
  | .ofConnection conn => inferInstanceAs (Decidable (storage.Connected (.ofConnection conn)))

theorem Connected.keeps {storage : CheckpointStorage} {database : Database}
    (connected : storage.Connected database) : storage.Keeps database := by
  cases database with
  | disk path => trivial
  | sharedMemory name => exact connected
  | ofConnection conn => exact connected

def connect (storage : CheckpointStorage) (location : Location) : CheckpointStorage :=
  { storage with
    connections := storage.connections ++ [⟨location.database storage.connections.length, true⟩] }

/-- A database in memory vanishes with its last connection. -/
def forget (storage : CheckpointStorage) : CheckpointStorage :=
  { storage with
    checkpoints := fun database =>
      if storage.Keeps database then storage.checkpoints database else fun _ => .blank }

def close (storage : CheckpointStorage) (conn : Nat) : CheckpointStorage :=
  forget { storage with
    connections := storage.connections.modify conn fun connection =>
      { connection with isOpen := false } }

end CheckpointStorage

/-! ## The manager -/

structure CheckpointPersistenceManager where
  connString : String
  conn : Option Nat := none
deriving DecidableEq

namespace CheckpointPersistenceManager

def isUri (connString : String) : Bool := "file:".toList.isPrefixOf connString.toList

def isSharedMemoryUri (connString : String) : Bool :=
  isUri connString && occursIn "mode=memory" connString

/-- `__enter__`; the saver that it returns works on the new connection. -/
def enter (sqlite : Sqlite) (manager : CheckpointPersistenceManager)
    (storage : CheckpointStorage) : CheckpointPersistenceManager × Nat × CheckpointStorage :=
  let conn := storage.connections.length
  let connected := storage.connect (sqlite (isUri manager.connString) manager.connString)
  ({ manager with conn := some conn }, conn,
    if isSharedMemoryUri manager.connString then
      { connected with
        sharedMemoryConnections :=
          connected.sharedMemoryConnections.setDefault manager.connString conn }
    else connected)

/-- `__exit__` -/
def exit (manager : CheckpointPersistenceManager) (storage : CheckpointStorage) :
    CheckpointPersistenceManager × CheckpointStorage :=
  ({ manager with conn := none },
    match manager.conn with
    | none => storage
    | some conn =>
        if storage.sharedMemoryConnections.get? manager.connString = some conn then storage
        else storage.close conn)

end CheckpointPersistenceManager

/-! ## Services of a process -/

/-- A service object: its manager, the connection of its saver, and the threads for which a
call of it is executing. -/
structure ServiceObject where
  persistence : CheckpointPersistenceManager
  checkpointer : Nat
  underWay : List String
deriving DecidableEq

structure GraphProcess where
  storage : CheckpointStorage
  services : List ServiceObject
  jobs : JobSystem

inductive ProcessAction where
  | construct (dbPath : String)
  | close (service : Nat)
  | thread (service : Nat) (threadId : String) (command : ThreadCommand)
  | pool (action : PoolAction)
  | restart

def Checkpoint.executes (checkpoint : Checkpoint) : Bool :=
  match checkpoint.position with
  | .executing _ _ => true
  | _ => false

/-- What is left of a thread when the process that executes its call is gone. -/
def Checkpoint.interrupt (checkpoint : Checkpoint) : Checkpoint :=
  if checkpoint.executes then { checkpoint with position := .crashed } else checkpoint

namespace ServiceObject

/-- A call goes on in the service that has begun it. -/
def Admits (service : ServiceObject) (threadId : String) : ThreadCommand → Prop
  | .runWorkflow _ _ | .resumeWorkflow _ => True
  | .node _ | .crash _ => threadId ∈ service.underWay

instance (service : ServiceObject) (threadId : String) (command : ThreadCommand) :
    Decidable (service.Admits threadId command) :=
  match command with
  | .runWorkflow _ _ | .resumeWorkflow _ => .isTrue trivial
  | .node _ | .crash _ => inferInstanceAs (Decidable (threadId ∈ service.underWay))

def follow (service : ServiceObject) (threadId : String) (checkpoint : Checkpoint) :
    ServiceObject :=
  { service with
    underWay :=
      if checkpoint.executes then service.underWay.insert threadId
      else service.underWay.filter fun other => decide (other ≠ threadId) }

end ServiceObject

namespace GraphProcess

def initial : GraphProcess := ⟨.initial, [], .initial⟩

/-- A database as a service works with it. -/
def view (process : GraphProcess) (database : Database) : MacroAgentGraphService where
  threads := process.storage.checkpoints database
  jobs := process.jobs

/-- `MacroAgentGraphService.__init__` -/
def construct (sqlite : Sqlite) (process : GraphProcess) (dbPath : String) : GraphProcess :=
  let (persistence, checkpointer, storage) :=
    CheckpointPersistenceManager.enter sqlite ⟨dbPath, none⟩ process.storage
  { process with
    storage := storage
    services := process.services ++ [⟨persistence, checkpointer, []⟩] }

/-- `MacroAgentGraphService.close`, also when the object is deleted; none of its calls is
executing then. -/
def close (process : GraphProcess) (index : Nat) : Option GraphProcess :=
  match process.services[index]? with
  | none => none
  | some service =>
      if service.underWay = [] then
        let (persistence, storage) := service.persistence.exit process.storage
        some { process with
          storage := storage
          services := process.services.set index { service with persistence := persistence } }
      else none

def commit (process : GraphProcess) (index : Nat) (service : ServiceObject)
    (database : Database) (threadId : String) (next : MacroAgentGraphService) : GraphProcess where
  storage :=
    { process.storage with
      checkpoints := Function.update process.storage.checkpoints database next.threads }
  services := process.services.set index (service.follow threadId (next.threads threadId))
  jobs := next.jobs

/-- A connection that is closed answers with an exception, which changes nothing. -/
def take (host : Host) (process : GraphProcess) (index : Nat) (threadId : String)
    (command : ThreadCommand) : Option GraphProcess :=
  match process.services[index]? with
  | none => none
  | some service =>
      match process.storage.connections[service.checkpointer]? with
      | none => none
      | some connection =>
          if connection.isOpen = true ∧ service.Admits threadId command then
            ((process.view connection.database).take host threadId command).map
              (process.commit index service connection.database threadId)
          else none

/-- The process ends, with all that it holds in memory, and another one begins. -/
def restart (process : GraphProcess) : GraphProcess where
  storage :=
    { connections := []
      checkpoints := fun database =>
        match database with
        | .disk path => fun threadId => (process.storage.checkpoints (.disk path) threadId).interrupt
        | _ => fun _ => .blank
      sharedMemoryConnections := .empty }
  services := []
  jobs := .initial

def step (sqlite : Sqlite) (host : Host) (process : GraphProcess) :
    ProcessAction → Option GraphProcess
  | .construct dbPath => some (process.construct sqlite dbPath)
  | .close index => process.close index
  | .thread index threadId command => process.take host index threadId command
  | .pool action => (process.jobs.poolStep action).map fun jobs => { process with jobs := jobs }
  | .restart => some process.restart

end GraphProcess

abbrev ProcessTransition := Transition GraphProcess ProcessAction

/-! ## One step -/

/-- A process one of whose services has been closed. -/
def GraphProcess.closing (process : GraphProcess) (index : Nat) (service : ServiceObject)
    (storage : CheckpointStorage) : GraphProcess :=
  { process with
    storage := storage
    services := process.services.set index
      { service with persistence := { service.persistence with conn := none } } }

/-- What one step of a process can do. -/
inductive ProcessStepped (sqlite : Sqlite) (host : Host) (process : GraphProcess) :
    ProcessAction → GraphProcess → Prop where
  | construct (dbPath : String) :
      ProcessStepped sqlite host process (.construct dbPath) (process.construct sqlite dbPath)
  | leaves (index : Nat) (service : ServiceObject) :
      process.services[index]? = some service → service.underWay = [] →
      (∀ conn, service.persistence.conn = some conn →
        process.storage.sharedMemoryConnections.get? service.persistence.connString = some conn) →
      ProcessStepped sqlite host process (.close index)
        (process.closing index service process.storage)
  | closes (index : Nat) (service : ServiceObject) (conn : Nat) :
      process.services[index]? = some service → service.underWay = [] →
      service.persistence.conn = some conn →
      process.storage.sharedMemoryConnections.get? service.persistence.connString ≠ some conn →
      ProcessStepped sqlite host process (.close index)
        (process.closing index service (process.storage.close conn))
  | thread (index : Nat) (threadId : String) (command : ThreadCommand) (service : ServiceObject)
      (connection : Connection) (next : MacroAgentGraphService) :
      process.services[index]? = some service →
      process.storage.connections[service.checkpointer]? = some connection →
      connection.isOpen = true → service.Admits threadId command →
      (process.view connection.database).take host threadId command = some next →
      ProcessStepped sqlite host process (.thread index threadId command)
        (process.commit index service connection.database threadId next)
  | pool (action : PoolAction) (jobs : JobSystem) :
      process.jobs.poolStep action = some jobs →
      ProcessStepped sqlite host process (.pool action) { process with jobs := jobs }
  | restart : ProcessStepped sqlite host process .restart process.restart

namespace GraphProcess

variable {sqlite : Sqlite} {host : Host} {process next : GraphProcess}

theorem close_cases {index : Nat} (closed : process.close index = some next) :
    ProcessStepped sqlite host process (.close index) next := by
  unfold close at closed
  cases found : process.services[index]? with
  | none => simp [found] at closed
  | some service =>
      simp only [found] at closed
      split at closed
      · next idle =>
          cases closed
          unfold CheckpointPersistenceManager.exit
          cases entered : service.persistence.conn with
          | none => exact .leaves index service found idle (by simp [entered])
          | some conn =>
              dsimp only
              split
              · next retained =>
                  refine .leaves index service found idle fun other same => ?_
                  cases entered.symm.trans same
                  exact retained
              · next unretained => exact .closes index service conn found idle entered unretained
      · cases closed

theorem take_cases {index : Nat} {threadId : String} {command : ThreadCommand}
    (taken : process.take host index threadId command = some next) :
    ProcessStepped sqlite host process (.thread index threadId command) next := by
  unfold take at taken
  cases found : process.services[index]? with
  | none => simp [found] at taken
  | some service =>
      simp only [found] at taken
      cases connected : process.storage.connections[service.checkpointer]? with
      | none => simp [connected] at taken
      | some connection =>
          simp only [connected] at taken
          split at taken
          · next admitted =>
              obtain ⟨after, moved, rfl⟩ := Option.map_eq_some_iff.mp taken
              exact .thread index threadId command service connection after found connected
                admitted.1 admitted.2 moved
          · cases taken

theorem step_cases {action : ProcessAction}
    (stepped : process.step sqlite host action = some next) :
    ProcessStepped sqlite host process action next := by
  cases action with
  | construct dbPath =>
      cases stepped
      exact .construct dbPath
  | close index => exact close_cases stepped
  | thread index threadId command => exact take_cases stepped
  | pool action =>
      obtain ⟨jobs, moved, rfl⟩ := Option.map_eq_some_iff.mp stepped
      exact .pool action jobs moved
  | restart =>
      cases stepped
      exact .restart

@[simp] theorem construct_services (dbPath : String) :
    (process.construct sqlite dbPath).services = process.services ++
      [⟨⟨dbPath, some process.storage.connections.length⟩, process.storage.connections.length, []⟩] :=
  rfl

@[simp] theorem construct_connections (dbPath : String) :
    (process.construct sqlite dbPath).storage.connections = process.storage.connections ++
      [⟨(sqlite (CheckpointPersistenceManager.isUri dbPath) dbPath).database
        process.storage.connections.length, true⟩] := by
  simp only [construct, CheckpointPersistenceManager.enter]
  split <;> rfl

@[simp] theorem construct_checkpoints (dbPath : String) :
    (process.construct sqlite dbPath).storage.checkpoints = process.storage.checkpoints := by
  simp only [construct, CheckpointPersistenceManager.enter]
  split <;> rfl

theorem construct_retained (dbPath connString : String) :
    (process.construct sqlite dbPath).storage.sharedMemoryConnections.get? connString =
      if CheckpointPersistenceManager.isSharedMemoryUri dbPath = true ∧ connString = dbPath then
        some ((process.storage.sharedMemoryConnections.get? dbPath).getD
          process.storage.connections.length)
      else process.storage.sharedMemoryConnections.get? connString := by
  simp only [construct, CheckpointPersistenceManager.enter]
  split
  · next uri => simp [CheckpointStorage.connect, OrderedDict.get?_setDefault, uri]
  · next other => simp [CheckpointStorage.connect, other]

end GraphProcess

/-! ## Connections in a run -/

namespace GraphProcess

variable {sqlite : Sqlite} {host : Host} {process next : GraphProcess}

/-- The connection strings of the services, in the order in which they were made. -/
def paths (process : GraphProcess) : List String :=
  process.services.map fun service => service.persistence.connString

def locate (sqlite : Sqlite) (connString : String) : Location :=
  sqlite (CheckpointPersistenceManager.isUri connString) connString

/-- Each service has made one connection, to its own database. It is open until the service
is closed, and ever after if it was the first of its URI. -/
structure Owns (sqlite : Sqlite) (process : GraphProcess) (index : Nat) (service : ServiceObject) :
    Prop where
  checkpointer : service.checkpointer = index
  entered : ∀ conn, service.persistence.conn = some conn → conn = index
  connection : ∃ isOpen, process.storage.connections[index]? =
      some ⟨(locate sqlite service.persistence.connString).database index, isOpen⟩ ∧
    (isOpen = true ↔ service.persistence.conn = some index ∨
      CheckpointPersistenceManager.isSharedMemoryUri service.persistence.connString = true ∧
        process.paths.idxOf service.persistence.connString = index)

/-- The connections of a process are those of its services, and a database in memory to which
none of them leads holds no thread. -/
structure Accounted (sqlite : Sqlite) (process : GraphProcess) : Prop where
  length : process.storage.connections.length = process.services.length
  owns : ∀ index service, process.services[index]? = some service →
    process.Owns sqlite index service
  retained : ∀ connString,
    process.storage.sharedMemoryConnections.get? connString =
      if CheckpointPersistenceManager.isSharedMemoryUri connString = true ∧
          connString ∈ process.paths then
        some (process.paths.idxOf connString)
      else none
  blank : ∀ database, ¬ process.storage.Keeps database →
    process.storage.checkpoints database = fun _ => .blank

theorem Accounted.initial : Accounted sqlite .initial where
  length := rfl
  owns := by simp [GraphProcess.initial]
  retained := by simp [GraphProcess.initial, CheckpointStorage.initial, paths]
  blank := fun _ _ => rfl

theorem Owns.transfer {index : Nat} {service other : ServiceObject}
    (owned : process.Owns sqlite index service)
    (persistence : other.persistence = service.persistence)
    (checkpointer : other.checkpointer = service.checkpointer)
    (connections : next.storage.connections[index]? = process.storage.connections[index]?)
    (first : next.paths.idxOf service.persistence.connString =
      process.paths.idxOf service.persistence.connString) : next.Owns sqlite index other where
  checkpointer := checkpointer.trans owned.checkpointer
  entered := by
    rw [persistence]
    exact owned.entered
  connection := by
    rw [persistence, connections, first]
    exact owned.connection

theorem mem_paths {index : Nat} {service : ServiceObject}
    (found : process.services[index]? = some service) :
    service.persistence.connString ∈ process.paths :=
  List.mem_map.mpr ⟨service, List.mem_of_getElem? found, rfl⟩

/-- Replacing a service by one with the same connection string. -/
theorem paths_set {index : Nat} {service other : ServiceObject} {services : List ServiceObject}
    (found : services[index]? = some service)
    (same : other.persistence.connString = service.persistence.connString) :
    (services.set index other).map (fun each => each.persistence.connString) =
      services.map fun each => each.persistence.connString := by
  rw [List.map_set, same]
  refine List.ext_getElem? fun position => ?_
  rw [List.getElem?_set]
  split
  · next here =>
      subst here
      obtain ⟨inside, value⟩ := List.getElem?_eq_some_iff.mp found
      simp [inside, value]
  · rfl

theorem getElem?_concat_cases {α : Type} {items : List α} {last item : α} {index : Nat}
    (found : (items ++ [last])[index]? = some item) :
    items[index]? = some item ∨ index = items.length ∧ item = last := by
  by_cases inside : index < items.length
  · rw [List.getElem?_append_left inside] at found
    exact .inl found
  · rw [List.getElem?_append_right (Nat.le_of_not_lt inside)] at found
    obtain ⟨here, same⟩ := List.getElem?_eq_some_iff.mp found
    simp only [List.length_singleton, Nat.lt_one_iff] at here
    refine .inr ⟨by omega, ?_⟩
    simpa [here] using same.symm

theorem construct_paths (dbPath : String) :
    (process.construct sqlite dbPath).paths = process.paths ++ [dbPath] := by
  simp [paths]

theorem idxOf_construct {connString : String} (listed : connString ∈ process.paths)
    (dbPath : String) :
    (process.construct sqlite dbPath).paths.idxOf connString =
      process.paths.idxOf connString := by
  rw [construct_paths, List.idxOf_append, if_pos listed]

theorem construct_keeps {database : Database} (dbPath : String)
    (kept : process.storage.Keeps database) :
    (process.construct sqlite dbPath).storage.Keeps database := by
  have grows : ∀ other, process.storage.Connected other →
      (process.construct sqlite dbPath).storage.Connected other := by
    intro other connected
    obtain ⟨connection, listed, leads⟩ := connected
    exact ⟨connection, by simp [listed], leads⟩
  cases database with
  | disk path => trivial
  | sharedMemory name => exact grows _ kept
  | ofConnection conn => exact grows _ kept

theorem Accounted.construct (accounted : process.Accounted sqlite) (dbPath : String) :
    (process.construct sqlite dbPath).Accounted sqlite where
  length := by simp [accounted.length]
  owns := by
    intro index service found
    rw [construct_services] at found
    rcases getElem?_concat_cases found with old | ⟨rfl, rfl⟩
    · have inside : index < process.storage.connections.length := by
        rw [accounted.length]
        exact (List.getElem?_eq_some_iff.mp old).1
      refine (accounted.owns index service old).transfer rfl rfl ?_
        (idxOf_construct (mem_paths old) dbPath)
      rw [construct_connections, List.getElem?_append_left inside]
    · refine ⟨accounted.length, ?_, true, ?_, ?_⟩
      · intro conn same
        cases same
        exact accounted.length
      · rw [construct_connections, ← accounted.length, List.getElem?_concat_length]
        rfl
      · simp [accounted.length]
  retained := by
    intro connString
    rw [construct_retained, accounted.retained, accounted.retained, construct_paths,
      List.idxOf_append, accounted.length]
    by_cases same : connString = dbPath
    · subst same
      by_cases uri : CheckpointPersistenceManager.isSharedMemoryUri connString = true
      · by_cases listed : connString ∈ process.paths
        · simp [uri, listed]
        · have count : process.paths.length = process.services.length := by simp [paths]
          simp [uri, listed, count]
      · simp [uri]
    · by_cases listed : connString ∈ process.paths
      · simp [same, listed]
      · simp [same, listed]
  blank := by
    intro database vanished
    rw [construct_checkpoints]
    exact accounted.blank database fun kept => vanished (construct_keeps dbPath kept)

theorem closing_paths {index : Nat} {service : ServiceObject}
    (found : process.services[index]? = some service) (storage : CheckpointStorage) :
    (process.closing index service storage).paths = process.paths :=
  paths_set found rfl

theorem Accounted.exit (accounted : process.Accounted sqlite) {index : Nat}
    {service : ServiceObject} (found : process.services[index]? = some service)
    {storage : CheckpointStorage}
    (length : storage.connections.length = process.storage.connections.length)
    (others : ∀ other, other ≠ index →
      storage.connections[other]? = process.storage.connections[other]?)
    (own : ∃ isOpen, storage.connections[index]? =
        some ⟨(locate sqlite service.persistence.connString).database index, isOpen⟩ ∧
      (isOpen = true ↔
        CheckpointPersistenceManager.isSharedMemoryUri service.persistence.connString = true ∧
          process.paths.idxOf service.persistence.connString = index))
    (shared : storage.sharedMemoryConnections = process.storage.sharedMemoryConnections)
    (blank : ∀ database, ¬ storage.Keeps database →
      storage.checkpoints database = fun _ => .blank) :
    (process.closing index service storage).Accounted sqlite where
  length := by simpa [closing, length] using accounted.length
  owns := by
    intro other member listed
    have paths := closing_paths found storage
    simp only [closing, List.getElem?_set] at listed
    split at listed
    · next here =>
        subst here
        have inside := (List.getElem?_eq_some_iff.mp found).1
        obtain rfl : _ = member := by simpa [inside] using listed
        obtain ⟨isOpen, connection, accounts⟩ := own
        refine ⟨(accounted.owns index service found).checkpointer, by simp, isOpen, connection, ?_⟩
        simpa [paths] using accounts
    · next different =>
        exact (accounted.owns other member listed).transfer rfl rfl
          (others other (Ne.symm different)) (by rw [paths])
  retained := by
    intro connString
    rw [closing_paths found, ← accounted.retained]
    exact congrArg (fun dict => dict.get? connString) shared
  blank := blank

/-- A connection that is closed as the first of its URI stays open. -/
theorem Accounted.first_iff (accounted : process.Accounted sqlite) {index : Nat}
    {service : ServiceObject} (found : process.services[index]? = some service) (conn : Nat) :
    process.storage.sharedMemoryConnections.get? service.persistence.connString = some conn ↔
      CheckpointPersistenceManager.isSharedMemoryUri service.persistence.connString = true ∧
        process.paths.idxOf service.persistence.connString = conn := by
  rw [accounted.retained]
  simp [mem_paths found]

theorem Accounted.leave (accounted : process.Accounted sqlite) {index : Nat}
    {service : ServiceObject} (found : process.services[index]? = some service)
    (retained : ∀ conn, service.persistence.conn = some conn →
      process.storage.sharedMemoryConnections.get? service.persistence.connString = some conn) :
    (process.closing index service process.storage).Accounted sqlite := by
  obtain ⟨_, _, isOpen, connection, accounts⟩ := accounted.owns index service found
  refine accounted.exit found rfl (fun _ _ => rfl) ⟨isOpen, connection, ?_⟩ rfl accounted.blank
  rw [accounts]
  constructor
  · intro holds
    cases holds with
    | inl entered => exact (accounted.first_iff found index).mp (retained index entered)
    | inr first => exact first
  · exact .inr

theorem Accounted.closeConnection (accounted : process.Accounted sqlite) {index conn : Nat}
    {service : ServiceObject} (found : process.services[index]? = some service)
    (entered : service.persistence.conn = some conn)
    (unretained : process.storage.sharedMemoryConnections.get? service.persistence.connString ≠
      some conn) :
    (process.closing index service (process.storage.close conn)).Accounted sqlite := by
  obtain ⟨_, own, isOpen, connection, _⟩ := accounted.owns index service found
  obtain rfl := own conn entered
  refine accounted.exit found ?_ ?_ ⟨false, ?_, ?_⟩ rfl ?_
  · simp [CheckpointStorage.close, CheckpointStorage.forget]
  · intro other different
    simp [CheckpointStorage.close, CheckpointStorage.forget, Ne.symm different]
  · simp [CheckpointStorage.close, CheckpointStorage.forget, connection]
  · simpa [← accounted.first_iff found conn] using unretained
  · intro database vanished
    exact if_neg vanished

/-- A call changes only what a database holds to which a connection is open. -/
theorem Accounted.commit (accounted : process.Accounted sqlite) {index : Nat} {threadId : String}
    {service : ServiceObject} {connection : Connection} {after : MacroAgentGraphService}
    (found : process.services[index]? = some service)
    (connected : process.storage.connections[service.checkpointer]? = some connection)
    (opened : connection.isOpen = true) :
    (process.commit index service connection.database threadId after).Accounted sqlite := by
  have paths : (process.commit index service connection.database threadId after).paths =
      process.paths := paths_set found rfl
  refine ⟨?_, ?_, ?_, ?_⟩
  · simpa [GraphProcess.commit] using accounted.length
  · intro other member listed
    simp only [GraphProcess.commit, List.getElem?_set] at listed
    split at listed
    · next here =>
        subst here
        have inside := (List.getElem?_eq_some_iff.mp found).1
        obtain rfl : _ = member := by simpa [inside] using listed
        exact (accounted.owns index service found).transfer rfl rfl rfl (by rw [paths])
    · exact (accounted.owns other member listed).transfer rfl rfl rfl (by rw [paths])
  · intro connString
    rw [paths]
    exact accounted.retained connString
  · intro database vanished
    have kept : ¬ process.storage.Keeps database := vanished
    have different : database ≠ connection.database := by
      rintro rfl
      have linked : process.storage.Connected connection.database :=
        ⟨connection, List.mem_of_getElem? connected, rfl, opened⟩
      exact kept linked.keeps
    simpa [GraphProcess.commit, different] using accounted.blank database kept

theorem Accounted.restart : process.restart.Accounted sqlite where
  length := rfl
  owns := by simp [GraphProcess.restart]
  retained := by simp [GraphProcess.restart, paths]
  blank := by
    intro database vanished
    cases database with
    | disk path => exact absurd trivial vanished
    | sharedMemory name => rfl
    | ofConnection conn => rfl

theorem Accounted.step (accounted : process.Accounted sqlite) {action : ProcessAction}
    (stepped : process.step sqlite host action = some next) : next.Accounted sqlite := by
  cases step_cases stepped with
  | construct dbPath => exact accounted.construct dbPath
  | leaves index service found _ retained => exact accounted.leave found retained
  | closes index service conn found _ entered unretained =>
      exact accounted.closeConnection found entered unretained
  | thread index threadId command service connection after found connected opened =>
      exact accounted.commit found connected opened
  | pool action jobs =>
      refine ⟨accounted.length, fun index service found => ?_, accounted.retained,
        accounted.blank⟩
      exact (accounted.owns index service found).transfer rfl rfl rfl rfl
  | restart => exact .restart

end GraphProcess

theorem run_accounted {sqlite : Sqlite} {host : Host} {history : List ProcessTransition}
    {process : GraphProcess}
    (run : Run (GraphProcess.step sqlite host) .initial history process) :
    process.Accounted sqlite := by
  induction run with
  | nil => exact .initial
  | snoc _ stepped ih => exact ih.step stepped

/-! ## What is left open -/

section Left

variable {sqlite : Sqlite} {host : Host} {process : GraphProcess}
  {history : List ProcessTransition}

/-- The URIs of shared memory that a process has opened. -/
def GraphProcess.sharedUris (process : GraphProcess) : Finset String :=
  (process.paths.filter CheckpointPersistenceManager.isSharedMemoryUri).toFinset

theorem GraphProcess.Accounted.open_le (accounted : process.Accounted sqlite) {count : Nat}
    (within : count ≤ process.services.length) :
    (process.storage.connections.take count).countP Connection.isOpen ≤
      (process.services.take count).countP (fun service => service.persistence.conn.isSome) +
        ((process.paths.take count).filter
          CheckpointPersistenceManager.isSharedMemoryUri).toFinset.card := by
  induction count with
  | zero => simp
  | succ count ih =>
      have before := ih (Nat.le_of_succ_le within)
      have here : process.services[count]? = some process.services[count] :=
        List.getElem?_eq_getElem within
      obtain ⟨_, _, isOpen, owned, accounts⟩ := accounted.owns count _ here
      generalize process.services[count] = service at here owned accounts
      have named : process.paths[count]? = some service.persistence.connString := by
        simp [paths, here]
      simp only [List.take_add_one, owned, here, named, Option.toList_some, List.countP_append,
        List.countP_singleton, List.filter_append, List.toFinset_append]
      generalize uris : ((process.paths.take count).filter
        CheckpointPersistenceManager.isSharedMemoryUri).toFinset = earlier at before
      have grows : ∀ new : Finset String, earlier.card ≤ (earlier ∪ new).card :=
        fun _ => Finset.card_le_card Finset.subset_union_left
      cases isOpen with
      | false =>
          simp only [Bool.false_eq_true, if_false]
          exact before.trans (Nat.add_le_add (Nat.le_add_right _ _) (grows _))
      | true =>
          rcases accounts.mp rfl with entered | ⟨uri, first⟩
          · simp only [entered, Option.isSome_some, if_true]
            have more := grows (([service.persistence.connString].filter
              CheckpointPersistenceManager.isSharedMemoryUri).toFinset)
            omega
          · have fresh : service.persistence.connString ∉ earlier := by
              rw [← uris, List.mem_toFinset, List.mem_filter,
                List.mem_take_iff_idxOf_lt (mem_paths here), first]
              exact fun early => Nat.lt_irrefl count early.1
            have one : (earlier ∪ {service.persistence.connString}).card = earlier.card + 1 :=
              Finset.card_union_of_disjoint (Finset.disjoint_singleton_right.mpr fresh)
            simp only [uri, List.filter_cons, if_true, List.filter_nil, List.toFinset_cons,
              List.toFinset_nil, insert_empty_eq, one]
            omega

/-- However services are made, used and closed, and however often they are closed, each
writes to a connection of its own. It is open as long as the service is not closed, and ever
after exactly if it was the first of a URI of shared memory; no others are left open. -/
theorem connections_accounted
    (run : Run (GraphProcess.step sqlite host) .initial history process) :
    (∀ index service, process.services[index]? = some service →
      ∃ connection, process.storage.connections[service.checkpointer]? = some connection ∧
        connection.database =
          (GraphProcess.locate sqlite service.persistence.connString).database index ∧
        (connection.isOpen = true ↔ service.persistence.conn ≠ none ∨
          CheckpointPersistenceManager.isSharedMemoryUri service.persistence.connString = true ∧
            process.paths.idxOf service.persistence.connString = index)) ∧
      process.storage.connections.countP Connection.isOpen ≤
        process.services.countP (fun service => service.persistence.conn.isSome) +
          process.sharedUris.card := by
  have accounted := run_accounted run
  refine ⟨fun index service found => ?_, ?_⟩
  · obtain ⟨checkpointer, entered, isOpen, owned, accounts⟩ :=
      accounted.owns index service found
    rw [checkpointer]
    refine ⟨_, owned, rfl, ?_⟩
    cases held : service.persistence.conn with
    | none => simpa [held] using accounts
    | some conn =>
        obtain rfl := entered conn held
        simpa [held] using accounts
  · have bound := accounted.open_le (Nat.le_refl _)
    have named : process.paths.length = process.services.length := by simp [GraphProcess.paths]
    rwa [← accounted.length, List.take_length, accounted.length, List.take_length, ← named,
      List.take_length] at bound

end Left

def demoUri : String := "file:macro_demo?mode=memory&cache=shared"

/-- The strings of the demonstration and of the default. -/
def readDemo : Sqlite := fun uri connString =>
  if uri = true ∧ connString = demoUri then .sharedMemory "macro_demo"
  else if connString = ":memory:" then .privateMemory
  else .disk connString

private def threeServices : List ProcessAction :=
  [.construct demoUri, .construct ":memory:", .close 0, .construct demoUri, .close 2, .close 0,
    .close 1]

/-- Three services have been closed, and the first connection of the URI is open. -/
theorem one_connection_left_open :
    ∃ history process, Run (GraphProcess.step readDemo Host.ascii) .initial history process ∧
      process.storage.connections.map Connection.isOpen = [true, false, false] ∧
      process.storage.connections.countP Connection.isOpen ≤
        process.services.countP (fun service => service.persistence.conn.isSome) +
          process.sharedUris.card := by
  obtain ⟨history, process, run, _, connections⟩ :=
    execute_observed (GraphProcess.step readDemo Host.ascii) .initial threeServices
      (fun outcome => outcome.2.storage.connections.map Connection.isOpen)
      [true, false, false] (by decide +kernel)
  exact ⟨history, process, run, connections, (connections_accounted run).2⟩

end DurableAgent.Graph
