import DurableAgent.Graph.Bookkeeping
import DurableAgent.Graph.Recovery
import DurableAgent.Jobs.Retry
import DurableAgent.Library.Simulation

/-!
# The service

`graph/service.py` with all its threads. Their calls interleave node by node, and the job
store of `graph/nodes.py` is one for all of them and for the loops that work on it. Each
thread lives as it would alone, beside other parties that act regularly.
-/

set_option autoImplicit false

namespace DurableAgent.Graph

open Jobs Library Python

/-- What the checkpointer holds of a thread, and where its call stands. -/
structure Checkpoint where
  values : MacroAgentState
  position : Position

structure MacroAgentGraphService where
  threads : String → Checkpoint
  jobs : JobSystem

inductive ThreadCommand where
  | runWorkflow (runId userQuery : String)
  | resumeWorkflow (review : Dict)
  | node (clock : Nat)
  | crash (clock : Option Nat)

/-- A command is carried out on the store as it is. -/
def ThreadCommand.resolve (store : SQLiteJobStore) : ThreadCommand → ThreadAction
  | .runWorkflow runId userQuery => .runWorkflow runId userQuery
  | .resumeWorkflow review => .resumeWorkflow review
  | .node clock => .node store clock
  | .crash clock => .crash store clock

/-- The reading of the clock that a submission would use. -/
def ThreadCommand.clock : ThreadCommand → Option Nat
  | .runWorkflow _ _ | .resumeWorkflow _ => none
  | .node clock => some clock
  | .crash clock => clock

inductive ServiceAction where
  | thread (threadId : String) (command : ThreadCommand)
  | pool (action : PoolAction)

namespace MacroAgentGraphService

def initial : MacroAgentGraphService where
  threads _ := ⟨{}, .atEnd⟩
  jobs := .initial

def threadAt (service : MacroAgentGraphService) (threadId : String) : Thread where
  values := (service.threads threadId).values
  position := (service.threads threadId).position
  store := service.jobs.store

def take (service : MacroAgentGraphService) (host : Host) (threadId : String)
    (command : ThreadCommand) : Option MacroAgentGraphService :=
  ((service.threadAt threadId).step host threadId (command.resolve service.jobs.store)).map
    fun thread =>
      { threads := Function.update service.threads threadId ⟨thread.values, thread.position⟩
        jobs := { service.jobs with store := thread.store } }

def step (host : Host) (service : MacroAgentGraphService) :
    ServiceAction → Option MacroAgentGraphService
  | .thread threadId command => service.take host threadId command
  | .pool action => (service.jobs.poolStep action).map fun jobs => { service with jobs := jobs }

end MacroAgentGraphService

abbrev ServiceTransition := Transition MacroAgentGraphService ServiceAction

/-- Clients that submit jobs themselves keep away from the keys of the threads. -/
def ClientsApart (transition : ServiceTransition) : Prop :=
  ∀ jobType key payload clock maxAttempts,
    transition.label = .pool (.submitJob jobType key payload clock maxAttempts) →
    ∀ threadId, Foreign threadId key

/-- No submission takes an identifier that is in use. -/
def FreshReading (transition : ServiceTransition) : Prop :=
  ∀ threadId command clock, transition.label = .thread threadId command →
    command.clock = some clock → transition.source.jobs.store.getJob (jobIdAt clock) = none

def ServiceAction.submits : ServiceAction → Bool
  | .pool (.submitJob ..) => true
  | .pool _ | .thread _ _ => false

/-- Where no client submits a job, none interferes with a thread. -/
theorem clientsApart_of_threads {history : List ServiceTransition} {calls : List ServiceAction}
    (labels : history.map (·.label) = calls) (silent : calls.all (!·.submits) = true) :
    ∀ transition ∈ history, ClientsApart transition := by
  intro transition member jobType key payload clock maxAttempts submitted
  have listed : transition.label ∈ calls := labels ▸ List.mem_map_of_mem member
  have quiet := List.all_eq_true.mp silent _ listed
  rw [submitted] at quiet
  cases quiet

/-! ## One step -/

/-- What the loops, the executions and the clients do to the store. -/
theorem poolStep_unique {foreign : String → Prop} {system next : JobSystem} {action : PoolAction}
    (stepped : system.poolStep action = some next)
    (submits : ∀ jobType key payload clock maxAttempts,
      action = .submitJob jobType key payload clock maxAttempts → foreign key) :
    UniqueActivity foreign system.store next.store := by
  cases action with
  | submitJob jobType key payload clock maxAttempts =>
      have submitted : system.step (.submitJob jobType key payload clock maxAttempts) = some next :=
        stepped
      refine JobSystem.step_unique submitted ?_
      rintro _ _ _ _ _ ⟨⟩
      exact submits _ _ _ _ _ rfl
  | requestCancel jobId =>
      cases stepped
      exact .single ⟨.updateJobStatus jobId .cancelRequested none (by decide),
        .mutate _ _ fun _ => rfl⟩
  | processLoop worker =>
      have taken : system.step .processLoop = some next := stepped
      exact JobSystem.step_unique taken (by simp)
  | startExecution jobId =>
      have taken : system.step (.startExecution jobId) = some next := stepped
      exact JobSystem.step_unique taken (by simp)
  | wakeExecution jobId =>
      have taken : system.step (.wakeExecution jobId) = some next := stepped
      exact JobSystem.step_unique taken (by simp)

theorem Thread.advance_congr {thread other : Thread} (same : thread.values = other.values)
    (host : Host) (node : Node) (review : Option Dict) (store : SQLiteJobStore) (clock : Nat) :
    thread.advance host node review store clock = other.advance host node review store clock := by
  unfold Thread.advance
  rw [same]

/-- A thread that has not looked at the store since some time takes the same step. -/
theorem Thread.step_behind {host : Host} {threadId : String} {thread next : Thread}
    {store : SQLiteJobStore} {command : ThreadCommand}
    (stepped : ({ thread with store := store } : Thread).step host threadId
      (command.resolve store) = some next) :
    ∃ after, thread.step host threadId (command.resolve store) = some after ∧
      (after = next ∨ after = { next with store := thread.store } ∧ next.store = store ∧
        (command.resolve store).leftStore = none) := by
  have settles : ({ thread with store := store } : Thread).Settled → thread.Settled := id
  cases command with
  | runWorkflow runId userQuery =>
      cases Thread.step_cases stepped with
      | runWorkflow _ _ settled =>
          exact ⟨_, Thread.step_runWorkflow (settles settled) runId userQuery, .inr ⟨rfl, rfl, rfl⟩⟩
  | resumeWorkflow review =>
      cases Thread.step_cases stepped with
      | resumeWorkflow _ paused =>
          have stands : thread.position = .interrupted := paused
          exact ⟨_, Thread.step_resumeWorkflow stands review, .inr ⟨rfl, rfl, rfl⟩⟩
  | node clock =>
      cases Thread.step_cases stepped with
      | node node review _ _ executing =>
          have stands : thread.position = .executing node review := executing
          exact ⟨_, Thread.step_node stands store clock, .inl (Thread.advance_congr rfl ..)⟩
  | crash clock =>
      cases Thread.step_cases stepped with
      | crash node review _ _ executing =>
          have lost : thread.lostStore host node review store clock =
              ({ thread with store := store } : Thread).lostStore host node review store clock := by
            cases clock with
            | none => rfl
            | some reading => exact congrArg Thread.store (Thread.advance_congr rfl ..)
          have moved : thread.step host threadId (.crash store clock) =
              some { thread with
                position := .crashed
                store := thread.lostStore host node review store clock } := by
            have stands : thread.position = .executing node review := executing
            simp [Thread.step, stands]
          exact ⟨_, moved, .inl (by rw [lost])⟩

namespace MacroAgentGraphService

variable {host : Host} {threadId : String} {service next : MacroAgentGraphService}

/-- Every thread is under the control of the router. -/
def Disciplined (service : MacroAgentGraphService) : Prop :=
  ∀ threadId, Controlled threadId (service.threadAt threadId)

theorem take_inv {command : ThreadCommand} (taken : service.take host threadId command = some next) :
    ∃ thread, (service.threadAt threadId).step host threadId
        (command.resolve service.jobs.store) = some thread ∧
      next.threadAt threadId = thread ∧ next.jobs.store = thread.store ∧
      ∀ other, other ≠ threadId → next.threads other = service.threads other := by
  obtain ⟨thread, stepped, rfl⟩ := Option.map_eq_some_iff.mp taken
  refine ⟨thread, stepped, ?_, rfl, ?_⟩
  · simp [threadAt]
  · intro other different
    simp [different]

theorem Disciplined.initial : Disciplined initial := fun _ => Controlled.initial

theorem Disciplined.step (disciplined : service.Disciplined) {action : ServiceAction}
    (stepped : service.step host action = some next) : next.Disciplined := by
  intro other
  have controlled := disciplined other
  cases action with
  | thread threadId command =>
      obtain ⟨thread, moved, same, _, others⟩ := take_inv stepped
      by_cases own : other = threadId
      · subst own
        rw [same]
        exact (disciplined other).step moved
      · have kept := others other own
        refine ⟨?_, ?_, ?_⟩
        · simpa [threadAt, kept] using controlled.routed
        · simpa [threadAt, kept] using controlled.paused
        · simpa [threadAt, kept, Thread.Live] using controlled.named
  | pool action =>
      obtain ⟨jobs, _, rfl⟩ := Option.map_eq_some_iff.mp stepped
      exact ⟨controlled.routed, controlled.paused, controlled.named⟩

theorem run_disciplined {history : List ServiceTransition}
    (run : Run (step host) initial history service) : service.Disciplined := by
  induction run with
  | nil => exact .initial
  | snoc _ stepped ih => exact ih.step stepped

/-- A step of a thread writes to the store only by a submission under its own key. -/
theorem take_store {motive : SQLiteJobStore → Prop} {command : ThreadCommand}
    (disciplined : service.Disciplined)
    (taken : service.take host threadId command = some next)
    (unchanged : motive service.jobs.store)
    (submitted : ∀ currentStep jobType payload clock, command.clock = some clock →
      motive (service.jobs.store.submitJob jobType (threadKey threadId currentStep) payload
        clock).2) : motive next.jobs.store := by
  obtain ⟨thread, moved, _, store, _⟩ := take_inv taken
  have advances : ∀ node review clock,
      (service.threadAt threadId).position = .executing node review →
      command.clock = some clock →
      motive ((service.threadAt threadId).advance host node review service.jobs.store
        clock).store := by
    intro node review clock executing reading
    have named := (disciplined threadId).named (.inr ⟨node, review, executing⟩)
    refine Thread.advance_store_keeps _ host node review clock unchanged ?_
    intro _ jobType payload
    rw [MacroAgentState.idempotencyKey, named]
    exact submitted _ jobType payload clock reading
  rw [store]
  cases command with
  | runWorkflow runId userQuery =>
      cases Thread.step_cases moved with
      | runWorkflow => exact unchanged
  | resumeWorkflow review =>
      cases Thread.step_cases moved with
      | resumeWorkflow => exact unchanged
  | node clock =>
      cases Thread.step_cases moved with
      | node node review _ _ executing => exact advances node review clock executing rfl
  | crash clock =>
      cases Thread.step_cases moved with
      | crash node review _ _ executing =>
          cases clock with
          | none => exact unchanged
          | some reading => exact advances node review reading executing rfl

end MacroAgentGraphService

/-! ## Threads of the service -/

/-- The thread has this checkpoint, and others have changed the store since it looked. -/
structure ShowsThread (change : (String → Prop) → SQLiteJobStore → SQLiteJobStore → Prop)
    (threadId : String) (service : MacroAgentGraphService) (thread : Thread) : Prop where
  values : thread.values = (service.threads threadId).values
  position : thread.position = (service.threads threadId).position
  store : Relation.ReflTransGen (change (Foreign threadId)) thread.store service.jobs.store

def ownAction (threadId : String) (transition : ServiceTransition) : Option ThreadAction :=
  match transition.label with
  | .thread other command =>
      if other = threadId then some (command.resolve transition.source.jobs.store) else none
  | .pool _ => none

def threadOf (change : (String → Prop) → SQLiteJobStore → SQLiteJobStore → Prop)
    (threadId : String) : Component MacroAgentGraphService ServiceAction Thread ThreadAction where
  own := ownAction threadId
  shows := ShowsThread change threadId

/-- What others do between the steps of a thread, and what its own steps do to the store. -/
def Attended (change : (String → Prop) → SQLiteJobStore → SQLiteJobStore → Prop)
    (keeps : SQLiteJobStore → SQLiteJobStore → Prop) (threadId : String)
    (taken : ThreadTransition) : Prop :=
  ∀ store, taken.label.leftStore = some store →
    Relation.ReflTransGen (change (Foreign threadId)) taken.source.store store ∧
      keeps store taken.target.store

/-- No thread is disturbed by what is not its own. -/
structure Undisturbed (change : (String → Prop) → SQLiteJobStore → SQLiteJobStore → Prop)
    (keeps : SQLiteJobStore → SQLiteJobStore → Prop) (transition : ServiceTransition) : Prop where
  others : ∀ threadId, ownAction threadId transition = none →
    Relation.ReflTransGen (change (Foreign threadId)) transition.source.jobs.store
      transition.target.jobs.store
  own : ∀ threadId command, transition.label = .thread threadId command →
    keeps transition.source.jobs.store transition.target.jobs.store

section Simulation

variable {host : Host} {change : (String → Prop) → SQLiteJobStore → SQLiteJobStore → Prop}
  {keeps : SQLiteJobStore → SQLiteJobStore → Prop} {history : List ServiceTransition}
  {service : MacroAgentGraphService}

theorem ShowsThread.threadAt {threadId : String} {thread : Thread}
    (shown : ShowsThread change threadId service thread) :
    service.threadAt threadId = { thread with store := service.jobs.store } := by
  simp [MacroAgentGraphService.threadAt, shown.values, shown.position]

theorem threadOf_simulates (threadId : String) :
    (threadOf change threadId).Simulates (MacroAgentGraphService.step host)
      (Thread.step host threadId) (Undisturbed change keeps)
      (Attended change keeps threadId) where
  moves := by
    intro service action next thread taken shown stepped undisturbed owned
    cases action with
    | pool action => cases owned
    | thread other command =>
        have same : other = threadId := by
          by_contra different
          simp [threadOf, ownAction, different] at owned
        subst same
        obtain rfl : command.resolve service.jobs.store = taken := by
          simpa [threadOf, ownAction] using owned
        obtain ⟨followed, moved, shows, store, _⟩ := MacroAgentGraphService.take_inv stepped
        rw [shown.threadAt] at moved
        obtain ⟨after, took, behind⟩ := Thread.step_behind moved
        have values : (next.threads other).values = followed.values := congrArg Thread.values shows
        have position : (next.threads other).position = followed.position :=
          congrArg Thread.position shows
        have kept := undisturbed.own other command rfl
        rcases behind with rfl | ⟨rfl, quiet, blind⟩
        · refine ⟨after, took, ⟨values.symm, position.symm, ?_⟩, ?_⟩
          · rw [store]
          · intro left looked
            cases command with
            | runWorkflow | resumeWorkflow => cases looked
            | node | crash =>
                cases looked
                exact ⟨shown.store, store ▸ kept⟩
        · refine ⟨_, took, ⟨values.symm, position.symm, ?_⟩, ?_⟩
          · rw [store, quiet]
            exact shown.store
          · intro left looked
            cases blind.symm.trans looked
  rests := by
    intro service action next thread shown stepped undisturbed foreign
    have kept : next.threads threadId = service.threads threadId := by
      cases action with
      | pool action =>
          obtain ⟨jobs, _, rfl⟩ := Option.map_eq_some_iff.mp stepped
          rfl
      | thread other command =>
          obtain ⟨_, _, _, _, others⟩ := MacroAgentGraphService.take_inv stepped
          refine others threadId ?_
          rintro rfl
          simp [threadOf, ownAction] at foreign
    exact ⟨by rw [kept, shown.values], by rw [kept, shown.position],
      shown.store.trans (undisturbed.others threadId foreign)⟩

theorem foreign_threadKey {left right : String} (different : left ≠ right) (step : Nat) :
    Foreign left (threadKey right step) := fun _ same => different (threadKey_inj.mp same).1.symm

/-- What one step of the service leaves undisturbed, for changes that take in those of the
loops and the submissions of other threads. -/
theorem undisturbed_of_step {next : MacroAgentGraphService} {action : ServiceAction}
    (disciplined : service.Disciplined)
    (stepped : service.step host action = some next)
    (apart : ClientsApart ⟨service, action, next⟩)
    (pooled : ∀ foreign source target, UniqueChange foreign source target →
      change foreign source target)
    (reflexive : ∀ store, keeps store store)
    (submits : ∀ threadId command clock currentStep jobType payload,
      action = .thread threadId command → command.clock = some clock →
      (∀ other, other ≠ threadId → change (Foreign other) service.jobs.store
        (service.jobs.store.submitJob jobType (threadKey threadId currentStep) payload clock).2) ∧
      keeps service.jobs.store
        (service.jobs.store.submitJob jobType (threadKey threadId currentStep) payload clock).2) :
    Undisturbed change keeps ⟨service, action, next⟩ where
  others := by
    intro other foreign
    cases action with
    | pool action =>
        obtain ⟨jobs, moved, rfl⟩ := Option.map_eq_some_iff.mp stepped
        have unique : UniqueActivity (Foreign other) service.jobs.store jobs.store := by
          refine poolStep_unique moved ?_
          rintro jobType key payload clock maxAttempts rfl
          exact apart _ _ _ _ _ rfl other
        exact Relation.ReflTransGen.mono (pooled _) _ _ unique
    | thread threadId command =>
        have different : other ≠ threadId := by
          rintro rfl
          simp [ownAction] at foreign
        refine MacroAgentGraphService.take_store disciplined stepped .refl ?_
        intro currentStep jobType payload clock reading
        exact .single ((submits _ _ _ _ _ _ rfl reading).1 other different)
  own := by
    rintro threadId command rfl
    refine MacroAgentGraphService.take_store disciplined stepped (reflexive _) ?_
    intro currentStep jobType payload clock reading
    exact (submits _ _ _ _ _ _ rfl reading).2

/-- Whatever others do, a thread finds the store as workers and clients of other keys
leave it. -/
theorem undisturbed_regular {next : MacroAgentGraphService} {action : ServiceAction}
    (disciplined : service.Disciplined) (stepped : service.step host action = some next)
    (apart : ClientsApart ⟨service, action, next⟩) :
    Undisturbed StoreChange (fun _ _ => True) ⟨service, action, next⟩ := by
  refine undisturbed_of_step disciplined stepped apart (fun _ _ _ unique => unique.1)
    (fun _ => trivial) ?_
  intro threadId command clock currentStep jobType payload _ _
  refine ⟨fun other different => ?_, trivial⟩
  exact .submitJob jobType _ payload clock (foreign_threadKey different currentStep)

theorem undisturbed_orderly {next : MacroAgentGraphService} {action : ServiceAction}
    (disciplined : service.Disciplined) (stepped : service.step host action = some next)
    (apart : ClientsApart ⟨service, action, next⟩) (fresh : FreshReading ⟨service, action, next⟩) :
    Undisturbed UniqueChange KeepsRecords ⟨service, action, next⟩ := by
  refine undisturbed_of_step disciplined stepped apart (fun _ _ _ unique => unique) .refl ?_
  intro threadId command clock currentStep jobType payload taken reading
  have kept : KeepsRecords service.jobs.store (service.jobs.store.submitJob jobType
      (threadKey threadId currentStep) payload clock).2 :=
    .submitJob _ jobType _ payload (fresh threadId command clock taken reading)
  refine ⟨fun other different => ⟨?_, kept⟩, kept⟩
  exact .submitJob jobType _ payload clock (foreign_threadKey different currentStep)

theorem thread_projects
    (run : Run (MacroAgentGraphService.step host) .initial history service)
    (undisturbed : ∀ transition ∈ history, Undisturbed change keeps transition)
    (threadId : String) :
    ∃ taken thread, Run (Thread.step host threadId) Thread.initial taken thread ∧
      ShowsThread change threadId service thread ∧
      (∀ transition ∈ taken, Attended change keeps threadId transition) ∧
      List.Forall₂ (threadOf change threadId).Takes
        (history.filter (threadOf change threadId).owns) taken :=
  Library.Run.project (threadOf_simulates threadId) ⟨rfl, rfl, .refl⟩ run undisturbed

theorem run_undisturbed_regular
    (run : Run (MacroAgentGraphService.step host) .initial history service)
    (apart : ∀ transition ∈ history, ClientsApart transition) :
    ∀ transition ∈ history, Undisturbed StoreChange (fun _ _ => True) transition := by
  intro transition member
  obtain ⟨earlier, later, rfl⟩ := List.append_of_mem member
  obtain ⟨before, stepped, _⟩ := run.around
  exact undisturbed_regular (MacroAgentGraphService.run_disciplined before) stepped
    (apart transition member)

theorem run_undisturbed_orderly
    (run : Run (MacroAgentGraphService.step host) .initial history service)
    (apart : ∀ transition ∈ history, ClientsApart transition)
    (fresh : ∀ transition ∈ history, FreshReading transition) :
    ∀ transition ∈ history, Undisturbed UniqueChange KeepsRecords transition := by
  intro transition member
  obtain ⟨earlier, later, rfl⟩ := List.append_of_mem member
  obtain ⟨before, stepped, _⟩ := run.around
  exact undisturbed_orderly (MacroAgentGraphService.run_disciplined before) stepped
    (apart transition member) (fresh transition member)

/-- In every interleaving each thread takes exactly its own steps, as a thread alone with
others that act regularly would. -/
theorem service_refines_threads
    (run : Run (MacroAgentGraphService.step host) .initial history service)
    (apart : ∀ transition ∈ history, ClientsApart transition) (threadId : String) :
    ∃ taken thread, Run (Thread.step host threadId) Thread.initial taken thread ∧
      ShowsThread StoreChange threadId service thread ∧
      (∀ transition ∈ taken, Regular threadId transition) ∧
      List.Forall₂ (threadOf StoreChange threadId).Takes
        (history.filter (threadOf StoreChange threadId).owns) taken := by
  obtain ⟨taken, thread, ran, shown, attended, matched⟩ :=
    thread_projects run (run_undisturbed_regular run apart) threadId
  exact ⟨taken, thread, ran, shown,
    fun transition member store left => (attended transition member store left).1, matched⟩

end Simulation

private def twoCalls : List ServiceAction :=
  [.thread "cpi" (.runWorkflow "r1" "Analyze CPI"), .thread "gdp" (.runWorkflow "r2" "Analyze GDP"),
    .thread "cpi" (.node 0), .thread "gdp" (.node 0), .thread "gdp" (.node 0),
    .thread "cpi" (.node 0), .thread "cpi" (.node 7), .pool (.processLoop 0),
    .thread "gdp" (.node 8)]

/-- Two calls, each of which submits a job of its own while a loop claims the first. -/
theorem service_refines_two_threads :
    ∃ history service,
      Run (MacroAgentGraphService.step Host.ascii) .initial history service ∧
        service.jobs.store.jobs.map (·.idempotencyKey) =
          ["thread_cpi_step_2", "thread_gdp_step_2"] ∧
        ∀ threadId, ∃ taken thread,
          Run (Thread.step Host.ascii threadId) Thread.initial taken thread ∧
          ShowsThread StoreChange threadId service thread := by
  obtain ⟨history, service, run, labels, keys⟩ :=
    execute_observed (MacroAgentGraphService.step Host.ascii) .initial twoCalls
      (fun outcome => outcome.2.jobs.store.jobs.map (·.idempotencyKey))
      ["thread_cpi_step_2", "thread_gdp_step_2"] (by decide +kernel)
  refine ⟨history, service, run, keys, fun threadId => ?_⟩
  obtain ⟨taken, thread, ran, shown, _⟩ :=
    service_refines_threads run (clientsApart_of_threads labels (by decide)) threadId
  exact ⟨taken, thread, ran, shown⟩

end DurableAgent.Graph
