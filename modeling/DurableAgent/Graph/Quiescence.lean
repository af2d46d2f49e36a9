import DurableAgent.Graph.ServiceJobs
import DurableAgent.Jobs.Progress
import Mathlib.Data.Finset.Preimage
import Mathlib.Data.Fintype.EquivFin

/-!
# Quiescence of the service

Once the callers are silent, the calls in progress, the loops and the executions bring the
service to rest: every call has returned, and every job has ended.
-/

set_option autoImplicit false

namespace DurableAgent.Graph

open Jobs Library Python

/-! ## The pool under the service -/

/-- A node submits as a client does that keeps the default of `max_attempts`. -/
theorem poolStep_submitJob (system : JobSystem) (jobType key : String) (payload : Dict)
    {clock : Nat} (free : system.store.getJob (jobIdAt clock) = none) :
    system.poolStep (.submitJob jobType key payload clock 3) =
      some { system with store := (system.store.submitJob jobType key payload clock).2 } := by
  rcases system.store.submitJob_cases jobType key payload clock with
    ⟨existing, found, outcome⟩ | ⟨unknown, outcome⟩
  · simp [JobSystem.poolStep, JobSystem.submit, found, outcome]
  · have kept : ∀ record, (system.store.db.insert (jobIdAt clock)
        (queuedRecord jobType key payload clock)).get? (jobIdAt clock) = some record →
        { record with maxAttempts := 3 } = record := by
      intro record stored
      rw [OrderedDict.get?_insert_self] at stored
      cases stored
      rfl
    simp [JobSystem.poolStep, JobSystem.submit, unknown, free, outcome, SQLiteJobStore.mutate,
      OrderedDict.modify_of_fixed kept]

namespace MacroAgentGraphService

variable {host : Host} {threadId : String} {service next : MacroAgentGraphService}
  {history : List ServiceTransition}

/-- What a step of a thread does to the pool. -/
theorem take_jobs {command : ThreadCommand} (disciplined : service.Disciplined)
    (taken : service.take host threadId command = some next)
    (fresh : ∀ clock, command.clock = some clock →
      service.jobs.store.getJob (jobIdAt clock) = none) :
    next.jobs = service.jobs ∨ ∃ jobType key payload clock,
      service.jobs.poolStep (.submitJob jobType key payload clock 3) = some next.jobs := by
  have same : next.jobs = { service.jobs with store := next.jobs.store } := by
    obtain ⟨thread, _, rfl⟩ := Option.map_eq_some_iff.mp taken
    rfl
  rw [same]
  refine take_store (motive := fun store => ({ service.jobs with store := store } : JobSystem) =
    service.jobs ∨ ∃ jobType key payload clock, service.jobs.poolStep
      (.submitJob jobType key payload clock 3) = some { service.jobs with store := store })
    disciplined taken (.inl rfl) ?_
  intro currentStep jobType payload clock reading
  exact .inr ⟨jobType, _, payload, clock, poolStep_submitJob _ jobType _ payload
    (fresh clock reading)⟩

/-- The jobs of a service live in a pool of which its threads are clients. -/
theorem run_pool (run : Run (step host) initial history service)
    (fresh : ∀ transition ∈ history, FreshReading transition) :
    ∃ past, Run JobSystem.poolStep JobSystem.initial past service.jobs := by
  induction run with
  | nil => exact ⟨[], .nil⟩
  | @snoc earlier before action after previous stepped ih =>
      obtain ⟨past, pooled⟩ := ih fun transition member => fresh transition (by simp [member])
      cases action with
      | thread threadId command =>
          have read := fresh ⟨before, .thread threadId command, after⟩ (by simp)
          rcases take_jobs (run_disciplined previous) stepped
            (fun clock reading => read threadId command clock rfl reading) with
            same | ⟨jobType, key, payload, clock, submitted⟩
          · exact ⟨past, same ▸ pooled⟩
          · exact ⟨_, pooled.snoc submitted⟩
      | pool action =>
          obtain ⟨jobs, moved, rfl⟩ := Option.map_eq_some_iff.mp stepped
          exact ⟨_, pooled.snoc moved⟩

end MacroAgentGraphService

/-- Some reading of the clock gives an identifier that is not in use. -/
theorem exists_free (store : SQLiteJobStore) : ∃ clock, store.getJob (jobIdAt clock) = none := by
  have injective : Function.Injective jobIdAt := fun _ _ same => jobIdAt_injective same
  obtain ⟨clock, unused⟩ :=
    Infinite.exists_notMem_finset (store.db.keys.toFinset.preimage jobIdAt injective.injOn)
  refine ⟨clock, OrderedDict.get?_eq_none_iff.mpr fun known => unused ?_⟩
  simpa using known

/-! ## The nodes of a call -/

/-- The nodes that follow, besides those that the router still leads to. -/
def Node.weight : Node → Nat
  | .parseRequest => 3
  | .assembleContext | .humanApproval | .submitMcpJob | .pollJobStatus => 2
  | .finalize => 1

theorem Node.weight_pos (node : Node) : 0 < node.weight := by
  cases node <;> decide

/-- The nodes that the call on the thread can still execute. -/
def Thread.nodesLeft (thread : Thread) : Nat :=
  match thread.position with
  | .executing node _ => stepLimit - thread.values.steps + node.weight
  | .atEnd | .interrupted | .raised _ | .crashed => 0

theorem Thread.nodesLeft_executing {thread : Thread} {node : Node} {review : Option Dict}
    (executing : thread.position = .executing node review) :
    thread.nodesLeft = stepLimit - thread.values.steps + node.weight := by
  simp [nodesLeft, executing]

/-- Only the router and the nodes that it leads to go back, and each spends a step. -/
theorem successor_weight {node following : Node} {values : MacroAgentState}
    (leads : successor node values = some following) :
    following.weight < node.weight ∨
      following.weight = node.weight ∧ (values.steps < stepLimit ∨ node.branch ≠ none) := by
  cases node with
  | parseRequest =>
      cases leads
      exact .inl (by decide)
  | assembleContext =>
      have within : decideNextAction values ≠ .maxStepsHit → values.steps < stepLimit := by
        intro routed
        by_contra limit
        exact routed (decideNextAction_of_limit (Nat.not_lt.mp limit))
      simp only [successor] at leads
      cases routed : decideNextAction values with
      | maxStepsHit => simp [routed] at leads
      | finalize =>
          simp only [routed, Option.some.injEq] at leads
          subst leads
          exact .inl (by decide)
      | humanApproval | submitMcpJob | pollJobStatus =>
          simp only [routed, Option.some.injEq] at leads
          subst leads
          exact .inr ⟨rfl, .inl (within (by simp [routed]))⟩
  | humanApproval =>
      cases leads
      exact .inr ⟨rfl, .inr (by simp [Node.branch])⟩
  | submitMcpJob | pollJobStatus =>
      simp only [successor] at leads
      cases routed : decideAfterJobActivity values with
      | pause => simp [routed] at leads
      | finalize =>
          simp only [routed, Option.some.injEq] at leads
          subst leads
          exact .inl (by decide)
      | «continue» =>
          simp only [routed, Option.some.injEq] at leads
          subst leads
          exact .inr ⟨rfl, .inr (by simp [Node.branch])⟩
  | finalize => cases leads

/-- A node that the router led to is executed below the limit. -/
theorem Controlled.within {threadId : String} {thread : Thread} {node : Node}
    {review : Option Dict} (controlled : Controlled threadId thread)
    (executing : thread.position = .executing node review) (branched : node.branch ≠ none) :
    thread.values.steps < stepLimit := by
  obtain ⟨action, branch⟩ := Option.ne_none_iff_exists'.mp branched
  have routed := controlled.routed node review action executing branch
  by_contra limit
  have stopped := decideNextAction_of_limit (Nat.not_lt.mp limit)
  cases node with
  | parseRequest | assembleContext | finalize => cases branch
  | humanApproval | submitMcpJob | pollJobStatus =>
      cases branch
      cases routed.symm.trans stopped

theorem Thread.advance_nodesLeft {host : Host} {threadId : String} {thread : Thread} {node : Node}
    {review : Option Dict} (controlled : Controlled threadId thread)
    (executing : thread.position = .executing node review) (store : SQLiteJobStore)
    (clock : Nat) :
    (thread.advance host node review store clock).nodesLeft < thread.nodesLeft := by
  have positive := node.weight_pos
  rw [nodesLeft_executing executing]
  rcases thread.advance_cases host node review store clock with
    ⟨update, changed, executed, outcome⟩ | ⟨_, outcome⟩ | ⟨exception, _, outcome⟩
  · obtain ⟨event, traced, _⟩ := executed.traced
    have advanced := thread.values.steps_apply traced
    rw [outcome]
    cases leads : successor node (thread.values.apply update) with
    | none =>
        rw [Thread.proceed_end leads]
        simp only [nodesLeft]
        omega
    | some following =>
        rw [Thread.proceed_to leads]
        simp only [nodesLeft]
        rcases successor_weight leads with less | ⟨same, below | branched⟩
        · omega
        · omega
        · have within := controlled.within executing branched
          omega
  · rw [outcome]
    simp only [nodesLeft]
    omega
  · rw [outcome]
    simp only [nodesLeft]
    omega

/-! ## What the service has left to do -/

namespace MacroAgentGraphService

/-- The nodes and the pool's work that are left, for the threads that have been called. A
submission costs the pool nine steps. -/
def work (callers : List String) (service : MacroAgentGraphService) : Nat :=
  10 * (callers.map fun threadId => (service.threadAt threadId).nodesLeft).sum +
    service.jobs.work

end MacroAgentGraphService

def ThreadCommand.isCall : ThreadCommand → Bool
  | .runWorkflow _ _ | .resumeWorkflow _ => true
  | .node _ | .crash _ => false

/-- What goes on without a caller: the calls in progress, which take fresh identifiers for
their jobs or are lost, and the pool. -/
def GoesOn (service : MacroAgentGraphService) : ServiceAction → Prop
  | .thread _ command => command.isCall = false ∧
      ∀ clock, command.clock = some clock → service.jobs.store.getJob (jobIdAt clock) = none
  | .pool action => action.works service.jobs = true

/-- No call is in progress, and the pool is drained. -/
structure AtRest (service : MacroAgentGraphService) : Prop where
  returned : ∀ threadId, (service.threadAt threadId).Settled
  drained : Drained service.jobs

namespace MacroAgentGraphService

variable {host : Host} {threadId : String} {service next : MacroAgentGraphService}
  {callers : List String}

theorem take_nodesLeft {command : ThreadCommand} (disciplined : service.Disciplined)
    (taken : service.take host threadId command = some next) (during : command.isCall = false) :
    (next.threadAt threadId).nodesLeft < (service.threadAt threadId).nodesLeft := by
  obtain ⟨thread, moved, same, _, _⟩ := take_inv taken
  rw [same]
  cases command with
  | runWorkflow | resumeWorkflow => cases during
  | node clock =>
      cases Thread.step_cases moved with
      | node node review _ _ executing =>
          exact Thread.advance_nodesLeft (disciplined threadId) executing _ clock
  | crash clock =>
      cases Thread.step_cases moved with
      | crash node review _ _ executing =>
          have positive := node.weight_pos
          rw [Thread.nodesLeft_executing executing]
          simp only [Thread.nodesLeft]
          omega

theorem nodesLeft_of_settled {thread : Thread} (settled : thread.Settled) :
    thread.nodesLeft = 0 := by
  unfold Thread.nodesLeft
  split
  · next node review executing => exact absurd executing (settled node review)
  · rfl
  · rfl
  · rfl
  · rfl

theorem nodesLeft_of_untouched {other : String}
    (untouched : next.threads other = service.threads other) :
    (next.threadAt other).nodesLeft = (service.threadAt other).nodesLeft := by
  simp [Thread.nodesLeft, threadAt, untouched]

theorem step_threads {action : ServiceAction} (stepped : service.step host action = some next)
    {other : String} (foreign : ∀ command, action ≠ .thread other command) :
    next.threads other = service.threads other := by
  cases action with
  | thread threadId command =>
      obtain ⟨_, _, _, _, others⟩ := take_inv stepped
      refine others other ?_
      rintro rfl
      exact foreign command rfl
  | pool action =>
      obtain ⟨jobs, _, rfl⟩ := Option.map_eq_some_iff.mp stepped
      rfl

/-- Whatever goes on leaves less to do. -/
theorem work_step (disciplined : service.Disciplined) (kept : service.jobs.Kept)
    (distinct : callers.Nodup)
    (called : ∀ threadId, threadId ∉ callers → (service.threadAt threadId).Settled)
    {action : ServiceAction} (goesOn : GoesOn service action)
    (stepped : service.step host action = some next) :
    next.work callers < service.work callers := by
  cases action with
  | thread threadId command =>
      obtain ⟨during, fresh⟩ := goesOn
      have less := take_nodesLeft disciplined stepped during
      have member : threadId ∈ callers := by
        by_contra uncalled
        rw [nodesLeft_of_settled (called threadId uncalled)] at less
        exact Nat.not_lt_zero _ less
      have nodes := sum_map_add_le_of_one member distinct
        (fun threadId => (service.threadAt threadId).nodesLeft)
        (fun threadId => (next.threadAt threadId).nodesLeft) 1 less fun other different =>
          nodesLeft_of_untouched (step_threads stepped fun command same => by
            cases same
            exact different rfl)
      have jobs : next.jobs.work ≤ service.jobs.work + 9 := by
        rcases take_jobs disciplined stepped fresh with same | ⟨_, _, _, _, submitted⟩
        · rw [same]
          exact Nat.le_add_right _ _
        · exact JobSystem.submit_work kept submitted
      unfold work
      omega
  | pool action =>
      obtain ⟨jobs, moved, rfl⟩ := Option.map_eq_some_iff.mp stepped
      exact Nat.add_lt_add_left (kept.working goesOn moved).1 _

/-- Until the service is at rest something goes on. -/
theorem goes_on (kept : service.jobs.Kept) (busy : ¬ AtRest service) :
    ∃ action next, GoesOn service action ∧ service.step host action = some next := by
  by_cases returned : ∀ threadId, (service.threadAt threadId).Settled
  · obtain ⟨action, jobs, works, moved⟩ := kept.enabled fun drained => busy ⟨returned, drained⟩
    exact ⟨.pool action, { service with jobs := jobs }, works, by simp [step, moved]⟩
  · obtain ⟨threadId, active⟩ := not_forall.mp returned
    obtain ⟨node, review, executing⟩ : ∃ node review,
        (service.threadAt threadId).position = .executing node review := by
      simpa [Thread.Settled] using active
    obtain ⟨clock, free⟩ := exists_free service.jobs.store
    have enabled : (service.step host (.thread threadId (.node clock))).isSome = true := by
      simp [step, take, ThreadCommand.resolve, Thread.step_node executing]
    obtain ⟨next, stepped⟩ := Option.isSome_iff_exists.mp enabled
    refine ⟨.thread threadId (.node clock), next, ⟨rfl, ?_⟩, stepped⟩
    intro reading same
    cases same
    exact free

end MacroAgentGraphService

/-! ## Quiescence -/

/-- The threads that have been called. -/
def callers (history : List ServiceTransition) : List String :=
  (history.filterMap fun transition =>
    match transition.label with
    | .thread threadId _ => some threadId
    | .pool _ => none).dedup

/-- What the silence of the callers brings about: every call has returned, and every job that
a thread refers to has ended; the threads that were settled are as they were. -/
structure Quiet (start final : MacroAgentGraphService) : Prop where
  rests : AtRest final
  ended : ∀ threadId, ∀ jobId ∈ (final.threads threadId).values.activeJobIds,
    ∃ job, final.jobs.store.getJob jobId = some job ∧
      (job.status = .succeeded ∨ job.status = .failed ∨ job.status = .cancelled)
  untouched : ∀ threadId, (start.threadAt threadId).Settled →
    final.threads threadId = start.threads threadId

section Services

variable {host : Host} {history : List ServiceTransition} {service : MacroAgentGraphService}

theorem run_uncalled (run : Run (MacroAgentGraphService.step host) .initial history service)
    {threadId : String} (uncalled : threadId ∉ callers history) :
    service.threads threadId = ⟨{}, .atEnd⟩ := by
  induction run with
  | nil => rfl
  | @snoc earlier before action after previous stepped ih =>
      have foreign : ∀ command, action ≠ .thread threadId command := by
        rintro command rfl
        simp [callers] at uncalled
      rw [MacroAgentGraphService.step_threads stepped foreign]
      refine ih fun called => uncalled ?_
      simp only [callers, List.mem_dedup, List.filterMap_append, List.mem_append] at called ⊢
      exact .inl called

/-- A thread that is settled has nothing that goes on. -/
theorem GoesOn.foreign {next : MacroAgentGraphService} {action : ServiceAction}
    (goesOn : GoesOn service action) (disciplined : service.Disciplined)
    (stepped : service.step host action = some next) {threadId : String}
    (settled : (service.threadAt threadId).Settled) (command : ThreadCommand) :
    action ≠ .thread threadId command := by
  rintro rfl
  have less := MacroAgentGraphService.take_nodesLeft disciplined stepped goesOn.1
  rw [MacroAgentGraphService.nodesLeft_of_settled settled] at less
  exact Nat.not_lt_zero _ less

theorem GoesOn.apart {next : MacroAgentGraphService} {action : ServiceAction}
    (goesOn : GoesOn service action) : ClientsApart ⟨service, action, next⟩ := by
  intro jobType key payload clock maxAttempts submits
  cases submits
  cases goesOn

theorem GoesOn.fresh {next : MacroAgentGraphService} {action : ServiceAction}
    (goesOn : GoesOn service action) : FreshReading ⟨service, action, next⟩ := by
  intro threadId command clock taken reading
  cases taken
  exact goesOn.2 clock reading

/-- What holds on the way to rest. -/
structure Settling (host : Host) (start service : MacroAgentGraphService) : Prop where
  reached : ∃ past, Run (MacroAgentGraphService.step host) .initial past service ∧
    (∀ transition ∈ past, ClientsApart transition) ∧ ∀ transition ∈ past, FreshReading transition
  untouched : ∀ threadId, (start.threadAt threadId).Settled →
    service.threads threadId = start.threads threadId

namespace Settling

variable {start next : MacroAgentGraphService}

theorem disciplined (settling : Settling host start service) : service.Disciplined := by
  obtain ⟨_, run, _, _⟩ := settling.reached
  exact MacroAgentGraphService.run_disciplined run

theorem kept (settling : Settling host start service) : service.jobs.Kept := by
  obtain ⟨_, run, _, fresh⟩ := settling.reached
  obtain ⟨_, pooled⟩ := MacroAgentGraphService.run_pool run fresh
  exact run_kept pooled

theorem settled (settling : Settling host start service) {threadId : String}
    (settled : (start.threadAt threadId).Settled) : (service.threadAt threadId).Settled := by
  have untouched := settling.untouched threadId settled
  simpa [Thread.Settled, MacroAgentGraphService.threadAt, untouched] using settled

theorem step (settling : Settling host start service) {action : ServiceAction}
    (goesOn : GoesOn service action)
    (stepped : service.step host action = some next) : Settling host start next where
  reached := by
    obtain ⟨past, run, apart, fresh⟩ := settling.reached
    refine ⟨_, run.snoc stepped, ?_, ?_⟩
    · intro transition member
      rcases List.mem_append.mp member with earlier | last
      · exact apart transition earlier
      · rw [List.mem_singleton.mp last]
        exact goesOn.apart
    · intro transition member
      rcases List.mem_append.mp member with earlier | last
      · exact fresh transition earlier
      · rw [List.mem_singleton.mp last]
        exact goesOn.fresh
  untouched := by
    intro threadId settled
    rw [MacroAgentGraphService.step_threads stepped
      (goesOn.foreign settling.disciplined stepped (settling.settled settled))]
    exact settling.untouched threadId settled

theorem quiet (settling : Settling host start service) (rests : AtRest service) :
    Quiet start service where
  rests := rests
  ended := by
    intro threadId jobId member
    obtain ⟨_, run, apart, fresh⟩ := settling.reached
    obtain ⟨job, _, found, _⟩ := (run_threads_ownJobs run apart fresh threadId).own jobId member
    exact ⟨job, found, rests.drained.finished job (SQLiteJobStore.mem_jobs_iff.mpr ⟨jobId, found⟩)⟩
  untouched := settling.untouched

end Settling

/-- Once the callers are silent, every schedule of the nodes, the loops and the executions
brings the service to rest, however calls are lost on the way, and none gets stuck before. -/
theorem service_quiesces
    (run : Run (MacroAgentGraphService.step host) .initial history service)
    (apart : ∀ transition ∈ history, ClientsApart transition)
    (fresh : ∀ transition ∈ history, FreshReading transition) :
    Settles (MacroAgentGraphService.step host) GoesOn AtRest
      (fun later final => Quiet service final ∧ later.length ≤ service.work (callers history))
      [] service := by
  have base : Settling host service service := ⟨⟨history, run, apart, fresh⟩, fun _ _ => rfl⟩
  refine Settles.mono ?_ (Settles.of_measure (Settling host service)
    (MacroAgentGraphService.work (callers history)) ?_ ?_ base (service.work (callers history)) ?_)
  · intro later final reached
    obtain ⟨settling, rests, short⟩ := reached
    exact ⟨settling.quiet rests, short⟩
  · intro state action next settling _ goesOn stepped
    refine ⟨settling.step goesOn stepped, MacroAgentGraphService.work_step settling.disciplined
      settling.kept (List.nodup_dedup _) ?_ goesOn stepped⟩
    intro threadId uncalled
    refine settling.settled ?_
    rw [MacroAgentGraphService.threadAt, run_uncalled run uncalled]
    exact Thread.settled_atEnd _ _
  · intro state settling busy
    exact MacroAgentGraphService.goes_on settling.kept busy
  · simp

end Services

private def unfinishedCalls : List ServiceAction :=
  [.thread "cpi" (.runWorkflow "r1" "Analyze CPI"), .thread "cpi" (.node 0),
    .thread "cpi" (.node 0), .thread "gdp" (.runWorkflow "r2" "Analyze GDP"),
    .thread "cpi" (.node 7), .pool (.processLoop 0), .pool (.startExecution (jobIdAt 7)),
    .thread "gdp" (.node 0)]

/-- The job of one thread runs, and the call of another has not yet submitted its own. -/
theorem service_quiesces_two_threads :
    ∃ history service,
      Run (MacroAgentGraphService.step Host.ascii) .initial history service ∧
        service.jobs.store.jobs.map (·.status) = [.running] ∧
        service.work (callers history) = 267 ∧
        Settles (MacroAgentGraphService.step Host.ascii) GoesOn AtRest
          (fun later final => Quiet service final ∧
            later.length ≤ service.work (callers history)) [] service := by
  obtain ⟨history, service, run, labels, observed⟩ :=
    execute_observed (MacroAgentGraphService.step Host.ascii) .initial unfinishedCalls
      (fun outcome => (outcome.1.all readsFresh, outcome.2.jobs.store.jobs.map (·.status),
        outcome.2.work (callers outcome.1))) (true, [.running], 267) (by decide +kernel)
  obtain ⟨fresh, rest⟩ := Prod.mk.inj observed
  obtain ⟨statuses, work⟩ := Prod.mk.inj rest
  exact ⟨history, service, run, statuses, work,
    service_quiesces run (clientsApart_of_threads labels (by decide)) fun transition member =>
      freshReading_of_readsFresh (List.all_eq_true.mp fresh transition member)⟩

end DurableAgent.Graph
