import DurableAgent.Library.TransitionSystem
import DurableAgent.Runtime.AsyncExecutor

/-!
# Batches of tool calls

`AsyncToolExecutor.execute_batch`, any number of times on one executor. The event loop
and the threads of its pool take turns in any order. What a cancelled task has running in
the pool runs on, although the task has left the semaphore. A tool can cancel its own task:
its batch then raises, and the other tasks of the batch go on.
-/

set_option autoImplicit false

namespace DurableAgent.Runtime

open Library Python

def ToolCall.timeoutResult (batchTimeout : String) (call : ToolCall) : ToolResult :=
  ⟨call.callId, call.toolName, false, none,
    some ⟨.timeout, "Batch execution timed out after " ++ batchTimeout ++ " seconds.", true,
      .dict []⟩⟩

def ToolCall.address (call : ToolCall) : String × String := (call.callId, call.toolName)

def ToolResult.address (result : ToolResult) : String × String := (result.callId, result.toolName)

@[simp] theorem ToolCall.result_address (call : ToolCall) (outcome : Except Raised Dict) :
    (call.result outcome).address = call.address := by
  cases outcome with
  | ok output => rfl
  | error exception => rfl

namespace Batches

variable {Shared Local : Type}

/-- A `tool.execute` given to the pool. -/
inductive Job (Local : Type) where
  | queued (program : Local)
  | running (program : Local)
  | returned (outcome : Except Raised Dict)

/-- The job after one step of its program. -/
def Job.after : Local ⊕ Except Raised Dict → Job Local
  | .inl program => .running program
  | .inr outcome => .returned outcome

/-- A task before the semaphore, inside it with its job, at its end, or cancelled, with
the job that it has left behind. -/
inductive Phase (Local : Type) where
  | waiting
  | holding (job : Job Local)
  | finished (outcome : Except Raised Dict)
  | cancelled (job : Option (Job Local))

structure ToolTask (Local : Type) where
  toolCall : ToolCall
  phase : Phase Local

/-- How `execute_batch` ends: with results, or with the `CancelledError` of a task. -/
inductive Ending where
  | returned (results : List ToolResult)
  | raised

structure Batch (Local : Type) where
  batchTimeout : String
  tasks : List (ToolTask Local)
  ending : Option Ending := none

structure State (Shared Local : Type) where
  shared : Shared
  batches : List (Batch Local)

/-- One move of a task: into the semaphore, of a thread that takes its job, of its job by
one step, and out of the semaphore with what the future brings. -/
inductive Action where
  | acquire
  | start
  | advance
  | resume
  deriving DecidableEq, Repr

inductive Label where
  | executeBatch (toolCalls : List ToolCall) (batchTimeout : String)
  | move (batch task : Nat) (action : Action)
  | gather (batch : Nat)
  | timeout (batch : Nat)

def Label.moves : Label → Bool
  | .move _ _ _ => true
  | _ => false

/-- The executor with what a `tool.execute` does in one step, alone or in the sight of
others through what they share, and with the threads of the pool. -/
structure Executor (Shared Local : Type) where
  getTool : String → Except Raised (Dict → Local)
  advance : Shared → Local → Shared × (Local ⊕ Except Raised Dict)
  maxConcurrency : Nat
  workers : Nat

namespace Phase

def holds : Phase Local → Bool
  | .holding _ => true
  | _ => false

/-- A thread is running the job of a task that has been cancelled. -/
def abandoned : Phase Local → Bool
  | .cancelled (some (.running _)) => true
  | _ => false

def runs : Phase Local → Bool
  | .holding (.running _) => true
  | .cancelled (some (.running _)) => true
  | _ => false

/-- What the call has come to, whether or not its task has taken notice. -/
def outcome? : Phase Local → Option (Except Raised Dict)
  | .holding (.returned outcome) => some outcome
  | .cancelled (some (.returned outcome)) => some outcome
  | .finished outcome => some outcome
  | _ => none

def isCancelled : Phase Local → Bool
  | .cancelled _ => true
  | _ => false

/-- The program that a thread is running. -/
def program? : Phase Local → Option Local
  | .holding (.running program) => some program
  | .cancelled (some (.running program)) => some program
  | _ => none

/-- `task.cancel()`, unless the task is done. -/
def cancel : Phase Local → Phase Local
  | .waiting => .cancelled none
  | .holding (.queued _) => .cancelled none
  | .holding job => .cancelled (some job)
  | phase => phase

/-- An observation that takes an unstarted job for none, and one left behind for one inside
the semaphore, does not see the cancellation. -/
theorem observe_cancel {α : Type} (observe : Phase Local → α)
    (waiting : observe (.cancelled none) = observe .waiting)
    (queued : ∀ program, observe (.cancelled none) = observe (.holding (.queued program)))
    (running : ∀ program,
      observe (.cancelled (some (.running program))) = observe (.holding (.running program)))
    (returned : ∀ outcome,
      observe (.cancelled (some (.returned outcome))) = observe (.holding (.returned outcome)))
    (phase : Phase Local) : observe phase.cancel = observe phase := by
  cases phase with
  | waiting => exact waiting
  | finished | cancelled => rfl
  | holding job =>
      cases job with
      | queued program => exact queued program
      | running program => exact running program
      | returned outcome => exact returned outcome

@[simp] theorem outcome?_cancel (phase : Phase Local) : phase.cancel.outcome? = phase.outcome? :=
  observe_cancel outcome? rfl (fun _ => rfl) (fun _ => rfl) (fun _ => rfl) phase

@[simp] theorem program?_cancel (phase : Phase Local) : phase.cancel.program? = phase.program? :=
  observe_cancel program? rfl (fun _ => rfl) (fun _ => rfl) (fun _ => rfl) phase

@[simp] theorem runs_cancel (phase : Phase Local) : phase.cancel.runs = phase.runs :=
  observe_cancel runs rfl (fun _ => rfl) (fun _ => rfl) (fun _ => rfl) phase

@[simp] theorem holds_cancel (phase : Phase Local) : phase.cancel.holds = false := by
  cases phase with
  | waiting | finished | cancelled => rfl
  | holding job =>
      cases job with
      | queued | running | returned => rfl

theorem cancel_ne_holding (phase : Phase Local) (job : Job Local) :
    phase.cancel ≠ .holding job := by
  intro held
  have outside := holds_cancel phase
  rw [held] at outside
  cases outside

variable (result : Local ⊕ Except Raised Dict)

@[simp] theorem program?_holding_after :
    (Phase.holding (.after result)).program? = result.getLeft? := by
  cases result with
  | inl program => rfl
  | inr outcome => rfl

@[simp] theorem outcome?_holding_after :
    (Phase.holding (.after result)).outcome? = result.getRight? := by
  cases result with
  | inl program => rfl
  | inr outcome => rfl

@[simp] theorem program?_cancelled_after :
    (Phase.cancelled (some (.after result))).program? = result.getLeft? := by
  cases result with
  | inl program => rfl
  | inr outcome => rfl

@[simp] theorem outcome?_cancelled_after :
    (Phase.cancelled (some (.after result))).outcome? = result.getRight? := by
  cases result with
  | inl program => rfl
  | inr outcome => rfl

end Phase

def ToolTask.holds (task : ToolTask Local) : Bool := task.phase.holds

def ToolTask.abandoned (task : ToolTask Local) : Bool := task.phase.abandoned

def ToolTask.runs (task : ToolTask Local) : Bool := task.phase.runs

def ToolTask.isCancelled (task : ToolTask Local) : Bool := task.phase.isCancelled

def ToolTask.cancel (task : ToolTask Local) : ToolTask Local :=
  { task with phase := task.phase.cancel }

def ToolTask.result? (task : ToolTask Local) : Option ToolResult :=
  match task.phase with
  | .finished outcome => some (task.toolCall.result outcome)
  | _ => none

namespace Batch

def dispatch (toolCalls : List ToolCall) (batchTimeout : String) : Batch Local where
  batchTimeout := batchTimeout
  tasks := toolCalls.map fun toolCall => ⟨toolCall, .waiting⟩

/-- Before the deadline all tasks are done, or a first one has been cancelled. -/
def gather (batch : Batch Local) : Option (Batch Local) :=
  match batch.ending with
  | some _ => none
  | none =>
      if batch.tasks.any ToolTask.isCancelled then some { batch with ending := some .raised }
      else (batch.tasks.mapM ToolTask.result?).map fun results =>
        { batch with ending := some (.returned results) }

def timeouts (batch : Batch Local) : List ToolResult :=
  batch.tasks.map fun task => task.toolCall.timeoutResult batch.batchTimeout

/-- The deadline passes; the tasks that are not done are cancelled. -/
def expire (batch : Batch Local) : Option (Batch Local) :=
  match batch.ending with
  | some _ => none
  | none => some { batch with
      tasks := batch.tasks.map ToolTask.cancel
      ending := some (.returned batch.timeouts) }

end Batch

namespace State

variable (state : State Shared Local)

def tasks : List (ToolTask Local) := state.batches.flatMap Batch.tasks

def task? (position index : Nat) : Option (ToolTask Local) :=
  state.batches[position]?.bind fun batch => batch.tasks[index]?

def holders : Nat := state.tasks.countP ToolTask.holds

def running : Nat := state.tasks.countP ToolTask.runs

def abandoned : Nat := state.tasks.countP ToolTask.abandoned

/-- The state with another batch at the position. -/
def revise (position : Nat) (change : Batch Local → Option (Batch Local)) :
    Option (State Shared Local) := do
  let batch ← state.batches[position]?
  let changed ← change batch
  some { state with batches := state.batches.set position changed }

end State

def start (shared : Shared) : State Shared Local := ⟨shared, []⟩

namespace Executor

variable (executor : Executor Shared Local)

/-- A move of a task, with what it changes of what the tools share. -/
def act (state : State Shared Local) (toolCall : ToolCall) :
    Phase Local → Action → Option (Shared × Phase Local)
  | .waiting, .acquire =>
      if state.holders < executor.maxConcurrency then
        match executor.getTool toolCall.toolName with
        | .error unknown => some (state.shared, .finished (.error unknown))
        | .ok execute => some (state.shared, .holding (.queued (execute toolCall.arguments)))
      else none
  | .holding (.queued program), .start =>
      if state.running < executor.workers then some (state.shared, .holding (.running program))
      else none
  | .holding (.running program), .advance =>
      let (shared, outcome) := executor.advance state.shared program
      some (shared, .holding (.after outcome))
  | .cancelled (some (.running program)), .advance =>
      let (shared, outcome) := executor.advance state.shared program
      some (shared, .cancelled (some (.after outcome)))
  | .holding (.returned outcome), .resume =>
      match awaited outcome with
      | .completed delivered => some (state.shared, .finished delivered)
      | .cancelled => some (state.shared, .cancelled (some (.returned outcome)))
      | .pending => none
  | _, _ => none

def step (state : State Shared Local) : Label → Option (State Shared Local)
  | .executeBatch toolCalls batchTimeout =>
      some { state with batches := state.batches ++ [.dispatch toolCalls batchTimeout] }
  | .move position index action => do
      let batch ← state.batches[position]?
      let task ← batch.tasks[index]?
      let (shared, phase) ← executor.act state task.toolCall task.phase action
      let tasks := batch.tasks.set index { task with phase := phase }
      some ⟨shared, state.batches.set position { batch with tasks := tasks }⟩
  | .gather position => state.revise position Batch.gather
  | .timeout position => state.revise position Batch.expire

end Executor

/-! ## What a step does -/

section Effects

variable (executor : Executor Shared Local) (state : State Shared Local)

/-- Everything that a task can do. -/
inductive Acts (toolCall : ToolCall) : Phase Local → Action → Shared → Phase Local → Prop where
  | unknown (exception : Raised) :
      state.holders < executor.maxConcurrency →
      executor.getTool toolCall.toolName = .error exception →
      Acts toolCall .waiting .acquire state.shared (.finished (.error exception))
  | acquires (execute : Dict → Local) :
      state.holders < executor.maxConcurrency →
      executor.getTool toolCall.toolName = .ok execute →
      Acts toolCall .waiting .acquire state.shared
        (.holding (.queued (execute toolCall.arguments)))
  | starts (program : Local) :
      state.running < executor.workers →
      Acts toolCall (.holding (.queued program)) .start state.shared (.holding (.running program))
  | advances (program : Local) :
      Acts toolCall (.holding (.running program)) .advance
        (executor.advance state.shared program).1
        (.holding (.after (executor.advance state.shared program).2))
  | runsOn (program : Local) :
      Acts toolCall (.cancelled (some (.running program))) .advance
        (executor.advance state.shared program).1
        (.cancelled (some (.after (executor.advance state.shared program).2)))
  | resumes (outcome : Except Raised Dict) :
      awaited outcome = .completed outcome →
      Acts toolCall (.holding (.returned outcome)) .resume state.shared (.finished outcome)
  | cancels (outcome : Except Raised Dict) :
      awaited outcome = .cancelled →
      Acts toolCall (.holding (.returned outcome)) .resume state.shared
        (.cancelled (some (.returned outcome)))

/-- Everything that a step can do. -/
inductive Effect : Label → State Shared Local → Prop where
  | dispatches (toolCalls : List ToolCall) (batchTimeout : String) :
      Effect (.executeBatch toolCalls batchTimeout)
        { state with batches := state.batches ++ [.dispatch toolCalls batchTimeout] }
  | moves {before behind : List (Batch Local)} {front back : List (ToolTask Local)}
      {batch : Batch Local} {task : ToolTask Local} {action : Action} {shared : Shared}
      {phase : Phase Local} :
      state.batches = before ++ batch :: behind → batch.tasks = front ++ task :: back →
      Acts executor state task.toolCall task.phase action shared phase →
      Effect (.move before.length front.length action)
        ⟨shared, before ++ { batch with
          tasks := front ++ { task with phase := phase } :: back } :: behind⟩
  | gathers {before behind : List (Batch Local)} {batch : Batch Local}
      {results : List ToolResult} :
      state.batches = before ++ batch :: behind → batch.ending = none →
      batch.tasks.mapM ToolTask.result? = some results →
      Effect (.gather before.length)
        { state with
          batches := before ++ { batch with ending := some (.returned results) } :: behind }
  | raises {before behind : List (Batch Local)} {batch : Batch Local} :
      state.batches = before ++ batch :: behind → batch.ending = none →
      batch.tasks.any ToolTask.isCancelled = true →
      Effect (.gather before.length)
        { state with batches := before ++ { batch with ending := some .raised } :: behind }
  | expires {before behind : List (Batch Local)} {batch : Batch Local} :
      state.batches = before ++ batch :: behind → batch.ending = none →
      Effect (.timeout before.length)
        { state with
          batches := before ++ { batch with
            tasks := batch.tasks.map ToolTask.cancel
            ending := some (.returned batch.timeouts) } :: behind }

variable {executor state}

theorem act_acts {toolCall : ToolCall} {before after : Phase Local} {action : Action}
    {shared : Shared} (acted : executor.act state toolCall before action = some (shared, after)) :
    Acts executor state toolCall before action shared after := by
  unfold Executor.act at acted
  split at acted
  · split at acted
    · next free =>
        split at acted
        · next unknown => cases acted; exact .unknown _ free unknown
        · next execute => cases acted; exact .acquires _ free execute
    · cases acted
  · split at acted
    · next free => cases acted; exact .starts _ free
    · cases acted
  · cases acted; exact .advances _
  · cases acted; exact .runsOn _
  · next outcome =>
      split at acted
      · next delivered completed =>
          obtain ⟨rfl, -⟩ := awaited_completed completed
          cases acted
          exact .resumes _ completed
      · next cancelled => cases acted; exact .cancels _ cancelled
      · cases acted
  · cases acted

theorem split_of_getElem? {α : Type} {items : List α} {index : Nat} {item : α}
    (found : items[index]? = some item) :
    ∃ front back, items = front ++ item :: back ∧ front.length = index ∧
      ∀ other, items.set index other = front ++ other :: back := by
  obtain ⟨bound, rfl⟩ := List.getElem?_eq_some_iff.mp found
  refine ⟨items.take index, items.drop (index + 1), ?_, ?_, ?_⟩
  · simp
  · simp [bound.le]
  · intro other
    simp [List.set_eq_take_append_cons_drop, bound]

theorem step_effect {label : Label} {next : State Shared Local}
    (stepped : executor.step state label = some next) : Effect executor state label next := by
  cases label with
  | executeBatch toolCalls batchTimeout =>
      cases stepped
      exact .dispatches toolCalls batchTimeout
  | move position index action =>
      simp only [Executor.step, Option.bind_eq_bind, Option.bind_eq_some_iff,
        Option.some.injEq] at stepped
      obtain ⟨batch, found, task, listed, ⟨shared, phase⟩, acted, rfl⟩ := stepped
      obtain ⟨before, behind, batches, rfl, revised⟩ := split_of_getElem? found
      obtain ⟨front, back, tasks, rfl, changed⟩ := split_of_getElem? listed
      rw [revised, changed]
      exact .moves batches tasks (act_acts acted)
  | gather position =>
      simp only [Executor.step, State.revise, Option.bind_eq_bind, Option.bind_eq_some_iff,
        Option.some.injEq] at stepped
      obtain ⟨batch, found, changed, gathered, rfl⟩ := stepped
      obtain ⟨before, behind, batches, rfl, revised⟩ := split_of_getElem? found
      unfold Batch.gather at gathered
      split at gathered
      · cases gathered
      · next running =>
          split at gathered
          · next cancelled =>
              cases gathered
              rw [revised]
              exact .raises batches running cancelled
          · obtain ⟨results, finished, rfl⟩ := Option.map_eq_some_iff.mp gathered
            rw [revised]
            exact .gathers batches running finished
  | timeout position =>
      simp only [Executor.step, State.revise, Option.bind_eq_bind, Option.bind_eq_some_iff,
        Option.some.injEq] at stepped
      obtain ⟨batch, found, changed, expired, rfl⟩ := stepped
      obtain ⟨before, behind, batches, rfl, revised⟩ := split_of_getElem? found
      unfold Batch.expire at expired
      split at expired
      · cases expired
      · next running =>
          cases expired
          rw [revised]
          exact .expires batches running

end Effects

/-! ## The tasks of all batches -/

section Tasks

variable (executor : Executor Shared Local) (state : State Shared Local)

/-- What a step does to the tasks, whichever batch they are in. -/
inductive TasksEffect : Label → State Shared Local → Prop where
  | grows {label : Label} {next : State Shared Local} (toolCalls : List ToolCall) :
      label.moves = false →
      next.shared = state.shared →
      next.tasks = state.tasks ++ toolCalls.map (fun toolCall => ⟨toolCall, .waiting⟩) →
      TasksEffect label next
  | moves {position index : Nat} {action : Action} {next : State Shared Local}
      {task : ToolTask Local} {phase : Phase Local} (front back : List (ToolTask Local)) :
      state.task? position index = some task →
      state.tasks = front ++ task :: back →
      Acts executor state task.toolCall task.phase action next.shared phase →
      next.tasks = front ++ { task with phase := phase } :: back →
      TasksEffect (.move position index action) next
  | cancels {label : Label} {next : State Shared Local} (front tasks back : List (ToolTask Local)) :
      label.moves = false →
      next.shared = state.shared →
      state.tasks = front ++ tasks ++ back →
      next.tasks = front ++ tasks.map ToolTask.cancel ++ back →
      TasksEffect label next

variable {executor state}

theorem Effect.onTasks {label : Label} {next : State Shared Local}
    (effect : Effect executor state label next) : TasksEffect executor state label next := by
  cases effect with
  | dispatches toolCalls batchTimeout =>
      refine .grows toolCalls rfl rfl ?_
      simp [State.tasks, Batch.dispatch]
  | @moves before behind front back batch task action shared phase batches tasks acts =>
      refine .moves (before.flatMap Batch.tasks ++ front)
        (back ++ behind.flatMap Batch.tasks) ?_ ?_ acts ?_
      · simp [State.task?, batches, tasks]
      · simp [State.tasks, batches, tasks]
      · simp [State.tasks]
  | gathers batches running results =>
      refine .grows [] rfl rfl ?_
      simp [State.tasks, batches]
  | raises batches running cancelled =>
      refine .grows [] rfl rfl ?_
      simp [State.tasks, batches]
  | @expires before behind batch batches running =>
      refine .cancels (before.flatMap Batch.tasks) batch.tasks (behind.flatMap Batch.tasks)
        rfl rfl ?_ ?_
      · simp [State.tasks, batches]
      · simp [State.tasks]

/-- What new tasks have and a task keeps when it moves or is cancelled, all tasks keep. -/
theorem tasks_preserved {property : ToolTask Local → Prop} {label : Label}
    {next : State Shared Local} (stepped : executor.step state label = some next)
    (fresh : ∀ toolCall, property ⟨toolCall, .waiting⟩)
    (moves : ∀ (task : ToolTask Local) (action : Action) (shared : Shared) (phase : Phase Local),
      property task → Acts executor state task.toolCall task.phase action shared phase →
      property { task with phase := phase })
    (cancels : ∀ task, property task → property task.cancel)
    (before : ∀ task ∈ state.tasks, property task) : ∀ task ∈ next.tasks, property task := by
  cases (step_effect stepped).onTasks with
  | grows toolCalls _ _ tasks =>
      rw [tasks, List.forall_mem_append]
      refine ⟨before, fun task new => ?_⟩
      obtain ⟨toolCall, _, rfl⟩ := List.mem_map.mp new
      exact fresh toolCall
  | moves front back _ whole acts tasks =>
      rw [whole, List.forall_mem_append, List.forall_mem_cons] at before
      rw [tasks, List.forall_mem_append, List.forall_mem_cons]
      exact ⟨before.1, moves _ _ _ _ before.2.1 acts, before.2.2⟩
  | cancels front tasks back _ _ whole left =>
      rw [whole, List.forall_mem_append, List.forall_mem_append] at before
      rw [left, List.forall_mem_append, List.forall_mem_append]
      refine ⟨⟨before.1.1, fun task among => ?_⟩, before.2⟩
      obtain ⟨cancelled, within, rfl⟩ := List.mem_map.mp among
      exact cancels cancelled (before.1.2 cancelled within)

end Tasks

/-! ## Counting tasks -/

section Counts

variable {counted : ToolTask Local → Bool}

theorem countP_split (counted : ToolTask Local → Bool) (front back : List (ToolTask Local))
    (task : ToolTask Local) :
    (front ++ task :: back).countP counted =
      front.countP counted + (counted task).toNat + back.countP counted := by
  rw [List.countP_append, List.countP_cons]
  cases counted task with
  | false => simp
  | true =>
      simp only [if_true, Bool.toNat_true]
      omega

theorem countP_waiting (fresh : ∀ toolCall, counted ⟨toolCall, .waiting⟩ = false)
    (toolCalls : List ToolCall) :
    (toolCalls.map fun toolCall => (⟨toolCall, .waiting⟩ : ToolTask Local)).countP counted = 0 := by
  simp [List.countP_eq_zero, fresh]

theorem countP_cancel (unseen : ∀ task : ToolTask Local, counted task.cancel = counted task)
    (tasks : List (ToolTask Local)) :
    (tasks.map ToolTask.cancel).countP counted = tasks.countP counted := by
  rw [List.countP_map]
  exact List.countP_congr fun task _ => by rw [Function.comp_apply, unseen]

end Counts

end Batches

end DurableAgent.Runtime
