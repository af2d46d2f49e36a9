import DurableAgent.Runtime.Batches

/-!
# The concurrency gate

The semaphore bounds the tasks inside it. It bounds the executions in the pool only as
long as those that cancelled tasks have left behind find room within it.
-/

set_option autoImplicit false

namespace DurableAgent.Runtime.Batches

open Library Python

variable {Shared Local : Type} {executor : Executor Shared Local}

section Steps

variable {state next : State Shared Local} {label : Label}

/-- A task comes to hold the semaphore when there is a place. -/
theorem Acts.holds {toolCall : ToolCall} {before after : Phase Local} {action : Action}
    {shared : Shared} (acts : Acts executor state toolCall before action shared after) :
    after.holds.toNat ≤ before.holds.toNat ∨ state.holders < executor.maxConcurrency := by
  cases acts with
  | unknown exception free => exact .inr free
  | acquires execute free => exact .inr free
  | starts | advances | runsOn | resumes | cancels => exact .inl (by simp [Phase.holds])

/-- An execution begins in a task that holds the semaphore. -/
theorem Acts.runs {toolCall : ToolCall} {before after : Phase Local} {action : Action}
    {shared : Shared} (acts : Acts executor state toolCall before action shared after) :
    after.runs.toNat ≤ before.runs.toNat ∨
      (action = .start ∧ before.holds = true ∧ before.runs = false) := by
  cases acts with
  | unknown | acquires | resumes | cancels => exact .inl (by simp [Phase.runs])
  | starts => exact .inr ⟨rfl, rfl, rfl⟩
  | advances | runsOn =>
      left
      exact Bool.toNat_le _

theorem holders_step (within : state.holders ≤ executor.maxConcurrency)
    (stepped : executor.step state label = some next) :
    next.holders ≤ executor.maxConcurrency := by
  unfold State.holders at within ⊢
  cases (step_effect stepped).onTasks with
  | grows toolCalls _ _ tasks =>
      rw [tasks, List.countP_append, countP_waiting fun _ => rfl]
      exact within
  | @moves _ _ _ _ task phase front back _ whole acts tasks =>
      have free := acts.holds
      unfold State.holders at free
      simp only [tasks, whole, countP_split, ToolTask.holds] at within free ⊢
      have one := Bool.toNat_le phase.holds
      omega
  | cancels front tasks back _ _ whole left =>
      have none : (tasks.map ToolTask.cancel).countP ToolTask.holds = 0 := by
        simp [List.countP_eq_zero, ToolTask.holds, ToolTask.cancel]
      simp only [whole, left, List.countP_append, none] at within ⊢
      omega

end Steps

theorem holders_le {shared : Shared} {history : List (Transition (State Shared Local) Label)}
    {final : State Shared Local} (run : Run executor.step (start shared) history final) :
    final.holders ≤ executor.maxConcurrency :=
  run.preserves (fun _ => True) (fun state => state.holders ≤ executor.maxConcurrency)
    (Nat.zero_le _) (fun _ _ _ within stepped _ => holders_step within stepped)
    (fun _ _ => trivial)

/-! ## In the pool -/

theorem countP_runs_le (tasks : List (ToolTask Local)) :
    tasks.countP ToolTask.runs ≤ tasks.countP ToolTask.holds + tasks.countP ToolTask.abandoned := by
  have each : ∀ phase : Phase Local,
      phase.runs.toNat ≤ phase.holds.toNat + phase.abandoned.toNat := by
    intro phase
    cases phase with
    | waiting | finished => exact Nat.zero_le _
    | holding job => exact Nat.le_add_right_of_le (Bool.toNat_le _)
    | cancelled job =>
        cases job with
        | none => exact Nat.zero_le _
        | some job =>
            cases job with
            | queued | running | returned => exact Nat.le_of_eq (Nat.zero_add _).symm
  induction tasks with
  | nil => exact Nat.zero_le _
  | cons task rest ih =>
      have first := each task.phase
      rw [← List.nil_append (task :: rest), countP_split, countP_split, countP_split]
      simp only [List.countP_nil, ToolTask.runs, ToolTask.holds, ToolTask.abandoned] at ih ⊢
      omega

/-- What cancelled tasks have running in the pool is all that can exceed the bound. -/
theorem running_le_add_abandoned {shared : Shared}
    {history : List (Transition (State Shared Local) Label)} {final : State Shared Local}
    (run : Run executor.step (start shared) history final) :
    final.running ≤ executor.maxConcurrency + final.abandoned := by
  have inside := holders_le run
  have parts := countP_runs_le final.tasks
  unfold State.holders at inside
  unfold State.running State.abandoned
  omega

/-- An execution is started only if there is room for it beside those that cancelled tasks
have running. -/
def StartsWithin (executor : Executor Shared Local)
    (transition : Transition (State Shared Local) Label) : Prop :=
  match transition.label with
  | .move _ _ .start =>
      transition.source.abandoned + transition.source.holders ≤ executor.maxConcurrency
  | _ => True

instance (transition : Transition (State Shared Local) Label) :
    Decidable (StartsWithin executor transition) := by
  unfold StartsWithin
  split
  · infer_instance
  · infer_instance

theorem running_step {state next : State Shared Local} {label : Label}
    (bounded : state.running ≤ executor.maxConcurrency)
    (stepped : executor.step state label = some next)
    (room : StartsWithin executor ⟨state, label, next⟩) :
    next.running ≤ executor.maxConcurrency := by
  unfold State.running at bounded ⊢
  cases (step_effect stepped).onTasks with
  | grows toolCalls _ _ tasks =>
      rw [tasks, List.countP_append, countP_waiting fun _ => rfl]
      exact bounded
  | @moves _ _ _ _ task phase front back _ whole acts tasks =>
      rcases acts.runs with less | ⟨rfl, holds, idle⟩
      · simp only [tasks, whole, countP_split, ToolTask.runs] at bounded ⊢
        omega
      · -- the task itself holds the semaphore and does not run yet
        have left := countP_runs_le front
        have right := countP_runs_le back
        simp only [StartsWithin, State.abandoned, State.holders, whole, countP_split,
          ToolTask.holds, holds, Bool.toNat_true] at room
        simp only [tasks, countP_split]
        have one : (ToolTask.runs { task with phase := phase }).toNat ≤ 1 := Bool.toNat_le _
        omega
  | cancels front tasks back _ _ whole left =>
      have same : (tasks.map ToolTask.cancel).countP ToolTask.runs = tasks.countP ToolTask.runs :=
        countP_cancel (fun task => task.phase.runs_cancel) tasks
      simp only [whole, left, List.countP_append, same] at bounded ⊢
      exact bounded

/-- If every execution is started within the bound, no state of the run exceeds it. -/
theorem running_le {shared : Shared} {history : List (Transition (State Shared Local) Label)}
    {final : State Shared Local} (run : Run executor.step (start shared) history final)
    (within : ∀ transition ∈ history, StartsWithin executor transition) :
    final.running ≤ executor.maxConcurrency :=
  run.preserves (StartsWithin executor) (fun state => state.running ≤ executor.maxConcurrency)
    (Nat.zero_le _) (fun _ _ _ bounded stepped room => running_step bounded stepped room) within

/-- One place in the semaphore, two threads, and tools that return after a step or never. -/
def single : Executor Unit Bool where
  getTool name := .ok fun _ => decide (name = "brief_tool")
  advance _ brief := ((), if brief then .inr (.ok []) else .inl brief)
  maxConcurrency := 1
  workers := 2

def slowCall : ToolCall := ⟨"t1", "slow_tool", []⟩

def briefCall : ToolCall := ⟨"t2", "brief_tool", []⟩

/-- A batch times out with its call in the pool; the next starts its own after that has
returned. -/
def oneAfterTheOther : List Label :=
  [.executeBatch [briefCall] "0.2", .move 0 0 .acquire, .move 0 0 .start, .timeout 0,
    .executeBatch [slowCall] "0.2", .move 1 0 .acquire, .move 0 0 .advance, .move 1 0 .start]

theorem one_after_the_other_bounded :
    ∃ history final, Run single.step (start ()) history final ∧
      history.map (·.label) = oneAfterTheOther ∧ final.running ≤ 1 := by
  obtain ⟨history, final, run, labels, within⟩ := execute_observed single.step (start ())
    oneAfterTheOther
    (fun outcome => outcome.1.all fun transition => decide (StartsWithin single transition))
    true (by decide +kernel)
  refine ⟨history, final, run, labels, running_le run fun transition member => ?_⟩
  exact of_decide_eq_true (List.all_eq_true.mp within transition member)

/-- The next batch starts its call while that of the first runs on. -/
theorem abandoned_call_exceeds_bound :
    ¬ ∀ (Shared Local : Type) (executor : Executor Shared Local) (shared : Shared)
      (history : List (Transition (State Shared Local) Label)) (final : State Shared Local),
      1 ≤ executor.maxConcurrency → executor.maxConcurrency < executor.workers →
      Run executor.step (start shared) history final →
      final.running ≤ executor.maxConcurrency := by
  intro always
  obtain ⟨history, final, run, _, two⟩ := execute_observed single.step (start ())
    [.executeBatch [slowCall] "0.2", .move 0 0 .acquire, .move 0 0 .start, .timeout 0,
      .executeBatch [slowCall] "0.2", .move 1 0 .acquire, .move 1 0 .start]
    (fun outcome => outcome.2.running) 2 (by decide +kernel)
  have bounded := always Unit Bool single () history final (by decide) (by decide) run
  exact absurd bounded (by rw [two]; decide)

end DurableAgent.Runtime.Batches
