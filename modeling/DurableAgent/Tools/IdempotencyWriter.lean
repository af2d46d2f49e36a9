import DurableAgent.Runtime.Batches

/-!
# The idempotent run marker

`tools/idempotency_writer.py`, executed by the threads of an executor's pool. A thread can
be interrupted between the test of `run` and the insertion that it guards.
-/

set_option autoImplicit false

namespace DurableAgent.Tools

open Library Python
open DurableAgent.Runtime (Raised ToolCall keyError)
open DurableAgent.Runtime.Batches

structure IdempotentInput where
  operationId : String
  content : String

def IdempotentInput.modelValidate (arguments : Dict) : Option IdempotentInput :=
  match Dict.get? arguments "operation_id", Dict.get? arguments "content" with
  | some (.str operationId), some (.str content) => some ⟨operationId, content⟩
  | _, _ => none

/-- The dump of an `IdempotentOutput`. -/
def idempotentOutput (status message : String) : Dict :=
  [("status", .str status), ("message", .str message)]

def skipped (operationId : String) : Dict :=
  idempotentOutput "skipped"
    ("Idempotency hit: Operation '" ++ operationId ++
      "' has already been processed. Guarded against double action.")

def committed (operationId : String) : Dict :=
  idempotentOutput "committed"
    ("Successfully committed data for operation: " ++ operationId)

/-- Where an execution stands: before the validation of its arguments, before the test, and
before the insertion. -/
inductive Marking where
  | validating (arguments : Dict)
  | testing (args : IdempotentInput)
  | adding (args : IdempotentInput)

/-- One step of an execution, with the operations seen so far. -/
def Marking.advance (invalid : Dict → Raised) (seen : List String) :
    Marking → List String × (Marking ⊕ Except Raised Dict)
  | .validating arguments =>
      match IdempotentInput.modelValidate arguments with
      | none => (seen, .inr (.error (invalid arguments)))
      | some args => (seen, .inl (.testing args))
  | .testing args =>
      if args.operationId ∈ seen then (seen, .inr (.ok (skipped args.operationId)))
      else (seen, .inl (.adding args))
  | .adding args => (seen.insert args.operationId, .inr (.ok (committed args.operationId)))

/-- An executor with the tool in its registry, and with what pydantic raises for arguments
that it rejects. -/
def markers (invalid : Dict → Raised) (maxConcurrency workers : Nat) :
    Executor (List String) Marking where
  getTool name :=
    if name = "write_run_marker" then .ok .validating
    else .error (keyError ("Unknown tool: '" ++ name ++ "'"))
  advance := Marking.advance invalid
  maxConcurrency := maxConcurrency
  workers := workers

/-- The operation that a call is for. -/
def operationOf (toolCall : ToolCall) : Option String :=
  if toolCall.toolName = "write_run_marker" then
    (IdempotentInput.modelValidate toolCall.arguments).map IdempotentInput.operationId
  else none

def statusOf : Option (Except Raised Dict) → Option String
  | some (.ok output) =>
      match Dict.get? output "status" with
      | some (.str status) => some status
      | _ => none
  | _ => none

/-- The task's execution of the operation has returned the status. -/
def returns (operationId status : String) (task : ToolTask Marking) : Bool :=
  decide (operationOf task.toolCall = some operationId ∧
    statusOf task.phase.outcome? = some status)

/-- The task's execution is between the test and the insertion of the operation. -/
def pending (operationId : String) (task : ToolTask Marking) : Bool :=
  match task.phase.program? with
  | some (.adding args) => decide (args.operationId = operationId)
  | _ => false

/-- At most one execution of an operation returns that it committed it, and all others that
they skipped it. -/
structure CommitsOnce (state : State (List String) Marking) : Prop where
  once : ∀ operationId, state.tasks.countP (returns operationId "committed") ≤ 1
  others : ∀ task ∈ state.tasks, ∀ operationId, operationOf task.toolCall = some operationId →
    task.phase.outcome? ≠ none →
    returns operationId "committed" task = true ∨ returns operationId "skipped" task = true

/-! ## What an execution is for -/

def Marking.For (toolCall : ToolCall) : Marking → Prop
  | .validating arguments =>
      toolCall.toolName = "write_run_marker" ∧ arguments = toolCall.arguments
  | .testing args => operationOf toolCall = some args.operationId
  | .adding args => operationOf toolCall = some args.operationId

/-- The job of a task is an execution of its call, and its outcome one of that. -/
structure Sound (task : ToolTask Marking) : Prop where
  queued : ∀ program, task.phase = .holding (.queued program) →
    program.For task.toolCall ∧ ∃ arguments, program = .validating arguments
  program : ∀ program, task.phase.program? = some program → program.For task.toolCall
  outcome : ∀ outcome, task.phase.outcome? = some outcome →
    ∀ operationId, operationOf task.toolCall = some operationId →
      outcome = .ok (committed operationId) ∨ outcome = .ok (skipped operationId)

theorem sound_waiting (toolCall : ToolCall) : Sound ⟨toolCall, .waiting⟩ := by
  constructor <;> simp [Phase.program?, Phase.outcome?]

theorem Sound.cancel {task : ToolTask Marking} (sound : Sound task) : Sound task.cancel := by
  constructor
  · exact fun program queued => absurd queued (task.phase.cancel_ne_holding _)
  · intro program running
    exact sound.program program (by simpa [ToolTask.cancel] using running)
  · intro outcome came
    exact sound.outcome outcome (by simpa [ToolTask.cancel] using came)

theorem operationOf_validated {toolCall : ToolCall}
    (named : toolCall.toolName = "write_run_marker") :
    operationOf toolCall =
      (IdempotentInput.modelValidate toolCall.arguments).map IdempotentInput.operationId :=
  if_pos named

/-- After a step the execution goes on for the same operation, or has ended for it. -/
theorem Marking.For.advance {toolCall : ToolCall} {program : Marking}
    (fits : program.For toolCall) (invalid : Dict → Raised) (seen : List String) :
    (∀ further, (program.advance invalid seen).2 = .inl further → further.For toolCall) ∧
      ∀ outcome, (program.advance invalid seen).2 = .inr outcome →
        ∀ operationId, operationOf toolCall = some operationId →
          outcome = .ok (committed operationId) ∨ outcome = .ok (skipped operationId) := by
  cases program with
  | validating arguments =>
      obtain ⟨named, rfl⟩ := fits
      have operation := operationOf_validated named
      cases validated : IdempotentInput.modelValidate toolCall.arguments with
      | none => simp [Marking.advance, operation, validated]
      | some args =>
          rw [validated] at operation
          have fitting : (Marking.testing args).For toolCall := operation
          simp [Marking.advance, validated, fitting]
  | testing args =>
      have operation : operationOf toolCall = some args.operationId := fits
      by_cases known : args.operationId ∈ seen
      · simp [Marking.advance, known, operation]
      · have fitting : (Marking.adding args).For toolCall := operation
        simp [Marking.advance, known, fitting]
  | adding args =>
      have operation : operationOf toolCall = some args.operationId := fits
      simp [Marking.advance, operation]

/-- A task of which the execution has made a step. -/
theorem sound_after {invalid : Dict → Raised} {task : ToolTask Marking} {program : Marking}
    {seen : List String} (fits : program.For task.toolCall)
    (unqueued : ∀ other, task.phase ≠ .holding (.queued other))
    (goesOn : task.phase.program? = (program.advance invalid seen).2.getLeft?)
    (ends : task.phase.outcome? = (program.advance invalid seen).2.getRight?) : Sound task := by
  obtain ⟨further, ended⟩ := fits.advance invalid seen
  constructor
  · exact fun other queued => absurd queued (unqueued other)
  · intro next running
    rw [goesOn, Sum.getLeft?_eq_some_iff] at running
    exact further next running
  · intro outcome came
    rw [ends, Sum.getRight?_eq_some_iff] at came
    exact ended outcome came

theorem unqueued_after (result : Marking ⊕ Except Raised Dict) (other : Marking) :
    Phase.holding (.after result) ≠ .holding (.queued other) := by
  cases result with
  | inl program => simp [Job.after]
  | inr outcome => simp [Job.after]

section Moves

variable {invalid : Dict → Raised} {maxConcurrency workers : Nat}
  {state next : State (List String) Marking} {label : Label}

theorem Sound.act {task : ToolTask Marking} {action : Action} {seen : List String}
    {phase : Phase Marking} (sound : Sound task)
    (acts : Acts (markers invalid maxConcurrency workers) state task.toolCall task.phase action
      seen phase) : Sound { task with phase := phase } := by
  obtain ⟨toolCall, before⟩ := task
  cases acts with
  | unknown exception free unknown =>
      have other : toolCall.toolName ≠ "write_run_marker" := by
        intro named
        simp [markers, named] at unknown
      constructor <;> simp [Phase.program?, Phase.outcome?, operationOf, other]
  | acquires execute free found =>
      have named : toolCall.toolName = "write_run_marker" := by
        by_contra other
        simp [markers, other] at found
      have validating : execute toolCall.arguments = .validating toolCall.arguments := by
        simp only [markers, named, if_true, Except.ok.injEq] at found
        rw [← found]
      constructor <;> simp [Phase.program?, Phase.outcome?, validating, Marking.For, named]
  | starts program free =>
      have fits := (sound.queued program rfl).1
      constructor <;> simp [Phase.program?, Phase.outcome?, fits]
  | advances program =>
      exact sound_after (sound.program program rfl) (unqueued_after _)
        (Phase.program?_holding_after _) (Phase.outcome?_holding_after _)
  | runsOn program =>
      exact sound_after (sound.program program rfl) (by simp)
        (Phase.program?_cancelled_after _) (Phase.outcome?_cancelled_after _)
  | resumes outcome | cancels outcome =>
      constructor
      · simp
      · simp [Phase.program?]
      · exact sound.outcome

theorem sound_step (sound : ∀ task ∈ state.tasks, Sound task)
    (stepped : (markers invalid maxConcurrency workers).step state label = some next) :
    ∀ task ∈ next.tasks, Sound task :=
  tasks_preserved stepped sound_waiting (fun _ _ _ _ earlier acts => earlier.act acts)
    (fun _ earlier => earlier.cancel) sound

/-! ## What passes the test -/

/-- One for an execution that has committed the operation or is bound to. -/
def weight (operationId : String) (task : ToolTask Marking) : Nat :=
  (returns operationId "committed" task).toNat + (pending operationId task).toNat

/-- The next step of the execution finds that nobody has committed the operation yet. -/
def Passes (operationId : String) (seen : List String) (task : ToolTask Marking) : Prop :=
  ∃ args, task.phase.program? = some (.testing args) ∧ args.operationId = operationId ∧
    operationId ∉ seen

/-- What a move of one task means for an operation. -/
structure Marks (operationId : String) (seen known : List String) (action : Action)
    (before after : ToolTask Marking) : Prop where
  keeps : seen ⊆ known
  records : returns operationId "committed" after = true →
    returns operationId "committed" before = true ∨ operationId ∈ known
  passing : action = .advance → Passes operationId seen before →
    weight operationId after = weight operationId before + 1
  other : ¬ (action = .advance ∧ Passes operationId seen before) →
    weight operationId after = weight operationId before

theorem statusOf_committed (operationId : String) :
    statusOf (some (.ok (committed operationId))) = some "committed" := rfl

theorem statusOf_skipped (operationId : String) :
    statusOf (some (.ok (skipped operationId))) = some "skipped" := rfl

theorem not_passes {operationId : String} {seen : List String} {task : ToolTask Marking}
    (untested : ∀ args, task.phase.program? = some (.testing args) → args.operationId ∈ seen) :
    ¬ Passes operationId seen task := by
  rintro ⟨args, running, rfl, fresh⟩
  exact fresh (untested args running)

/-- A move that leaves the weight, commits nothing and passes no test. -/
theorem marks_steady {operationId : String} {seen : List String} {action : Action}
    {before after : ToolTask Marking} (same : weight operationId after = weight operationId before)
    (returned : returns operationId "committed" after = true →
      returns operationId "committed" before = true)
    (fails : ¬ Passes operationId seen before) :
    Marks operationId seen seen action before after where
  keeps := List.Subset.refl seen
  records committed := .inl (returned committed)
  passing _ passes := absurd passes fails
  other _ := same

section Weights

variable {task : ToolTask Marking} (operationId : String)

theorem not_returns_of_unfinished (unfinished : task.phase.outcome? = none) (status : String) :
    returns operationId status task = false := by
  simp [returns, unfinished, statusOf]

theorem not_returns_of_status {outcome : Except Raised Dict}
    (ended : task.phase.outcome? = some outcome)
    (uncommitted : statusOf (some outcome) ≠ some "committed") :
    returns operationId "committed" task = false := by
  simp [returns, ended, uncommitted]

theorem weight_adding {args : IdempotentInput} (running : task.phase.program? = some (.adding args))
    (unfinished : task.phase.outcome? = none) :
    weight operationId task = (decide (args.operationId = operationId)).toNat := by
  simp [weight, not_returns_of_unfinished operationId unfinished, pending, running]

theorem weight_idle (idle : ∀ args, task.phase.program? ≠ some (.adding args))
    (uncommitted : returns operationId "committed" task = false) :
    weight operationId task = 0 := by
  have unbound : pending operationId task = false := by
    unfold pending
    split
    · next args running => exact absurd running (idle args)
    · rfl
  simp [weight, unbound, uncommitted]

end Weights

section Advances

variable {before after : ToolTask Marking} (seen : List String) (operationId : String)

/-- A step that neither passes a test nor makes an insertion. -/
theorem marks_idle (unfinished : before.phase.outcome? = none)
    (idle : ∀ args, before.phase.program? ≠ some (.adding args))
    (fails : ¬ Passes operationId seen before)
    (still : ∀ args, after.phase.program? ≠ some (.adding args))
    (uncommitted : returns operationId "committed" after = false) :
    Marks operationId seen seen .advance before after := by
  have light := weight_idle operationId idle (not_returns_of_unfinished operationId unfinished _)
  refine marks_steady ?_ (fun committed => ?_) fails
  · rw [light, weight_idle operationId still uncommitted]
  · rw [uncommitted] at committed
    cases committed

theorem marks_validating {arguments : Dict}
    (running : before.phase.program? = some (.validating arguments))
    (unfinished : before.phase.outcome? = none)
    (goesOn : after.phase.program? =
      ((Marking.validating arguments).advance invalid seen).2.getLeft?)
    (ends : after.phase.outcome? =
      ((Marking.validating arguments).advance invalid seen).2.getRight?) :
    Marks operationId seen ((Marking.validating arguments).advance invalid seen).1 .advance
      before after := by
  have fails : ¬ Passes operationId seen before := not_passes fun args testing => by
    rw [running] at testing
    cases testing
  cases validated : IdempotentInput.modelValidate arguments with
  | none =>
      simp only [Marking.advance, validated, Sum.getLeft?_inr, Sum.getRight?_inr] at goesOn ends ⊢
      exact marks_idle seen operationId unfinished (by simp [running]) fails (by simp [goesOn])
        (not_returns_of_status operationId ends (by simp [statusOf]))
  | some args =>
      simp only [Marking.advance, validated, Sum.getLeft?_inl, Sum.getRight?_inl] at goesOn ends ⊢
      exact marks_idle seen operationId unfinished (by simp [running]) fails (by simp [goesOn])
        (not_returns_of_unfinished operationId ends _)

theorem marks_testing {args : IdempotentInput}
    (running : before.phase.program? = some (.testing args))
    (unfinished : before.phase.outcome? = none)
    (goesOn : after.phase.program? = ((Marking.testing args).advance invalid seen).2.getLeft?)
    (ends : after.phase.outcome? = ((Marking.testing args).advance invalid seen).2.getRight?) :
    Marks operationId seen ((Marking.testing args).advance invalid seen).1 .advance
      before after := by
  by_cases known : args.operationId ∈ seen
  · have fails : ¬ Passes operationId seen before := not_passes fun other testing => by
      rw [running] at testing
      cases testing
      exact known
    simp only [Marking.advance, known, if_true, Sum.getLeft?_inr, Sum.getRight?_inr]
      at goesOn ends ⊢
    exact marks_idle seen operationId unfinished (by simp [running]) fails (by simp [goesOn])
      (not_returns_of_status operationId ends (by simp [statusOf_skipped]))
  · simp only [Marking.advance, known, if_false, Sum.getLeft?_inl, Sum.getRight?_inl]
      at goesOn ends ⊢
    have light := weight_idle operationId (by simp [running])
      (not_returns_of_unfinished operationId unfinished _)
    have bound := weight_adding operationId goesOn ends
    have uncommitted := not_returns_of_unfinished operationId ends "committed"
    refine ⟨List.Subset.refl seen, by simp [uncommitted], ?_, fun fails => ?_⟩
    · rintro _ ⟨other, program, rfl, _⟩
      rw [running] at program
      cases program
      simp [bound, light]
    · have different : args.operationId ≠ operationId := by
        rintro rfl
        exact fails ⟨rfl, args, running, rfl, known⟩
      simp [bound, light, different]

/-- The insertion turns an execution that is bound to commit into one that has committed. -/
theorem marks_adding {args : IdempotentInput}
    (operation : operationOf after.toolCall = some args.operationId)
    (running : before.phase.program? = some (.adding args))
    (unfinished : before.phase.outcome? = none)
    (goesOn : after.phase.program? = ((Marking.adding args).advance invalid seen).2.getLeft?)
    (ends : after.phase.outcome? = ((Marking.adding args).advance invalid seen).2.getRight?) :
    Marks operationId seen ((Marking.adding args).advance invalid seen).1 .advance
      before after := by
  simp only [Marking.advance, Sum.getLeft?_inr, Sum.getRight?_inr] at goesOn ends ⊢
  have returned : returns operationId "committed" after =
      decide (args.operationId = operationId) := by
    simp [returns, ends, operation, statusOf_committed]
  have fails : ¬ Passes operationId seen before := not_passes fun other testing => by
    rw [running] at testing
    cases testing
  refine ⟨?_, ?_, fun _ passes => absurd passes fails, fun _ => ?_⟩
  · exact fun operation member => List.mem_insert_of_mem member
  · intro committed
    rw [returned] at committed
    exact .inr (of_decide_eq_true committed ▸ List.mem_insert_self)
  · rw [weight_adding operationId running unfinished]
    simp [weight, returned, pending, goesOn]

theorem marks_advance (program : Marking) (call : after.toolCall = before.toolCall)
    (fits : program.For before.toolCall)
    (running : before.phase.program? = some program) (unfinished : before.phase.outcome? = none)
    (goesOn : after.phase.program? = (program.advance invalid seen).2.getLeft?)
    (ends : after.phase.outcome? = (program.advance invalid seen).2.getRight?) :
    Marks operationId seen (program.advance invalid seen).1 .advance before after := by
  cases program with
  | validating arguments => exact marks_validating seen operationId running unfinished goesOn ends
  | testing args => exact marks_testing seen operationId running unfinished goesOn ends
  | adding args =>
      have operation : operationOf after.toolCall = some args.operationId := by
        rw [call]
        exact fits
      exact marks_adding seen operationId operation running unfinished goesOn ends

end Advances

theorem marks_act {task : ToolTask Marking} {action : Action} {seen : List String}
    {phase : Phase Marking} (sound : Sound task)
    (acts : Acts (markers invalid maxConcurrency workers) state task.toolCall task.phase action
      seen phase) (operationId : String) :
    Marks operationId state.shared seen action task { task with phase := phase } := by
  obtain ⟨toolCall, before⟩ := task
  cases acts with
  | unknown | acquires =>
      refine marks_steady ?_ ?_ (not_passes (by simp [Phase.program?]))
      · simp [weight, returns, pending, Phase.program?, Phase.outcome?, statusOf]
      · simp [returns, Phase.outcome?, statusOf]
  | starts program free =>
      obtain ⟨_, arguments, rfl⟩ := sound.queued program rfl
      exact marks_steady rfl id (not_passes (by simp [Phase.program?]))
  | advances program =>
      exact marks_advance state.shared operationId program rfl (sound.program program rfl) rfl rfl
        (Phase.program?_holding_after _) (Phase.outcome?_holding_after _)
  | runsOn program =>
      exact marks_advance state.shared operationId program rfl (sound.program program rfl) rfl rfl
        (Phase.program?_cancelled_after _) (Phase.outcome?_cancelled_after _)
  | resumes outcome | cancels outcome =>
      exact marks_steady rfl id (not_passes (by simp [Phase.program?]))

/-- The executions that have committed the operation or are bound to. -/
def total (operationId : String) (state : State (List String) Marking) : Nat :=
  state.tasks.countP (returns operationId "committed") + state.tasks.countP (pending operationId)

/-- In the transition an execution of the operation passes the test. -/
def PassesTest (operationId : String)
    (transition : Transition (State (List String) Marking) Label) : Prop :=
  ∃ position index task, transition.label = .move position index .advance ∧
    transition.source.task? position index = some task ∧
    Passes operationId transition.source.shared task

theorem not_passesTest_of_moves {operationId : String} (still : label.moves = false) :
    ¬ PassesTest operationId ⟨state, label, next⟩ := by
  rintro ⟨position, index, task, rfl, _⟩
  cases still

/-- What a step means for an operation. -/
structure Totals (operationId : String) (state : State (List String) Marking) (label : Label)
    (next : State (List String) Marking) : Prop where
  keeps : state.shared ⊆ next.shared
  records : 0 < next.tasks.countP (returns operationId "committed") →
    0 < state.tasks.countP (returns operationId "committed") ∨ operationId ∈ next.shared
  passing : PassesTest operationId ⟨state, label, next⟩ →
    total operationId next = total operationId state + 1
  other : ¬ PassesTest operationId ⟨state, label, next⟩ →
    total operationId next = total operationId state

theorem totals_quiet {operationId : String} (still : label.moves = false)
    (shared : next.shared = state.shared)
    (committed : next.tasks.countP (returns operationId "committed") =
      state.tasks.countP (returns operationId "committed"))
    (bound : next.tasks.countP (pending operationId) = state.tasks.countP (pending operationId)) :
    Totals operationId state label next where
  keeps := shared ▸ List.Subset.refl _
  records found := .inl (committed ▸ found)
  passing passes := absurd passes (not_passesTest_of_moves still)
  other _ := by rw [total, total, committed, bound]

theorem total_split (operationId : String) {front back : List (ToolTask Marking)}
    {task : ToolTask Marking} (whole : state.tasks = front ++ task :: back) :
    total operationId state =
      front.countP (returns operationId "committed") + front.countP (pending operationId) +
        weight operationId task +
        (back.countP (returns operationId "committed") + back.countP (pending operationId)) := by
  simp only [total, weight, whole, countP_split]
  omega

theorem passesTest_move_iff {operationId : String} {position index : Nat} {action : Action}
    {task : ToolTask Marking} (found : state.task? position index = some task) :
    PassesTest operationId ⟨state, .move position index action, next⟩ ↔
      action = .advance ∧ Passes operationId state.shared task := by
  constructor
  · rintro ⟨_, _, other, label, here, passing⟩
    cases label
    rw [found] at here
    cases here
    exact ⟨rfl, passing⟩
  · rintro ⟨rfl, passing⟩
    exact ⟨position, index, task, rfl, found, passing⟩

theorem totals_move {operationId : String} {position index : Nat} {action : Action}
    {front back : List (ToolTask Marking)} {task : ToolTask Marking} {phase : Phase Marking}
    (found : state.task? position index = some task)
    (whole : state.tasks = front ++ task :: back)
    (marks : Marks operationId state.shared next.shared action task { task with phase := phase })
    (tasks : next.tasks = front ++ { task with phase := phase } :: back) :
    Totals operationId state (.move position index action) next where
  keeps := marks.keeps
  records := by
    intro counted
    cases committed : returns operationId "committed" { task with phase := phase } with
    | true =>
        refine (marks.records committed).imp_left fun earlier => ?_
        rw [whole, countP_split, earlier, Bool.toNat_true]
        omega
    | false =>
        left
        simp only [whole, tasks, countP_split, committed, Bool.toNat_false] at counted ⊢
        omega
  passing := by
    rw [passesTest_move_iff found]
    rintro ⟨advances, passes⟩
    rw [total_split operationId tasks, total_split operationId whole, marks.passing advances passes]
    omega
  other := by
    rw [passesTest_move_iff found]
    intro fails
    rw [total_split operationId tasks, total_split operationId whole, marks.other fails]

theorem totals_step (sound : ∀ task ∈ state.tasks, Sound task)
    (stepped : (markers invalid maxConcurrency workers).step state label = some next)
    (operationId : String) : Totals operationId state label next := by
  cases (step_effect stepped).onTasks with
  | grows toolCalls still shared tasks =>
      refine totals_quiet still shared ?_ ?_
      · rw [tasks, List.countP_append, countP_waiting, Nat.add_zero]
        intro toolCall
        simp [returns, Phase.outcome?, statusOf]
      · rw [tasks, List.countP_append, countP_waiting fun _ => rfl, Nat.add_zero]
  | @moves position index action _ task phase front back found whole acts tasks =>
      have member : task ∈ state.tasks := by simp [whole]
      exact totals_move found whole (marks_act (sound task member) acts operationId) tasks
  | cancels front tasks back still shared whole left =>
      refine totals_quiet still shared ?_ ?_
      · simp only [left, whole, List.countP_append]
        rw [countP_cancel fun task => by simp [returns, ToolTask.cancel]]
      · simp only [left, whole, List.countP_append]
        rw [countP_cancel fun task => by simp [pending, ToolTask.cancel]]

end Moves

/-! ## Runs -/

/-- No execution passes the test while another is between the test and the insertion of the
same operation. -/
def Orderly (transition : Transition (State (List String) Marking) Label) : Prop :=
  ∀ operationId, PassesTest operationId transition →
    transition.source.tasks.countP (pending operationId) = 0

/-- The operation that an execution is about to test in the transition. -/
def tested (transition : Transition (State (List String) Marking) Label) : Option String :=
  match transition.label with
  | .move position index .advance =>
      match (transition.source.task? position index).bind fun task => task.phase.program? with
      | some (.testing args) => some args.operationId
      | _ => none
  | _ => none

theorem tested_of_passesTest {operationId : String}
    {transition : Transition (State (List String) Marking) Label}
    (passes : PassesTest operationId transition) :
    tested transition = some operationId ∧ operationId ∉ transition.source.shared := by
  obtain ⟨position, index, task, label, found, args, testing, rfl, fresh⟩ := passes
  simp [tested, label, found, testing, fresh]

theorem orderly_of_tested {transition : Transition (State (List String) Marking) Label}
    (apart : ∀ operationId ∈ tested transition, operationId ∈ transition.source.shared ∨
      transition.source.tasks.countP (pending operationId) = 0) : Orderly transition := by
  intro operationId passes
  obtain ⟨testing, fresh⟩ := tested_of_passesTest passes
  exact (apart operationId testing).resolve_left fresh

theorem pending_of_idle {tasks : List (ToolTask Marking)}
    (idle : tasks.all (fun task => task.phase.program?.isNone) = true) (operationId : String) :
    tasks.countP (pending operationId) = 0 := by
  refine List.countP_eq_zero.mpr fun task member => ?_
  have nothing := Option.isNone_iff_eq_none.mp (List.all_eq_true.mp idle task member)
  simp [pending, nothing]

section Runs

variable {invalid : Dict → Raised} {maxConcurrency workers : Nat}
  {history : List (Transition (State (List String) Marking) Label)}
  {first final : State (List String) Marking}

theorem total_mono (sound : ∀ task ∈ first.tasks, Sound task)
    (run : Run (markers invalid maxConcurrency workers).step first history final)
    (operationId : String) :
    (∀ task ∈ final.tasks, Sound task) ∧ total operationId first ≤ total operationId final := by
  induction run with
  | nil => exact ⟨sound, le_refl _⟩
  | @snoc history state label next _ stepped ih =>
      have totals := totals_step ih.1 stepped operationId
      refine ⟨sound_step ih.1 stepped, ih.2.trans ?_⟩
      by_cases passes : PassesTest operationId ⟨state, label, next⟩
      · rw [totals.passing passes]
        exact Nat.le_succ _
      · rw [totals.other passes]

theorem sound_start : ∀ task ∈ (start [] : State (List String) Marking).tasks, Sound task := by
  simp [start, State.tasks]

/-- One execution at most has committed the operation or is bound to. -/
structure Guarded (state : State (List String) Marking) : Prop where
  sound : ∀ task ∈ state.tasks, Sound task
  single : ∀ operationId, total operationId state ≤ 1
  seen : ∀ operationId, 0 < state.tasks.countP (returns operationId "committed") →
    operationId ∈ state.shared

theorem guarded_step {state next : State (List String) Marking} {label : Label}
    (guarded : Guarded state)
    (stepped : (markers invalid maxConcurrency workers).step state label = some next)
    (orderly : Orderly ⟨state, label, next⟩) : Guarded next := by
  have totals := totals_step guarded.sound stepped
  refine ⟨sound_step guarded.sound stepped, fun operationId => ?_, fun operationId found => ?_⟩
  · have before := guarded.single operationId
    by_cases passes : PassesTest operationId ⟨state, label, next⟩
    · have none := orderly operationId passes
      have uncommitted : state.tasks.countP (returns operationId "committed") = 0 := by
        by_contra some
        have known := guarded.seen operationId (Nat.pos_of_ne_zero some)
        obtain ⟨_, _, _, _, _, _, _, _, fresh⟩ := passes
        exact fresh known
      rw [(totals operationId).passing passes, total, uncommitted, none]
    · rwa [(totals operationId).other passes]
  · rcases (totals operationId).records found with earlier | known
    · exact (totals operationId).keeps (guarded.seen operationId earlier)
    · exact known

theorem Guarded.commitsOnce {state : State (List String) Marking} (guarded : Guarded state) :
    CommitsOnce state where
  once operationId := le_trans (Nat.le_add_right _ _) (guarded.single operationId)
  others := by
    intro task member operationId operation ended
    obtain ⟨outcome, came⟩ := Option.ne_none_iff_exists'.mp ended
    rcases (guarded.sound task member).outcome outcome came operationId operation with
      rfl | rfl
    · left
      simp [returns, operation, came, statusOf_committed]
    · right
      simp [returns, operation, came, statusOf_skipped]

theorem commitsOnce_of_orderly
    (run : Run (markers invalid maxConcurrency workers).step (start []) history final)
    (orderly : ∀ transition ∈ history, Orderly transition) : CommitsOnce final := by
  have base : Guarded (start []) :=
    ⟨sound_start, fun _ => by simp [total, start, State.tasks],
      fun _ found => by simp [start, State.tasks] at found⟩
  have guarded := run.preserves Orderly Guarded base
    (fun _ _ _ guarded stepped orderly => guarded_step guarded stepped orderly) orderly
  exact guarded.commitsOnce

/-- Once no execution is between the test and the insertion, two that were there at once
have both committed. -/
theorem orderly_of_commitsOnce
    (run : Run (markers invalid maxConcurrency workers).step (start []) history final)
    (settled : ∀ operationId, final.tasks.countP (pending operationId) = 0)
    (commitsOnce : CommitsOnce final) : ∀ transition ∈ history, Orderly transition := by
  intro transition member operationId passes
  obtain ⟨earlier, later, rfl⟩ := List.append_of_mem member
  obtain ⟨before, stepped, after⟩ := run.around
  have sound := (total_mono sound_start before operationId).1
  have grown := (totals_step sound stepped operationId).passing passes
  have kept := (total_mono (sound_step sound stepped) after operationId).2
  have once := commitsOnce.once operationId
  have none := settled operationId
  unfold total at grown kept
  omega

/-- A run in which the executions pass the test one after the other commits every operation
at most once; and where none is left between the test and the insertion, only such a run. -/
theorem commitsOnce_run
    (run : Run (markers invalid maxConcurrency workers).step (start []) history final) :
    ((∀ transition ∈ history, Orderly transition) → CommitsOnce final) ∧
      ((∀ operationId, final.tasks.countP (pending operationId) = 0) →
        CommitsOnce final → ∀ transition ∈ history, Orderly transition) :=
  ⟨commitsOnce_of_orderly run, orderly_of_commitsOnce run⟩

end Runs

def rejection (_ : Dict) : Raised :=
  ⟨.validationError, "1 validation error for IdempotentInput", .list []⟩

def writeCall (callId : String) : ToolCall :=
  ⟨callId, "write_run_marker", [("operation_id", .str "tx_999"), ("content", .str "buy BTC")]⟩

/-- Two writes of one operation, of which the second is tested after the insertion of the
first. -/
def testedInTurn : List Label :=
  [.executeBatch [writeCall "w1", writeCall "w2"] "5.0", .move 0 0 .acquire, .move 0 1 .acquire,
    .move 0 0 .start, .move 0 1 .start, .move 0 0 .advance, .move 0 1 .advance,
    .move 0 0 .advance, .move 0 0 .advance, .move 0 1 .advance, .move 0 0 .resume,
    .move 0 1 .resume, .gather 0]

theorem second_write_skipped :
    ∃ history final, Run (markers rejection 2 4).step (start []) history final ∧
      history.map (·.label) = testedInTurn ∧
      final.tasks.map (fun task => statusOf task.phase.outcome?) =
        [some "committed", some "skipped"] ∧
      CommitsOnce final ∧ ∀ transition ∈ history, Orderly transition := by
  obtain ⟨history, final, run, labels, observed⟩ := execute_observed (markers rejection 2 4).step
    (start []) testedInTurn
    (fun outcome => (outcome.2.tasks.map fun task => statusOf task.phase.outcome?,
      outcome.2.tasks.all fun task => task.phase.program?.isNone,
      outcome.1.all fun transition => decide (∀ operationId ∈ tested transition,
        operationId ∈ transition.source.shared ∨
          transition.source.tasks.countP (pending operationId) = 0)))
    ([some "committed", some "skipped"], true, true) (by decide +kernel)
  obtain ⟨statuses, rest⟩ := Prod.mk.inj observed
  obtain ⟨idle, apart⟩ := Prod.mk.inj rest
  have orderly : ∀ transition ∈ history, Orderly transition := fun transition member =>
    orderly_of_tested (of_decide_eq_true (List.all_eq_true.mp apart transition member))
  obtain ⟨commits, only⟩ := commitsOnce_run run
  exact ⟨history, final, run, labels, statuses, commits orderly,
    only (pending_of_idle idle) (commits orderly)⟩

/-- Both executions of a batch pass the test before either makes its insertion. -/
theorem interleaved_writes_commit_twice :
    ¬ ∀ (invalid : Dict → Raised) (maxConcurrency workers : Nat)
      (history : List (Transition (State (List String) Marking) Label))
      (final : State (List String) Marking),
      Run (markers invalid maxConcurrency workers).step (start []) history final →
      CommitsOnce final := by
  intro always
  obtain ⟨history, final, run, _, twice⟩ := execute_observed (markers rejection 2 4).step
    (start [])
    [.executeBatch [writeCall "w1", writeCall "w2"] "5.0", .move 0 0 .acquire, .move 0 1 .acquire,
      .move 0 0 .start, .move 0 1 .start, .move 0 0 .advance, .move 0 1 .advance,
      .move 0 0 .advance, .move 0 1 .advance, .move 0 0 .advance, .move 0 1 .advance]
    (fun outcome => outcome.2.tasks.countP (returns "tx_999" "committed")) 2 (by decide +kernel)
  have two : final.tasks.countP (returns "tx_999" "committed") = 2 := twice
  have once := (always rejection 2 4 history final run).once "tx_999"
  omega

end DurableAgent.Tools
