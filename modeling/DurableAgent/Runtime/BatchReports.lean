import DurableAgent.Runtime.Batches

/-!
# What a batch reports

A batch is followed through a run of the executor: which calls it was given, what each of
them came to, and what it returned or for which of them it raised.
-/

set_option autoImplicit false

namespace DurableAgent.Runtime.Batches

open Library Python

variable {Shared Local : Type}

/-! ## One batch in a step -/

section Batch

variable (executor : Executor Shared Local) (state : State Shared Local) (position : Nat)

def Label.batch? : Label → Option Nat
  | .executeBatch _ _ => none
  | .move batch _ _ => some batch
  | .gather batch => some batch
  | .timeout batch => some batch

/-- What a step does to the batch at a position. -/
inductive BatchEffect : Label → Option (Batch Local) → Option (Batch Local) → Prop where
  | stays {label : Label} (batch : Option (Batch Local)) :
      label.batch? ≠ some position → BatchEffect label batch batch
  | appears (toolCalls : List ToolCall) (batchTimeout : String) :
      BatchEffect (.executeBatch toolCalls batchTimeout) none
        (some (.dispatch toolCalls batchTimeout))
  | moves {batch : Batch Local} {front back : List (ToolTask Local)} {task : ToolTask Local}
      {action : Action} {shared : Shared} {phase : Phase Local} :
      batch.tasks = front ++ task :: back →
      Acts executor state task.toolCall task.phase action shared phase →
      BatchEffect (.move position front.length action) (some batch)
        (some { batch with tasks := front ++ { task with phase := phase } :: back })
  | gathers {batch : Batch Local} {results : List ToolResult} :
      batch.ending = none → batch.tasks.mapM ToolTask.result? = some results →
      BatchEffect (.gather position) (some batch)
        (some { batch with ending := some (.returned results) })
  | raises {batch : Batch Local} :
      batch.ending = none → batch.tasks.any ToolTask.isCancelled = true →
      BatchEffect (.gather position) (some batch) (some { batch with ending := some .raised })
  | expires {batch : Batch Local} :
      batch.ending = none →
      BatchEffect (.timeout position) (some batch)
        (some { batch with
          tasks := batch.tasks.map ToolTask.cancel
          ending := some (.returned batch.timeouts) })

variable {executor state}

theorem getElem?_elsewhere {α : Type} {front : List α} {index : Nat}
    (elsewhere : index ≠ front.length) (back : List α) (item other : α) :
    (front ++ item :: back)[index]? = (front ++ other :: back)[index]? := by
  rcases lt_or_gt_of_ne elsewhere with less | greater
  · rw [List.getElem?_append_left less, List.getElem?_append_left less]
  · obtain ⟨gap, rfl⟩ := Nat.exists_eq_add_of_lt greater
    simp [List.getElem?_append_right, Nat.add_assoc]

theorem BatchEffect.among {before behind : List (Batch Local)} {batch changed : Batch Local}
    {label : Label} (concerned : label.batch? = some before.length)
    (effect : BatchEffect executor state before.length label (some batch) (some changed)) :
    BatchEffect executor state position label (before ++ batch :: behind)[position]?
      (before ++ changed :: behind)[position]? := by
  by_cases here : position = before.length
  · subst here
    simpa using effect
  · rw [getElem?_elsewhere here behind batch changed]
    refine .stays _ ?_
    rw [concerned]
    exact fun same => here (Option.some.inj same).symm

theorem Effect.onBatch {label : Label} {next : State Shared Local}
    (effect : Effect executor state label next) :
    BatchEffect executor state position label state.batches[position]? next.batches[position]? := by
  cases effect with
  | dispatches toolCalls batchTimeout =>
      rcases lt_trichotomy position state.batches.length with less | rfl | greater
      · rw [List.getElem?_append_left less]
        exact .stays _ (by simp [Label.batch?])
      · simpa using .appears toolCalls batchTimeout
      · rw [List.getElem?_eq_none greater.le,
          List.getElem?_eq_none (by simpa [Nat.succ_le_iff] using greater)]
        exact .stays _ (by simp [Label.batch?])
  | moves batches tasks acts =>
      rw [batches]
      exact .among position rfl (.moves tasks acts)
  | gathers batches running finished =>
      rw [batches]
      exact .among position rfl (.gathers running finished)
  | raises batches running cancelled =>
      rw [batches]
      exact .among position rfl (.raises running cancelled)
  | expires batches running =>
      rw [batches]
      exact .among position rfl (.expires running)

end Batch

/-! ## What a call comes to -/

def State.outcome? (state : State Shared Local) (position index : Nat) :
    Option (Except Raised Dict) :=
  (state.task? position index).bind fun task => task.phase.outcome?

/-- In the course of the history the call has come to the outcome. -/
def Completed (history : List (Transition (State Shared Local) Label)) (position index : Nat)
    (outcome : Except Raised Dict) : Prop :=
  ∃ transition ∈ history, (∃ action, transition.label = .move position index action) ∧
    transition.source.outcome? position index = none ∧
    transition.target.outcome? position index = some outcome

section Outcomes

variable {executor : Executor Shared Local} {state next : State Shared Local} {label : Label}

theorem Acts.outcome? {toolCall : ToolCall} {before after : Phase Local} {action : Action}
    {shared : Shared} (acts : Acts executor state toolCall before action shared after) :
    before.outcome? = none ∨ after.outcome? = before.outcome? := by
  cases acts with
  | unknown | acquires | starts | advances | runsOn => exact .inl rfl
  | resumes | cancels => exact .inr rfl

/-- A call comes to its outcome by a move of its own, and keeps it. -/
theorem outcome?_step (stepped : executor.step state label = some next) (position index : Nat) :
    ((∃ action, label = .move position index action) ∧ state.outcome? position index = none) ∨
      next.outcome? position index = state.outcome? position index := by
  have effect := (step_effect stepped).onBatch position
  unfold State.outcome? State.task?
  generalize state.batches[position]? = old at effect ⊢
  generalize next.batches[position]? = new at effect ⊢
  cases effect with
  | stays batch elsewhere => exact .inr rfl
  | appears toolCalls batchTimeout =>
      right
      cases found : toolCalls[index]? with
      | none => simp [Batch.dispatch, found]
      | some toolCall => simp [Batch.dispatch, found, Phase.outcome?]
  | @moves batch front back task action shared phase tasks acts =>
      simp only [Option.bind_some, tasks]
      by_cases here : index = front.length
      · subst here
        rcases acts.outcome? with none | same
        · exact .inl ⟨⟨action, rfl⟩, by simpa using none⟩
        · exact .inr (by simpa using same)
      · rw [getElem?_elsewhere here back task { task with phase := phase }]
        exact .inr rfl
  | gathers running finished => exact .inr rfl
  | raises running cancelled => exact .inr rfl
  | @expires batch running =>
      right
      cases found : batch.tasks[index]? with
      | none => simp [found]
      | some task => simp [found, ToolTask.cancel]

end Outcomes

section Runs

variable {executor : Executor Shared Local} {shared : Shared}
  {history : List (Transition (State Shared Local) Label)} {final : State Shared Local}

/-- What a call has come to is in the state. -/
theorem completed_iff (run : Run executor.step (start shared) history final)
    (position index : Nat) (outcome : Except Raised Dict) :
    Completed history position index outcome ↔ final.outcome? position index = some outcome := by
  induction run with
  | nil => simp [Completed, State.outcome?, State.task?, start]
  | @snoc history state label next _ stepped ih =>
      have grown : Completed (history ++ [⟨state, label, next⟩]) position index outcome ↔
          Completed history position index outcome ∨
            ((∃ action, label = .move position index action) ∧
              state.outcome? position index = none ∧
              next.outcome? position index = some outcome) := by
        simp [Completed, or_and_right, exists_or]
      rw [grown, ih]
      rcases outcome?_step stepped position index with ⟨moved, none⟩ | same
      · simp [moved, none]
      · rw [same]
        refine or_iff_left ?_
        rintro ⟨_, none, found⟩
        rw [none] at found
        cases found

/-! ## What a batch returns -/

/-- The calls that `execute_batch` has been given, with their timeouts. -/
def Label.dispatched? : Label → Option (List ToolCall × String)
  | .executeBatch toolCalls batchTimeout => some (toolCalls, batchTimeout)
  | _ => none

def dispatched (history : List (Transition (State Shared Local) Label)) :
    List (List ToolCall × String) :=
  history.filterMap fun transition => transition.label.dispatched?

def Batch.request (batch : Batch Local) : List ToolCall × String :=
  (batch.tasks.map ToolTask.toolCall, batch.batchTimeout)

theorem request_step {state next : State Shared Local} {label : Label}
    (stepped : executor.step state label = some next) :
    next.batches.map Batch.request =
      state.batches.map Batch.request ++ label.dispatched?.toList := by
  cases step_effect stepped with
  | dispatches toolCalls batchTimeout =>
      simp [Batch.request, Batch.dispatch, Label.dispatched?, Function.comp_def]
  | moves batches tasks acts => simp [batches, tasks, Batch.request, Label.dispatched?]
  | gathers batches running finished => simp [batches, Batch.request, Label.dispatched?]
  | raises batches running cancelled => simp [batches, Batch.request, Label.dispatched?]
  | expires batches running =>
      simp [batches, Batch.request, Label.dispatched?, Function.comp_def, ToolTask.cancel]

theorem dispatched_eq (run : Run executor.step (start shared) history final) :
    dispatched history = final.batches.map Batch.request := by
  induction run with
  | nil => rfl
  | @snoc history state label next _ stepped ih =>
      have grown : dispatched (history ++ [⟨state, label, next⟩]) =
          dispatched history ++ label.dispatched?.toList := by
        cases given : label.dispatched? with
        | none => simp [dispatched, List.filterMap_append, given]
        | some request => simp [dispatched, List.filterMap_append, given]
      rw [grown, ih, request_step stepped]

def TimedOut (history : List (Transition (State Shared Local) Label)) (position : Nat) : Prop :=
  ∃ transition ∈ history, transition.label = .timeout position

/-- A task that has been cancelled by its own tool. -/
def ToolTask.CancelledItself (task : ToolTask Local) : Prop :=
  ∃ exception, task.phase = .cancelled (some (.returned (.error exception))) ∧
    exception.cls = .cancelledError

/-- Up to the deadline no task is cancelled but by its own tool, and a batch has ended only
with what the tasks have come to or because of such a cancellation; after a timeout, with
nothing but timeouts. -/
def Batch.Reports (batch : Batch Local) (timedOut : Prop) : Prop :=
  match batch.ending with
  | none => ¬ timedOut ∧ ∀ task ∈ batch.tasks, task.isCancelled = true → task.CancelledItself
  | some (.returned results) =>
      (timedOut ∧ results = batch.timeouts) ∨
        (¬ timedOut ∧ batch.tasks.mapM ToolTask.result? = some results)
  | some .raised => ¬ timedOut ∧ ∃ task ∈ batch.tasks, task.CancelledItself

theorem mapM_eq_some_iff {α β : Type} {f : α → Option β} {items : List α} {results : List β} :
    items.mapM f = some results ↔ items.map f = results.map some := by
  induction items generalizing results with
  | nil =>
      cases results with
      | nil => simp
      | cons result rest => simp
  | cons item items ih =>
      rw [List.mapM_cons]
      simp only [Option.bind_eq_bind, Option.pure_def, Option.bind_eq_some_iff, Option.some.injEq,
        ih, List.map_cons]
      constructor
      · rintro ⟨result, first, rest, others, rfl⟩
        rw [List.map_cons, first, others]
      · intro mapped
        cases results with
        | nil => cases mapped
        | cons result rest =>
            obtain ⟨first, others⟩ := List.cons.inj mapped
            exact ⟨result, first, rest, others, rfl⟩

/-- A finished task moves no more. -/
theorem Acts.unfinished {state : State Shared Local} {task : ToolTask Local} {after : Phase Local}
    {action : Action} {shared : Shared}
    (acts : Acts executor state task.toolCall task.phase action shared after) :
    task.result? = none := by
  unfold ToolTask.result?
  generalize task.phase = before at acts ⊢
  cases acts with
  | unknown | acquires | starts | advances | runsOn | resumes | cancels => rfl

theorem awaited_cancelled {outcome : Except Raised Dict} (cancelled : awaited outcome = .cancelled) :
    ∃ exception, outcome = .error exception ∧ exception.cls = .cancelledError := by
  cases outcome with
  | ok output => cases cancelled
  | error exception =>
      refine ⟨exception, rfl, ?_⟩
      simp only [awaited] at cancelled
      split at cancelled
      · next kind => exact kind
      · cases cancelled
      · cases cancelled

/-- A task that has been cancelled by its tool has nothing left to do. -/
theorem Acts.not_cancelledItself {state : State Shared Local} {task : ToolTask Local}
    {after : Phase Local} {action : Action} {shared : Shared}
    (acts : Acts executor state task.toolCall task.phase action shared after) :
    ¬ task.CancelledItself := by
  rintro ⟨exception, phase, _⟩
  rw [phase] at acts
  cases acts

/-- A move that ends in a cancellation is a waking up to the one of the tool. -/
theorem Acts.cancelledItself {state : State Shared Local} {task : ToolTask Local}
    {after : Phase Local} {action : Action} {shared : Shared}
    (acts : Acts executor state task.toolCall task.phase action shared after)
    (before : task.isCancelled = true → task.CancelledItself) :
    ToolTask.isCancelled { task with phase := after } = true →
      ToolTask.CancelledItself { task with phase := after } := by
  obtain ⟨toolCall, phase⟩ := task
  intro ended
  cases acts with
  | unknown | acquires | starts | advances | resumes => cases ended
  | runsOn program =>
      obtain ⟨_, other, _⟩ := before rfl
      cases other
  | cancels outcome cancelled =>
      obtain ⟨exception, rfl, kind⟩ := awaited_cancelled cancelled
      exact ⟨exception, rfl, kind⟩

theorem timedOut_concat {state next : State Shared Local} {label : Label} {position : Nat} :
    TimedOut (history ++ [⟨state, label, next⟩]) position ↔
      TimedOut history position ∨ label = .timeout position := by
  simp [TimedOut, or_and_right, exists_or]

/-- The reports of the batch at the position, if there is one. -/
def ReportsAt (batch : Option (Batch Local)) (timedOut : Prop) : Prop :=
  match batch with
  | none => ¬ timedOut
  | some batch => batch.Reports timedOut

theorem reportsAt_run (run : Run executor.step (start shared) history final) (position : Nat) :
    ReportsAt final.batches[position]? (TimedOut history position) := by
  induction run with
  | nil => simp [ReportsAt, TimedOut, start]
  | @snoc history state label next _ stepped ih =>
      have effect := (step_effect stepped).onBatch position
      have timed : TimedOut (history ++ [⟨state, label, next⟩]) position =
          (TimedOut history position ∨ label = .timeout position) := propext timedOut_concat
      rw [timed]
      generalize state.batches[position]? = old at effect ih
      generalize next.batches[position]? = new at effect ⊢
      generalize TimedOut history position = timedOut at ih ⊢
      cases effect with
      | stays batch elsewhere =>
          have other : label ≠ .timeout position := by
            rintro rfl
            exact elsewhere rfl
          simpa [other] using ih
      | appears toolCalls batchTimeout =>
          simpa [ReportsAt, Batch.Reports, Batch.dispatch, ToolTask.isCancelled,
            Phase.isCancelled] using ih
      | @moves batch front back task action shared phase tasks acts =>
          simp only [ReportsAt, Batch.Reports, reduceCtorEq, or_false] at ih ⊢
          cases ended : batch.ending with
          | none =>
              simp only [ended, tasks, List.forall_mem_append, List.forall_mem_cons] at ih ⊢
              obtain ⟨inTime, before, moved, behind⟩ := ih
              exact ⟨inTime, before, acts.cancelledItself moved, behind⟩
          | some ending =>
              cases ending with
              | returned results =>
                  simp only [ended] at ih ⊢
                  refine ih.imp (fun expired => ?_) (fun gathered => ?_)
                  · simpa [tasks, Batch.timeouts] using expired
                  · have finished := mapM_eq_some_iff.mp gathered.2
                    have member : task.result? ∈ batch.tasks.map ToolTask.result? :=
                      List.mem_map_of_mem (by simp [tasks])
                    rw [finished, acts.unfinished] at member
                    simp at member
              | raised =>
                  simp only [ended] at ih ⊢
                  obtain ⟨inTime, other, member, cancelled⟩ := ih
                  refine ⟨inTime, other, ?_, cancelled⟩
                  have elsewhere : other ≠ task := by
                    rintro rfl
                    exact acts.not_cancelledItself cancelled
                  rw [tasks] at member
                  simp only [List.mem_append, List.mem_cons] at member ⊢
                  exact member.imp_right fun later => .inr (later.resolve_left elsewhere)
      | @gathers batch results running finished =>
          simp only [ReportsAt, Batch.Reports, running] at ih ⊢
          exact .inr ⟨by simpa using ih.1, finished⟩
      | @raises batch running cancelled =>
          simp only [ReportsAt, Batch.Reports, running, reduceCtorEq, or_false] at ih ⊢
          obtain ⟨task, member, gone⟩ := List.any_eq_true.mp cancelled
          exact ⟨ih.1, task, member, ih.2 task member gone⟩
      | @expires batch running =>
          exact .inl ⟨.inr rfl, by simp [Batch.timeouts, Function.comp_def, ToolTask.cancel]⟩

/-- The batch returns one result for each call, in their order: what the calls have come
to, unless it has timed out. -/
structure Returned (history : List (Transition (State Shared Local) Label)) (position : Nat)
    (toolCalls : List ToolCall) (batchTimeout : String) (results : List ToolResult) : Prop where
  addresses : results.map ToolResult.address = toolCalls.map ToolCall.address
  timedOut : TimedOut history position →
    results = toolCalls.map (ToolCall.timeoutResult batchTimeout)
  inTime : ¬ TimedOut history position → ∀ index call, toolCalls[index]? = some call →
    ∃ outcome, (∀ other, Completed history position index other ↔ other = outcome) ∧
      results[index]? = some (call.result outcome)

theorem result?_eq_some {task : ToolTask Local} {result : ToolResult}
    (finished : task.result? = some result) :
    ∃ outcome, task.phase.outcome? = some outcome ∧ result = task.toolCall.result outcome := by
  unfold ToolTask.result? at finished
  split at finished
  · next outcome phase =>
      rw [phase]
      exact ⟨outcome, rfl, (Option.some.inj finished).symm⟩
  · cases finished

/-- The batch raises because the tool of one of its calls has cancelled its task. -/
structure Cancelled (history : List (Transition (State Shared Local) Label)) (position : Nat)
    (toolCalls : List ToolCall) : Prop where
  inTime : ¬ TimedOut history position
  byCall : ∃ index call exception, toolCalls[index]? = some call ∧
    Completed history position index (.error exception) ∧ exception.cls = .cancelledError

theorem executeBatch_cancelled (run : Run executor.step (start shared) history final)
    {position : Nat} {batch : Batch Local} (found : final.batches[position]? = some batch)
    (raised : batch.ending = some .raised) : Cancelled history position batch.request.1 := by
  have reports := reportsAt_run run position
  simp only [found, ReportsAt, Batch.Reports, raised] at reports
  obtain ⟨inTime, task, member, exception, phase, kind⟩ := reports
  obtain ⟨index, here⟩ := List.getElem?_of_mem member
  refine ⟨inTime, index, task.toolCall, exception, ?_, ?_, kind⟩
  · simp [Batch.request, here]
  · rw [completed_iff run]
    simp [State.outcome?, State.task?, found, here, phase, Phase.outcome?]

theorem executeBatch_returned (run : Run executor.step (start shared) history final)
    {position : Nat} {batch : Batch Local} {results : List ToolResult}
    (found : final.batches[position]? = some batch)
    (returned : batch.ending = some (.returned results)) :
    Returned history position batch.request.1 batch.request.2 results := by
  have reports := reportsAt_run run position
  simp only [found, ReportsAt, Batch.Reports, returned] at reports
  have listed : ∀ (index : Nat) (call : ToolCall), batch.request.1[index]? = some call →
      ∃ task : ToolTask Local, batch.tasks[index]? = some task ∧ task.toolCall = call := by
    intro index call given
    simpa [Batch.request] using given
  rcases reports with ⟨expired, rfl⟩ | ⟨inTime, gathered⟩
  · refine ⟨?_, fun _ => ?_, fun inTime => absurd expired inTime⟩
    · simp [Batch.timeouts, Batch.request, ToolCall.timeoutResult, ToolResult.address,
        ToolCall.address]
    · simp [Batch.timeouts, Batch.request]
  · have finished := mapM_eq_some_iff.mp gathered
    have each : ∀ (index : Nat) (task : ToolTask Local), batch.tasks[index]? = some task →
        ∃ outcome, task.phase.outcome? = some outcome ∧
          results[index]? = some (task.toolCall.result outcome) := by
      intro index task here
      have result := congrArg (fun list => list[index]?) finished
      simp only [List.getElem?_map, here, Option.map_some] at result
      obtain ⟨given, listed, same⟩ := Option.map_eq_some_iff.mp result.symm
      obtain ⟨outcome, came, rfl⟩ := result?_eq_some same.symm
      exact ⟨outcome, came, listed⟩
    have addressed : ∀ task ∈ batch.tasks,
        (ToolTask.result? task).map ToolResult.address = some task.toolCall.address := by
      intro task member
      have among : task.result? ∈ results.map some := finished ▸ List.mem_map_of_mem member
      obtain ⟨result, _, same⟩ := List.mem_map.mp among
      obtain ⟨outcome, _, rfl⟩ := result?_eq_some same.symm
      rw [← same, Option.map_some, ToolCall.result_address]
    refine ⟨?_, fun expired => absurd expired inTime, fun _ index call given => ?_⟩
    · have injective : Function.Injective (some : String × String → Option (String × String)) :=
        fun _ _ => Option.some.inj
      apply List.map_injective_iff.mpr injective
      calc (results.map ToolResult.address).map some
          = (results.map some).map (Option.map ToolResult.address) := by simp
        _ = batch.tasks.map (fun task => (ToolTask.result? task).map ToolResult.address) := by
            rw [← finished, List.map_map]
            rfl
        _ = (batch.request.1.map ToolCall.address).map some := by
            rw [List.map_congr_left addressed]
            simp [Batch.request]
    · obtain ⟨task, here, rfl⟩ := listed index call given
      obtain ⟨outcome, came, result⟩ := each index task here
      refine ⟨outcome, fun other => ?_, result⟩
      rw [completed_iff run]
      simp [State.outcome?, State.task?, found, here, came, eq_comm]

def Ending.results? : Ending → Option (List ToolResult)
  | .returned results => some results
  | .raised => none

def State.ending? (state : State Shared Local) (position : Nat) : Option Ending :=
  state.batches[position]?.bind Batch.ending

theorem Ending.results?_eq_some {ending : Ending} {results : List ToolResult}
    (returned : ending.results? = some results) : ending = .returned results := by
  cases ending with
  | returned others => rw [Option.some.inj returned]
  | raised => cases returned

theorem expire_enabled {position : Nat} {batch : Batch Local}
    (found : final.batches[position]? = some batch) (running : batch.ending = none) :
    ∃ next, executor.step final (.timeout position) = some next := by
  simp [Executor.step, State.revise, found, Batch.expire, running]

/-- Every batch that was given to the executor returns as it should, or raises for the sake
of a cancelled call, or can still return. -/
def AllReturn (executor : Executor Shared Local)
    (history : List (Transition (State Shared Local) Label)) (final : State Shared Local) : Prop :=
  ∀ (position : Nat) toolCalls batchTimeout,
    (dispatched history)[position]? = some (toolCalls, batchTimeout) →
    (∀ results, final.ending? position = some (.returned results) →
      Returned history position toolCalls batchTimeout results) ∧
    (final.ending? position = some .raised → Cancelled history position toolCalls) ∧
    (final.ending? position = none →
      ∃ next, executor.step final (.timeout position) = some next)

end Runs

/-- A tool that returns at once and one that never does. -/
def quickAndSlow : Executor Unit Bool where
  getTool name := .ok fun _ => decide (name = "quick_tool")
  advance _ quick := ((), if quick then .inr (.ok []) else .inl quick)
  maxConcurrency := 2
  workers := 3

def quickCall : ToolCall := ⟨"t1", "quick_tool", []⟩

def endlessCall : ToolCall := ⟨"t2", "slow_tool", []⟩

def cameBackEmpty : Option (Except Raised Dict) → Bool
  | some (.ok []) => true
  | _ => false

theorem cameBackEmpty_iff (outcome : Option (Except Raised Dict)) :
    cameBackEmpty outcome = true ↔ outcome = some (.ok []) := by
  fun_cases cameBackEmpty outcome <;> simp_all

def untilDeadline : List Label :=
  [.executeBatch [quickCall, endlessCall] "0.2", .move 0 0 .acquire, .move 0 1 .acquire,
    .move 0 0 .start, .move 0 1 .start, .move 0 0 .advance, .move 0 0 .resume]

end DurableAgent.Runtime.Batches
