import DurableAgent.Api.Runs
import DurableAgent.Library.Potential

/-!
# Tickets

What a client sees of a run, in any interleaving of the workers and of the requests for
cancellation: a ticket is never lost and shows what has become of its own run.
-/

set_option autoImplicit false

namespace DurableAgent.Api

open Library Python DurableAgent.Runtime OrderedDict

namespace RunService

variable (service : RunService)

@[simp] theorem ticket?_put_self (runId : String) (ticket : Ticket) :
    (service.put runId ticket).ticket? runId = some ticket := by
  simp [ticket?, put]

theorem ticket?_put_of_ne {runId other : String} (differs : other ≠ runId) (ticket : Ticket) :
    (service.put runId ticket).ticket? other = service.ticket? other := by
  simp [ticket?, put, get?_insert_of_ne _ differs]

@[simp] theorem ticket?_answer (request : Nat) (runId other : String) (point : CancelPoint) :
    (service.answer request runId point).ticket? other = service.ticket? other := rfl

end RunService

/-- Everything that a worker can do. -/
inductive Worked (runId : String) (ticket : Ticket) : WorkerMove → Ticket → Prop where
  | unstarted (built : Except Raised AgentRuntime) :
      ticket.task.point = .scheduled → ticket.task.cancelRequested = true →
      Worked runId ticket (.begin built) (ticket.move (.done .cancelled))
  | unbuilt (exception : Raised) :
      ticket.task.point = .scheduled → ticket.task.cancelRequested = false →
      Worked runId ticket (.begin (.error exception)) (ticket.move (.done (.raised exception)))
  | asleep (runtime : AgentRuntime) :
      ticket.task.point = .scheduled → ticket.task.cancelRequested = false →
      Worked runId ticket (.begin (.ok runtime)) (ticket.move (.sleeping runtime))
  | interrupted (runtime : AgentRuntime) :
      ticket.task.point = .sleeping runtime → ticket.task.cancelRequested = true →
      Worked runId ticket .wake ((ticket.assign .cancelled).move (.done .returned))
  | awake (runtime : AgentRuntime) :
      ticket.task.point = .sleeping runtime → ticket.task.cancelRequested = false →
      Worked runId ticket .wake (ticket.move (.running runtime))
  | answers (runtime : AgentRuntime) (innerId : String) (limit : Int) :
      ticket.task.point = .running runtime → ticket.task.maxSteps = some limit →
      Worked runId ticket (.persist innerId none)
        ((ticket.store { (configured runtime limit).run innerId ticket.task.userInput with
          runId := runId }).move .returning)
  | raises (runtime : AgentRuntime) (innerId : String) (activation : Option Raised) :
      ticket.task.point = .running runtime →
      (ticket.task.maxSteps = none ∨ ∃ exception, activation = some exception) →
      Worked runId ticket (.persist innerId activation) ((ticket.assign .failed).move .returning)
  | returns (outcome : TaskOutcome) :
      ticket.task.point = .returning →
      Worked runId ticket .finish (ticket.move (.done outcome))

theorem work_worked {runId : String} {ticket after : Ticket} {move : WorkerMove}
    (worked : ticket.work runId move = some after) : Worked runId ticket move after := by
  cases move with
  | begin built =>
      cases point : ticket.task.point with
      | scheduled =>
          simp only [Ticket.work, point] at worked
          split at worked
          · next requested =>
              cases worked
              exact .unstarted built point requested
          · next unrequested =>
              cases built with
              | error exception =>
                  cases worked
                  exact .unbuilt exception point (Bool.eq_false_iff.mpr unrequested)
              | ok runtime =>
                  cases worked
                  exact .asleep runtime point (Bool.eq_false_iff.mpr unrequested)
      | sleeping runtime => simp [Ticket.work, point] at worked
      | running runtime => simp [Ticket.work, point] at worked
      | returning => simp [Ticket.work, point] at worked
      | done outcome => simp [Ticket.work, point] at worked
  | wake =>
      cases point : ticket.task.point with
      | sleeping runtime =>
          simp only [Ticket.work, point] at worked
          split at worked
          · next requested =>
              cases worked
              exact .interrupted runtime point requested
          · next unrequested =>
              cases worked
              exact .awake runtime point (Bool.eq_false_iff.mpr unrequested)
      | scheduled => simp [Ticket.work, point] at worked
      | running runtime => simp [Ticket.work, point] at worked
      | returning => simp [Ticket.work, point] at worked
      | done outcome => simp [Ticket.work, point] at worked
  | persist innerId activation =>
      cases point : ticket.task.point with
      | running runtime =>
          simp only [Ticket.work, point] at worked
          cases activation with
          | some exception =>
              simp only [runOutcome] at worked
              cases worked
              exact .raises runtime innerId _ point (.inr ⟨exception, rfl⟩)
          | none =>
              cases limit : ticket.task.maxSteps with
              | none =>
                  simp only [runOutcome, limit] at worked
                  cases worked
                  exact .raises runtime innerId _ point (.inl limit)
              | some bound =>
                  simp only [runOutcome, limit] at worked
                  cases worked
                  exact .answers runtime innerId bound point limit
      | scheduled => simp [Ticket.work, point] at worked
      | sleeping runtime => simp [Ticket.work, point] at worked
      | returning => simp [Ticket.work, point] at worked
      | done outcome => simp [Ticket.work, point] at worked
  | finish =>
      cases point : ticket.task.point with
      | returning =>
          simp only [Ticket.work, point] at worked
          cases worked
          exact .returns _ point
      | scheduled => simp [Ticket.work, point] at worked
      | sleeping runtime => simp [Ticket.work, point] at worked
      | running runtime => simp [Ticket.work, point] at worked
      | done outcome => simp [Ticket.work, point] at worked

/-- Everything that a transition of the service can be. -/
inductive Stepped (service : RunService) : ApiAction → RunService → Prop where
  | created {runId userInput : String} {maxSteps : Option Int} :
      Stepped service (.createRun runId userInput maxSteps)
        (service.put runId (RunService.initialTicket runId userInput maxSteps))
  | worked {runId : String} {move : WorkerMove} {ticket after : Ticket} :
      (service.eventLoop = none ∨ service.eventLoop = some runId) →
      service.ticket? runId = some ticket → Worked runId ticket move after →
      Stepped service (.work runId move)
        { service.put runId after with eventLoop := if after.occupies then some runId else none }
  | asked {request : Nat} {runId : String} {point : CancelPoint} :
      service.requests.get? request = none → point ≠ .marking →
      (point = .cancelling → ∃ ticket, service.ticket? runId = some ticket) →
      Stepped service (.cancelActiveRun request runId) (service.answer request runId point)
  | cancelled {request : Nat} {runId : String} {ticket : Ticket} :
      service.requests.get? request = some ⟨runId, .cancelling⟩ →
      service.ticket? runId = some ticket →
      Stepped service (.cancelTask request)
        ((service.put runId (if ticket.finished then ticket else ticket.cancel)).answer request
          runId .marking)
  | marked {request : Nat} {runId : String} {ticket : Ticket} :
      service.requests.get? request = some ⟨runId, .marking⟩ →
      service.ticket? runId = some ticket →
      Stepped service (.markCancelled request)
        ((service.put runId (ticket.assign .cancelled)).answer request runId (.replied .emitted))

theorem cancelActiveRun_answers (service : RunService) (request : Nat) (runId : String) :
    ∃ point, service.cancelActiveRun request runId = service.answer request runId point ∧
      point ≠ .marking ∧
      (point = .cancelling → ∃ ticket, service.ticket? runId = some ticket) := by
  unfold RunService.cancelActiveRun
  cases service.runsDatabase.get? runId with
  | none => exact ⟨_, rfl, by decide, by simp⟩
  | some record =>
      dsimp only
      cases service.ticket? runId with
      | none => exact ⟨_, rfl, by decide, by simp⟩
      | some ticket =>
          refine ⟨_, rfl, ?_, fun _ => ⟨ticket, rfl⟩⟩
          cases ticket.finished <;> decide

theorem step_stepped {service next : RunService} {action : ApiAction}
    (stepped : service.step action = some next) : Stepped service action next := by
  cases action with
  | createRun runId userInput maxSteps =>
      simp only [RunService.step, Option.ite_none_right_eq_some] at stepped
      obtain ⟨_, same⟩ := stepped
      cases same
      exact .created
  | work runId move =>
      simp only [RunService.step, RunService.work, Option.ite_none_right_eq_some] at stepped
      obtain ⟨loop, worked⟩ := stepped
      cases held : service.ticket? runId with
      | none => simp [held] at worked
      | some ticket =>
          simp only [held] at worked
          obtain ⟨after, moved, rfl⟩ := Option.map_eq_some_iff.mp worked
          exact .worked (of_decide_eq_true loop) held (work_worked moved)
  | cancelActiveRun request runId =>
      simp only [RunService.step, Option.ite_none_left_eq_some] at stepped
      obtain ⟨fresh, same⟩ := stepped
      cases same
      obtain ⟨point, answers, unmarked, known⟩ := cancelActiveRun_answers service request runId
      rw [answers]
      exact .asked (get?_eq_none_iff.mpr fresh) unmarked known
  | cancelTask request =>
      simp only [RunService.step] at stepped
      cases held : service.requests.get? request with
      | none => simp [held] at stepped
      | some cancelling =>
          obtain ⟨runId, point⟩ := cancelling
          cases point with
          | cancelling =>
              simp only [held, RunService.cancelTask] at stepped
              obtain ⟨ticket, known, rfl⟩ := Option.map_eq_some_iff.mp stepped
              exact .cancelled held known
          | marking => simp [held] at stepped
          | replied reply => simp [held] at stepped
  | markCancelled request =>
      simp only [RunService.step] at stepped
      cases held : service.requests.get? request with
      | none => simp [held] at stepped
      | some marking =>
          obtain ⟨runId, point⟩ := marking
          cases point with
          | marking =>
              simp only [held, RunService.markCancelled] at stepped
              obtain ⟨ticket, known, rfl⟩ := Option.map_eq_some_iff.mp stepped
              exact .marked held known
          | cancelling => simp [held] at stepped
          | replied reply => simp [held] at stepped

/-- What a transition does to a ticket. -/
inductive Happens (service : RunService) (runId : String) (ticket : Ticket) :
    ApiAction → Ticket → Prop where
  | rests {action : ApiAction} :
      (∀ request, action = .markCancelled request →
        service.requests.get? request ≠ some ⟨runId, .marking⟩) →
      Happens service runId ticket action ticket
  | works {move : WorkerMove} {after : Ticket} :
      Worked runId ticket move after → Happens service runId ticket (.work runId move) after
  | cancels {request : Nat} :
      service.requests.get? request = some ⟨runId, .cancelling⟩ →
      Happens service runId ticket (.cancelTask request)
        (if ticket.finished then ticket else ticket.cancel)
  | marks {request : Nat} :
      service.requests.get? request = some ⟨runId, .marking⟩ →
      Happens service runId ticket (.markCancelled request) (ticket.assign .cancelled)

theorem Stepped.happens {service next : RunService} {action : ApiAction} {runId : String}
    {ticket : Ticket} (stepped : Stepped service action next)
    (fresh : FreshTicket ⟨service, action, next⟩) (held : service.ticket? runId = some ticket) :
    ∃ after, next.ticket? runId = some after ∧ Happens service runId ticket action after := by
  cases stepped with
  | @created created userInput maxSteps =>
      have unknown : service.runsDatabase.get? created = none := fresh created userInput maxSteps rfl
      have differs : runId ≠ created := by
        rintro rfl
        simp [RunService.ticket?, unknown] at held
      exact ⟨ticket, (service.ticket?_put_of_ne differs _).trans held, .rests (by simp)⟩
  | @worked worked move other after _ known moved =>
      by_cases same : runId = worked
      · subst same
        rw [known, Option.some.injEq] at held
        subst held
        exact ⟨after, service.ticket?_put_self runId after, .works moved⟩
      · exact ⟨ticket, (service.ticket?_put_of_ne same _).trans held, .rests (by simp)⟩
  | asked absent unmarked known => exact ⟨ticket, held, .rests (by simp)⟩
  | @cancelled request cancelled other serving known =>
      by_cases same : runId = cancelled
      · subst same
        rw [known, Option.some.injEq] at held
        subst held
        exact ⟨_, service.ticket?_put_self runId _, .cancels serving⟩
      · exact ⟨ticket, (service.ticket?_put_of_ne same _).trans held, .rests (by simp)⟩
  | @marked request marked other serving known =>
      by_cases same : runId = marked
      · subst same
        rw [known, Option.some.injEq] at held
        subst held
        exact ⟨_, service.ticket?_put_self runId _, .marks serving⟩
      · refine ⟨ticket, (service.ticket?_put_of_ne same _).trans held, .rests ?_⟩
        rintro _ ⟨⟩ marking
        rw [serving, Option.some.injEq] at marking
        exact same (congrArg CancelRequest.runId marking).symm

/-- Only the request that is marked next stops being one that marks. -/
theorem Stepped.marking {service next : RunService} {action : ApiAction} {request : Nat}
    {runId : String} (stepped : Stepped service action next)
    (held : service.requests.get? request = some ⟨runId, .marking⟩) :
    action = .markCancelled request ∨
      next.requests.get? request = some ⟨runId, .marking⟩ := by
  cases stepped with
  | created => exact .inr held
  | worked _ _ _ => exact .inr held
  | @asked other asked point absent _ _ =>
      have differs : request ≠ other := by
        rintro rfl
        rw [held] at absent
        cases absent
      exact .inr ((get?_insert_of_ne _ differs _).trans held)
  | @cancelled other cancelled ticket serving _ =>
      have differs : request ≠ other := by
        rintro rfl
        rw [held] at serving
        cases serving
      exact .inr ((get?_insert_of_ne _ differs _).trans held)
  | @marked other marked ticket serving _ =>
      by_cases same : request = other
      · exact .inl (congrArg ApiAction.markCancelled same.symm)
      · exact .inr ((get?_insert_of_ne _ same _).trans held)

/-- A request that marks has been let through to the task before. -/
theorem Stepped.marking_from {service next : RunService} {action : ApiAction} {request : Nat}
    {runId : String} (stepped : Stepped service action next)
    (held : next.requests.get? request = some ⟨runId, .marking⟩) :
    service.requests.get? request = some ⟨runId, .marking⟩ ∨
      action = .cancelTask request ∧
        service.requests.get? request = some ⟨runId, .cancelling⟩ := by
  cases stepped with
  | created => exact .inl held
  | worked _ _ _ => exact .inl held
  | @asked other asked point _ unmarked _ =>
      have inserted : (service.requests.insert other ⟨asked, point⟩).get? request =
          some ⟨runId, .marking⟩ := held
      rw [get?_insert] at inserted
      split at inserted
      · cases inserted
        exact absurd rfl unmarked
      · exact .inl inserted
  | @cancelled other cancelled ticket serving _ =>
      have inserted : (service.requests.insert other ⟨cancelled, .marking⟩).get? request =
          some ⟨runId, .marking⟩ := held
      rw [get?_insert] at inserted
      split at inserted
      · next same =>
          cases inserted
          subst same
          exact .inr ⟨rfl, serving⟩
      · exact .inl inserted
  | @marked other marked ticket _ _ =>
      have inserted : (service.requests.insert other ⟨marked, .replied .emitted⟩).get? request =
          some ⟨runId, .marking⟩ := held
      rw [get?_insert] at inserted
      split at inserted
      · cases inserted
      · exact .inl inserted

/-! ## The course of a run -/

/-- A request for the cancellation of this run has been let through to its task. -/
def Accepted (history : List ApiTransition) (runId : String) : Prop :=
  ∃ transition ∈ history, ∃ request, transition.label = .cancelTask request ∧
    transition.source.requests.get? request = some ⟨runId, .cancelling⟩

namespace Ticket

/-- The run has been made; only the status can still change. -/
def past (ticket : Ticket) : Bool :=
  match ticket.task.point with
  | .returning | .done _ => true
  | _ => false

/-- A cancellation that has come through marks the ticket sooner or later. -/
def Awaited (service : RunService) (runId : String) (ticket : Ticket) : Prop :=
  ticket.task.cancelRequested = true → ticket.record.status = .cancelled ∨
    ∃ request, service.requests.get? request = some ⟨runId, .marking⟩

end Ticket

/-- The runtime has not been run. -/
structure Ahead (service : RunService) (runId : String) (maxSteps : Option Int)
    (ticket : Ticket) : Prop where
  maxSteps : ticket.task.maxSteps = maxSteps
  state : ticket.record.state = { runId := runId, messages := [] }
  status : ticket.record.status = .running ∨ ticket.record.status = .cancelled
  point : ticket.task.point ≠ .returning
  awaited : ticket.Awaited service runId
  ended : ∀ outcome, ticket.task.point = .done outcome →
    (∃ exception, outcome = .raised exception) ∨ ticket.task.cancelRequested = true ∨
      ticket.record.status = .cancelled

/-- How far a run has come, and what its record holds. -/
inductive Course (service : RunService) (runId : String) (maxSteps : Option Int)
    (ticket : Ticket) : Prop where
  | ahead : Ahead service runId maxSteps ticket → Course service runId maxSteps ticket
  | answered (limit : Int) (built : AgentRuntime) (innerId userInput : String) :
      maxSteps = some limit →
      ticket.record.state =
        { (configured built limit).run innerId userInput with runId := runId } →
      ticket.record.status = served ticket.record.state.status ∨
        ticket.record.status = .cancelled →
      ticket.past = true → Course service runId maxSteps ticket
  | broken :
      ticket.record.state = { runId := runId, messages := [] } →
      ticket.record.status = .failed ∨ ticket.record.status = .cancelled →
      ticket.past = true → Course service runId maxSteps ticket

section Course

variable {service next : RunService} {action : ApiAction} {runId : String}
  {maxSteps : Option Int} {ticket after : Ticket}

theorem initial_ahead (service : RunService) (runId userInput : String) (maxSteps : Option Int) :
    Ahead service runId maxSteps (RunService.initialTicket runId userInput maxSteps) where
  maxSteps := rfl
  state := rfl
  status := .inl rfl
  point := nofun
  awaited := nofun
  ended := nofun

/-- Other requests go on marking. -/
theorem Ticket.Awaited.stepped (awaited : ticket.Awaited service runId)
    (stepped : Stepped service action next)
    (unmarked : ∀ request, action = .markCancelled request →
      service.requests.get? request ≠ some ⟨runId, .marking⟩) :
    ticket.Awaited next runId := by
  intro requested
  rcases awaited requested with marked | ⟨request, marking⟩
  · exact .inl marked
  · rcases stepped.marking marking with marks | stays
    · exact absurd marking (unmarked request marks)
    · exact .inr ⟨request, stays⟩

theorem Ahead.worked {move : WorkerMove} (ahead : Ahead service runId maxSteps ticket)
    (worked : Worked runId ticket move after)
    (requests : next.requests = service.requests) : Course next runId maxSteps after := by
  have still : ticket.Awaited next runId := fun requested =>
    (ahead.awaited requested).imp_right fun ⟨request, marking⟩ =>
      ⟨request, by rw [requests]; exact marking⟩
  cases worked with
  | unstarted built scheduled requested =>
      exact .ahead ⟨ahead.maxSteps, ahead.state, ahead.status, nofun, still,
        fun _ _ => .inr (.inl requested)⟩
  | unbuilt exception scheduled unrequested =>
      refine .ahead ⟨ahead.maxSteps, ahead.state, ahead.status, nofun, still, ?_⟩
      rintro outcome ⟨⟩
      exact .inl ⟨exception, rfl⟩
  | asleep runtime scheduled unrequested =>
      exact .ahead ⟨ahead.maxSteps, ahead.state, ahead.status, nofun, still, nofun⟩
  | interrupted runtime sleeping requested =>
      exact .ahead ⟨ahead.maxSteps, ahead.state, .inr rfl, nofun, fun _ => .inl rfl,
        fun _ _ => .inr (.inr rfl)⟩
  | awake runtime sleeping unrequested =>
      exact .ahead ⟨ahead.maxSteps, ahead.state, ahead.status, nofun, still, nofun⟩
  | answers runtime innerId limit running bound =>
      exact .answered limit runtime innerId ticket.task.userInput (ahead.maxSteps ▸ bound) rfl
        (.inl rfl) rfl
  | raises runtime innerId activation running raised =>
      exact .broken ahead.state (.inl rfl) rfl
  | returns outcome returning => exact absurd returning ahead.point

/-- Behind the run the worker only returns. -/
theorem Worked.past {move : WorkerMove} (worked : Worked runId ticket move after)
    (past : ticket.past = true) : after.record = ticket.record ∧ after.past = true := by
  cases worked with
  | returns outcome returning => exact ⟨rfl, rfl⟩
  | unstarted built scheduled _ => simp [Ticket.past, scheduled] at past
  | unbuilt exception scheduled _ => simp [Ticket.past, scheduled] at past
  | asleep runtime scheduled _ => simp [Ticket.past, scheduled] at past
  | interrupted runtime sleeping _ => simp [Ticket.past, sleeping] at past
  | awake runtime sleeping _ => simp [Ticket.past, sleeping] at past
  | answers runtime innerId limit running _ => simp [Ticket.past, running] at past
  | raises runtime innerId activation running _ => simp [Ticket.past, running] at past

theorem Happens.past (happens : Happens service runId ticket action after)
    (past : ticket.past = true) :
    after.past = true ∧ after.record.state = ticket.record.state ∧
      (after.record.status = ticket.record.status ∨ after.record.status = .cancelled) := by
  cases happens with
  | rests _ => exact ⟨past, rfl, .inl rfl⟩
  | works worked =>
      obtain ⟨record, later⟩ := worked.past past
      exact ⟨later, congrArg RunRecord.state record, .inl (congrArg RunRecord.status record)⟩
  | cancels serving =>
      by_cases done : ticket.finished = true
      · rw [if_pos done]
        exact ⟨past, rfl, .inl rfl⟩
      · rw [if_neg done]
        exact ⟨past, rfl, .inl rfl⟩
  | marks serving => exact ⟨past, rfl, .inr rfl⟩

theorem Course.kept (course : Course service runId maxSteps ticket)
    (stepped : Stepped service action next)
    (happens : Happens service runId ticket action after) : Course next runId maxSteps after := by
  cases course with
  | ahead ahead =>
      cases happens with
      | rests unmarked =>
          exact .ahead { ahead with awaited := ahead.awaited.stepped stepped unmarked }
      | works worked =>
          cases stepped with
          | worked _ _ _ => exact ahead.worked worked rfl
      | @cancels request serving =>
          have marking : next.requests.get? request = some ⟨runId, .marking⟩ := by
            cases stepped with
            | @cancelled _ cancelled _ held _ =>
                rw [serving, Option.some.injEq] at held
                cases held
                exact get?_insert_self _ _ _
          by_cases done : ticket.finished = true
          · rw [if_pos done]
            exact .ahead { ahead with awaited := fun _ => .inr ⟨request, marking⟩ }
          · rw [if_neg done]
            exact .ahead ⟨ahead.maxSteps, ahead.state, ahead.status, ahead.point,
              fun _ => .inr ⟨request, marking⟩, fun _ _ => .inr (.inl rfl)⟩
      | marks serving =>
          exact .ahead ⟨ahead.maxSteps, ahead.state, .inr rfl, ahead.point, fun _ => .inl rfl,
            fun _ _ => .inr (.inr rfl)⟩
  | answered limit built innerId userInput given state status past =>
      obtain ⟨later, same, shown⟩ := happens.past past
      refine .answered limit built innerId userInput given (same.trans state) ?_ later
      rcases shown with unchanged | cancelled
      · rw [unchanged, same]
        exact status
      · exact .inr cancelled
  | broken state status past =>
      obtain ⟨later, same, shown⟩ := happens.past past
      refine .broken (same.trans state) ?_ later
      rcases shown with unchanged | cancelled
      · rw [unchanged]
        exact status
      · exact .inr cancelled

end Course

section Runs

variable {history : List ApiTransition} {final : RunService}

/-- The rule for tickets: what a new ticket has and no transition takes from it, every ticket
has that has been issued. -/
theorem run_ticket {runId : String} {maxSteps : Option Int}
    (holds : List ApiTransition → RunService → Ticket → Prop)
    (born : ∀ history service userInput,
      holds history service (RunService.initialTicket runId userInput maxSteps))
    (kept : ∀ history service action next ticket after, Run RunService.step {} history service →
      holds history service ticket → Stepped service action next →
      Happens service runId ticket action after →
      holds (history ++ [⟨service, action, next⟩]) next after)
    (run : Run RunService.step {} history final)
    (fresh : ∀ transition ∈ history, FreshTicket transition)
    (issued : ∃ transition ∈ history, ∃ userInput,
      transition.label = .createRun runId userInput maxSteps) :
    ∃ ticket, final.ticket? runId = some ticket ∧ holds history final ticket := by
  induction run with
  | nil =>
      obtain ⟨_, member, _⟩ := issued
      cases member
  | @snoc history service action next previous taken ih =>
      have stepped := step_stepped taken
      obtain ⟨transition, member, userInput, label⟩ := issued
      rcases List.mem_append.mp member with earlier | last
      · obtain ⟨ticket, held, holding⟩ := ih
          (fun transition member => fresh transition (List.mem_append_left _ member))
          ⟨transition, earlier, userInput, label⟩
        obtain ⟨after, holdsNext, happens⟩ := stepped.happens (fresh _ (by simp)) held
        exact ⟨after, holdsNext, kept _ _ _ _ _ _ previous holding stepped happens⟩
      · rw [List.mem_singleton.mp last] at label
        have created : action = .createRun runId userInput maxSteps := label
        subst created
        cases stepped with
        | created => exact ⟨_, service.ticket?_put_self runId _, born _ _ userInput⟩

theorem ticket_course {runId : String} {maxSteps : Option Int}
    (run : Run RunService.step {} history final)
    (fresh : ∀ transition ∈ history, FreshTicket transition)
    (issued : ∃ transition ∈ history, ∃ userInput,
      transition.label = .createRun runId userInput maxSteps) :
    ∃ ticket, final.ticket? runId = some ticket ∧ Course final runId maxSteps ticket :=
  run_ticket (fun _ service ticket => Course service runId maxSteps ticket)
    (fun _ service userInput => .ahead (initial_ahead service runId userInput maxSteps))
    (fun _ _ _ _ _ _ _ course stepped happens => course.kept stepped happens) run fresh issued

/-- A request that marks has been accepted before. -/
theorem marking_accepted (run : Run RunService.step {} history final) {request : Nat}
    {runId : String} (marking : final.requests.get? request = some ⟨runId, .marking⟩) :
    Accepted history runId := by
  induction run with
  | nil => cases marking
  | @snoc history service action next previous taken ih =>
      rcases (step_stepped taken).marking_from marking with earlier | ⟨label, serving⟩
      · obtain ⟨transition, member, accepted⟩ := ih earlier
        exact ⟨transition, List.mem_append_left _ member, accepted⟩
      · exact ⟨⟨service, action, next⟩, by simp, request, label, serving⟩

/-- The activation of a skill has raised in this run, or its limit is not a number. -/
def Fails (history : List ApiTransition) (runId : String) (maxSteps : Option Int) : Prop :=
  maxSteps = none ∨ ∃ transition ∈ history, ∃ innerId exception,
    transition.label = .work runId (.persist innerId (some exception))

/-- A status that no run comes to by itself has its reason in the past. -/
structure Explained (history : List ApiTransition) (runId : String) (maxSteps : Option Int)
    (ticket : Ticket) : Prop where
  limit : ticket.task.maxSteps = maxSteps
  requested : ticket.task.cancelRequested = true → Accepted history runId
  cancelled : ticket.record.status = .cancelled → Accepted history runId
  failed : ticket.record.status = .failed → Fails history runId maxSteps

theorem Accepted.later {runId : String} (accepted : Accepted history runId)
    (transition : ApiTransition) : Accepted (history ++ [transition]) runId := by
  obtain ⟨earlier, member, request⟩ := accepted
  exact ⟨earlier, List.mem_append_left _ member, request⟩

theorem Fails.later {runId : String} {maxSteps : Option Int}
    (fails : Fails history runId maxSteps) (transition : ApiTransition) : Fails (history ++ [transition]) runId maxSteps := by
  rcases fails with unlimited | ⟨earlier, member, raised⟩
  · exact .inl unlimited
  · exact .inr ⟨earlier, List.mem_append_left _ member, raised⟩

theorem served_ne (status : RunStatus) (completed : status = .completed ∨
    status = .maxStepsExceeded) : served status ≠ .cancelled ∧ served status ≠ .failed ∧
      served status ≠ .running := by
  rcases completed with rfl | rfl
  · decide
  · decide

theorem Explained.worked {runId : String} {maxSteps : Option Int} {ticket after : Ticket}
    {move : WorkerMove} {service next : RunService}
    (explained : Explained history runId maxSteps ticket)
    (worked : Worked runId ticket move after) :
    Explained (history ++ [⟨service, .work runId move, next⟩]) runId maxSteps after := by
  have requested := fun asked => (explained.requested asked).later ⟨service, .work runId move, next⟩
  have moved : ∀ point, Explained (history ++ [⟨service, .work runId move, next⟩]) runId maxSteps
      (ticket.move point) := fun point =>
    ⟨explained.limit, requested, fun shown => (explained.cancelled shown).later _,
      fun shown => (explained.failed shown).later _⟩
  cases worked with
  | unstarted built scheduled asked => exact moved _
  | unbuilt exception scheduled unrequested => exact moved _
  | asleep runtime scheduled unrequested => exact moved _
  | interrupted runtime sleeping asked =>
      exact ⟨explained.limit, requested, fun _ => requested asked, nofun⟩
  | awake runtime sleeping unrequested => exact moved _
  | answers runtime innerId limit running bound =>
      have ends := served_ne _ ((configured_run runtime limit innerId ticket.task.userInput).imp
        (fun ⟨_, completed, _⟩ => completed) fun ⟨_, exceeded, _⟩ => exceeded)
      exact ⟨explained.limit, requested, fun shown => absurd shown ends.1,
        fun shown => absurd shown ends.2.1⟩
  | raises runtime innerId activation running raised =>
      refine ⟨explained.limit, requested, nofun, fun _ => ?_⟩
      rcases raised with unlimited | ⟨exception, rfl⟩
      · exact .inl (explained.limit ▸ unlimited)
      · exact .inr ⟨_, List.mem_append_right _ List.mem_cons_self, innerId, exception, rfl⟩
  | returns outcome returning => exact moved _

theorem ticket_explained {runId : String} {maxSteps : Option Int}
    (run : Run RunService.step {} history final)
    (fresh : ∀ transition ∈ history, FreshTicket transition)
    (issued : ∃ transition ∈ history, ∃ userInput,
      transition.label = .createRun runId userInput maxSteps) :
    ∃ ticket, final.ticket? runId = some ticket ∧ Explained history runId maxSteps ticket := by
  refine run_ticket (fun history _ ticket => Explained history runId maxSteps ticket)
    (fun _ _ _ => ⟨rfl, nofun, nofun, nofun⟩) ?_ run fresh issued
  intro history service action next ticket after earlier explained stepped happens
  have kept : Explained (history ++ [⟨service, action, next⟩]) runId maxSteps ticket :=
    ⟨explained.limit, fun asked => (explained.requested asked).later _,
      fun shown => (explained.cancelled shown).later _,
      fun shown => (explained.failed shown).later _⟩
  cases happens with
  | rests _ => exact kept
  | works worked => exact explained.worked worked
  | @cancels request serving =>
      have accepted : Accepted (history ++ [⟨service, .cancelTask request, next⟩]) runId :=
        ⟨_, List.mem_append_right _ List.mem_cons_self, request, rfl, serving⟩
      by_cases done : ticket.finished = true
      · rw [if_pos done]
        exact kept
      · rw [if_neg done]
        exact { kept with requested := fun _ => accepted }
  | marks serving =>
      exact ⟨kept.limit, kept.requested, fun _ => (marking_accepted earlier serving).later _, nofun⟩

end Runs

/-! ## What clients see -/

/-- All that the status of a run can tell. -/
inductive Tells (history : List ApiTransition) (runId : String) (maxSteps : Option Int) :
    RunSummaryResponse → Prop where
  | running : Tells history runId maxSteps ⟨runId, .running, 0, none⟩
  | completed (limit : Int) :
      maxSteps = some limit → 1 ≤ limit →
      Tells history runId maxSteps ⟨runId, .completed, 1, gatewayResponse.content⟩
  | exceeded (limit : Int) :
      maxSteps = some limit → limit ≤ 0 →
      Tells history runId maxSteps ⟨runId, .maxStepsExceeded, 0, none⟩
  | failed :
      Fails history runId maxSteps → Tells history runId maxSteps ⟨runId, .failed, 0, none⟩
  | cancelled :
      Accepted history runId → Tells history runId maxSteps ⟨runId, .cancelled, 0, none⟩
  | cancelledLate (limit : Int) :
      Accepted history runId → maxSteps = some limit → 1 ≤ limit →
      Tells history runId maxSteps ⟨runId, .cancelled, 1, gatewayResponse.content⟩

theorem getRunStatus_ticket {service : RunService} {runId : String} {ticket : Ticket}
    (held : service.ticket? runId = some ticket) :
    service.getRunStatus runId = .ok ⟨ticket.record.state.runId, ticket.record.status,
      ticket.record.state.stepCount, ticket.record.state.finalAnswer⟩ := by
  unfold RunService.ticket? at held
  unfold RunService.getRunStatus
  cases record : service.runsDatabase.get? runId with
  | none => simp [record] at held
  | some stored =>
      cases task : service.activeTasks.get? runId with
      | none => simp [record, task] at held
      | some active =>
          simp only [record, task, Option.some.injEq] at held
          subst held
          rfl

theorem Course.tells {history : List ApiTransition} {service : RunService} {runId : String}
    {maxSteps : Option Int} {ticket : Ticket} (course : Course service runId maxSteps ticket)
    (explained : Explained history runId maxSteps ticket) :
    Tells history runId maxSteps ⟨ticket.record.state.runId, ticket.record.status,
      ticket.record.state.stepCount, ticket.record.state.finalAnswer⟩ := by
  cases course with
  | ahead ahead =>
      rw [ahead.state]
      rcases ahead.status with running | cancelled
      · rw [running]
        exact .running
      · rw [cancelled]
        exact .cancelled (explained.cancelled cancelled)
  | answered limit built innerId userInput given state status _ =>
      rw [state] at status ⊢
      rcases configured_run built limit innerId userInput with
        ⟨some, completed, counted, final⟩ | ⟨none, exceeded, counted, final⟩
      · rw [completed] at status
        rcases status with shown | cancelled
        · rw [shown, counted, final]
          exact .completed limit given some
        · rw [cancelled, counted, final]
          exact .cancelledLate limit (explained.cancelled cancelled) given some
      · rw [exceeded] at status
        rcases status with shown | cancelled
        · rw [shown, counted, final]
          exact .exceeded limit given none
        · rw [cancelled, counted, final]
          exact .cancelled (explained.cancelled cancelled)
  | broken state status _ =>
      rw [state]
      rcases status with failed | cancelled
      · rw [failed]
        exact .failed (explained.failed failed)
      · rw [cancelled]
        exact .cancelled (explained.cancelled cancelled)

/-- A ticket that has been issued is answered ever after, by what became of its own run. -/
theorem issued_ticket_tells {history : List ApiTransition} {final : RunService} {runId : String}
    {maxSteps : Option Int} (run : Run RunService.step {} history final)
    (fresh : ∀ transition ∈ history, FreshTicket transition)
    (issued : ∃ transition ∈ history, ∃ userInput,
      transition.label = .createRun runId userInput maxSteps) :
    ∃ summary, final.getRunStatus runId = .ok summary ∧ Tells history runId maxSteps summary := by
  obtain ⟨ticket, held, course⟩ := ticket_course run fresh issued
  obtain ⟨same, heldToo, explained⟩ := ticket_explained run fresh issued
  rw [held, Option.some.injEq] at heldToo
  subst heldToo
  exact ⟨_, getRunStatus_ticket held, course.tells explained⟩

/-- What the labels do to a new service, one after the other. -/
def traceOf (labels : List ApiAction) : List ApiTransition × RunService :=
  (execute RunService.step {} labels).getD ([], {})

def createsFresh (transition : ApiTransition) : Bool :=
  match transition.label with
  | .createRun runId _ _ => (transition.source.runsDatabase.get? runId).isNone
  | _ => true

theorem traceOf_run {labels : List ApiAction}
    (enabled : (execute RunService.step {} labels).isSome = true) :
    Run RunService.step {} (traceOf labels).1 (traceOf labels).2 := by
  obtain ⟨outcome, executed⟩ := Option.isSome_iff_exists.mp enabled
  rw [traceOf, executed]
  exact execute_run executed

theorem traceOf_fresh {labels : List ApiAction}
    (all : (traceOf labels).1.all createsFresh = true) :
    ∀ transition ∈ (traceOf labels).1, FreshTicket transition := by
  intro transition member runId userInput maxSteps label
  have fresh := List.all_eq_true.mp all transition member
  simpa [createsFresh, label] using fresh

/-- The task is cancelled while it runs, and marked when it has answered. -/
def lateCancellation : List ApiAction :=
  [.createRun "r1" "hello" (some 5), .work "r1" (.begin (.ok (scripted ⟨.empty⟩ []))),
    .cancelActiveRun 0 "r1", .work "r1" .wake, .cancelTask 0, .work "r1" (.persist "inner" none),
    .markCancelled 0]

theorem issued_ticket_tells_late :
    Tells (traceOf lateCancellation).1 "r1" (some 5)
      ⟨"r1", .cancelled, 1, gatewayResponse.content⟩ := by
  have enabled : (execute RunService.step {} lateCancellation).isSome = true := by decide +kernel
  have fresh : (traceOf lateCancellation).1.all createsFresh = true := by decide +kernel
  have issued : ∃ transition ∈ (traceOf lateCancellation).1, ∃ userInput,
      transition.label = .createRun "r1" userInput (some 5) :=
    ⟨_, List.mem_cons_self, "hello", rfl⟩
  obtain ⟨summary, answered, tells⟩ :=
    issued_ticket_tells (traceOf_run enabled) (traceOf_fresh fresh) issued
  have shown : (traceOf lateCancellation).2.getRunStatus "r1" =
      .ok ⟨"r1", .cancelled, 1, gatewayResponse.content⟩ := rfl
  rw [shown, Except.ok.injEq] at answered
  exact answered ▸ tells

/-! ## Cancellation in time -/

/-- The run is going to be cancelled or has been, without having been made. -/
structure Doomed (runId : String) (ticket : Ticket) : Prop where
  requested : ticket.task.cancelRequested = true
  state : ticket.record.state = { runId := runId, messages := [] }
  early : ticket.occupies = false

/-- Whoever asked for it has marked the run, or is about to. -/
def Marked (service : RunService) (runId : String) (request : Nat) (ticket : Ticket) : Prop :=
  ticket.record.status = .cancelled ∨
    ticket.record.status = .running ∧
      service.requests.get? request = some ⟨runId, .marking⟩

theorem Doomed.happens {service : RunService} {runId : String} {ticket after : Ticket}
    {action : ApiAction} (doomed : Doomed runId ticket)
    (happens : Happens service runId ticket action after) :
    Doomed runId after ∧
      (after.record.status = ticket.record.status ∨ after.record.status = .cancelled) := by
  have requested := doomed.requested
  have early := doomed.early
  cases happens with
  | rests _ => exact ⟨doomed, .inl rfl⟩
  | works worked =>
      cases worked with
      | unstarted built scheduled _ => exact ⟨⟨requested, doomed.state, rfl⟩, .inl rfl⟩
      | interrupted runtime sleeping _ => exact ⟨⟨requested, doomed.state, rfl⟩, .inr rfl⟩
      | unbuilt exception scheduled unrequested =>
          rw [requested] at unrequested
          cases unrequested
      | asleep runtime scheduled unrequested =>
          rw [requested] at unrequested
          cases unrequested
      | awake runtime sleeping unrequested =>
          rw [requested] at unrequested
          cases unrequested
      | answers runtime innerId limit running _ => simp [Ticket.occupies, running] at early
      | raises runtime innerId activation running _ => simp [Ticket.occupies, running] at early
      | returns outcome returning => simp [Ticket.occupies, returning] at early
  | cancels serving =>
      by_cases done : ticket.finished = true
      · rw [if_pos done]
        exact ⟨doomed, .inl rfl⟩
      · rw [if_neg done]
        exact ⟨⟨rfl, doomed.state, early⟩, .inl rfl⟩
  | marks serving => exact ⟨⟨requested, doomed.state, early⟩, .inr rfl⟩

theorem Marked.stepped {service next : RunService} {runId : String} {request : Nat}
    {ticket after : Ticket} {action : ApiAction} (marked : Marked service runId request ticket)
    (stepped : Stepped service action next) (happens : Happens service runId ticket action after)
    (shown : after.record.status = ticket.record.status ∨ after.record.status = .cancelled) :
    Marked next runId request after := by
  rcases shown with same | cancelled
  · rcases marked with already | ⟨running, marking⟩
    · exact .inl (same.trans already)
    · rcases stepped.marking marking with marks | stays
      · subst marks
        cases happens with
        | rests unmarked => exact absurd marking (unmarked request rfl)
        | marks _ => exact .inl rfl
      · exact .inr ⟨same.trans running, stays⟩
  · exact .inl cancelled

/-- Between its creation and its run a ticket can be cancelled for certain: whatever happens
then, the runtime is not run for it, and once the request is answered it shows this. -/
structure CancelledInTime (after : List ApiTransition) (final : RunService) (runId : String)
    (request : Nat) : Prop where
  unmade : ∀ transition ∈ after, ∀ innerId activation,
    transition.label ≠ .work runId (.persist innerId activation)
  shown : final.getRunStatus runId = .ok ⟨runId, .cancelled, 0, none⟩ ∨
    final.getRunStatus runId = .ok ⟨runId, .running, 0, none⟩ ∧
      final.requests.get? request = some ⟨runId, .marking⟩

theorem doomed_run {start final : RunService} {later : List ApiTransition} {runId : String}
    {request : Nat} (run : Run RunService.step start later final)
    (fresh : ∀ transition ∈ later, FreshTicket transition)
    (base : ∃ ticket, start.ticket? runId = some ticket ∧ Doomed runId ticket ∧
      Marked start runId request ticket) :
    ∃ ticket, final.ticket? runId = some ticket ∧ Doomed runId ticket ∧
      Marked final runId request ticket := by
  refine run.preserves FreshTicket (fun service => ∃ ticket, service.ticket? runId = some ticket ∧
    Doomed runId ticket ∧ Marked service runId request ticket) base ?_ fresh
  rintro service action next ⟨ticket, held, doomed, marked⟩ taken permitted
  have stepped := step_stepped taken
  obtain ⟨after, heldNext, happens⟩ := stepped.happens permitted held
  obtain ⟨still, shown⟩ := doomed.happens happens
  exact ⟨after, heldNext, still, marked.stepped stepped happens shown⟩

theorem cancelled_in_time {before after : List ApiTransition} {moment : ApiTransition}
    {final : RunService} {runId : String} {maxSteps : Option Int} {request : Nat}
    {ticket : Ticket} (run : Run RunService.step {} (before ++ moment :: after) final)
    (fresh : ∀ transition ∈ before ++ moment :: after, FreshTicket transition)
    (issued : ∃ transition ∈ before, ∃ userInput,
      transition.label = .createRun runId userInput maxSteps)
    (serving : moment.source.requests.get? request = some ⟨runId, .cancelling⟩)
    (cancels : moment.label = .cancelTask request)
    (held : moment.source.ticket? runId = some ticket)
    (early : ticket.occupies = false) (unfinished : ticket.finished = false) :
    CancelledInTime after final runId request := by
  obtain ⟨earlier, taken, rest⟩ := run.around
  have beforeFresh : ∀ transition ∈ before, FreshTicket transition := fun transition member =>
    fresh transition (List.mem_append_left _ member)
  have afterFresh : ∀ transition ∈ after, FreshTicket transition := fun transition member =>
    fresh transition (List.mem_append_right _ (List.mem_cons_of_mem _ member))
  obtain ⟨source, action, target⟩ := moment
  dsimp only at serving cancels held taken rest earlier
  subst cancels
  obtain ⟨known, heldToo, course⟩ := ticket_course earlier beforeFresh issued
  rw [held, Option.some.injEq] at heldToo
  subst heldToo
  have base : ∃ ticket, target.ticket? runId = some ticket ∧ Doomed runId ticket ∧
      Marked target runId request ticket := by
    cases step_stepped taken with
    | @cancelled _ cancelled other heldRequest heldTicket =>
        rw [serving, Option.some.injEq] at heldRequest
        cases heldRequest
        rw [held, Option.some.injEq] at heldTicket
        subst heldTicket
        refine ⟨ticket.cancel, ?_, ?_⟩
        · rw [RunService.ticket?_answer, RunService.ticket?_put_self, unfinished]
          rfl
        · have marking : ((source.put runId (if ticket.finished then ticket
              else ticket.cancel)).answer request runId .marking).requests.get? request =
              some ⟨runId, .marking⟩ := get?_insert_self _ _ _
          have passed : ticket.past = false := by
            cases point : ticket.task.point with
            | returning => simp [Ticket.occupies, point] at early
            | done outcome => simp [Ticket.finished, point] at unfinished
            | scheduled => simp [Ticket.past, point]
            | sleeping runtime => simp [Ticket.past, point]
            | running runtime => simp [Ticket.past, point]
          cases course with
          | ahead ahead =>
              exact ⟨⟨rfl, ahead.state, early⟩,
                ahead.status.symm.imp_right fun running => ⟨running, marking⟩⟩
          | answered _ _ _ _ _ _ _ past =>
              rw [passed] at past
              cases past
          | broken _ _ past =>
              rw [passed] at past
              cases past
  refine ⟨?_, ?_⟩
  · intro transition member innerId activation label
    obtain ⟨front, back, rfl⟩ := List.append_of_mem member
    obtain ⟨reached, worked, _⟩ := rest.around
    obtain ⟨doomedTicket, heldThen, doomed, _⟩ := doomed_run reached
      (fun transition member => afterFresh transition (List.mem_append_left _ member)) base
    rw [label] at worked
    have occupies := doomed.early
    generalize transition.target = reachedTarget at worked
    cases step_stepped worked with
    | worked _ heldWork moved =>
        rw [heldThen, Option.some.injEq] at heldWork
        subst heldWork
        cases moved with
        | answers runtime innerId limit running _ => simp [Ticket.occupies, running] at occupies
        | raises runtime innerId activation running _ =>
            simp [Ticket.occupies, running] at occupies
  · obtain ⟨last, heldLast, doomed, marked⟩ := doomed_run rest afterFresh base
    rw [getRunStatus_ticket heldLast, doomed.state]
    rcases marked with cancelled | ⟨running, marking⟩
    · rw [cancelled]
      exact .inl rfl
    · rw [running]
      exact .inr ⟨rfl, marking⟩

/-- The task is cancelled in its sleep, and marked after it has woken. -/
def timelyCancellation : List ApiAction :=
  [.createRun "r1" "hello" (some 5), .work "r1" (.begin (.ok (scripted ⟨.empty⟩ []))),
    .cancelActiveRun 0 "r1", .cancelTask 0, .work "r1" .wake, .markCancelled 0]

theorem cancelled_in_time_asleep :
    ∃ before moment after, (traceOf timelyCancellation).1 = before ++ moment :: after ∧
      CancelledInTime after (traceOf timelyCancellation).2 "r1" 0 ∧
      (traceOf timelyCancellation).2.getRunStatus "r1" = .ok ⟨"r1", .cancelled, 0, none⟩ := by
  have enabled : (execute RunService.step {} timelyCancellation).isSome = true := by
    decide +kernel
  have fresh : (traceOf timelyCancellation).1.all createsFresh = true := by decide +kernel
  obtain ⟨before, moment, after, splits, issued, serving, cancels, ticket, held, early, unfinished⟩ :
      ∃ before moment after, (traceOf timelyCancellation).1 = before ++ moment :: after ∧
        (∃ transition ∈ before, ∃ userInput,
          transition.label = .createRun "r1" userInput (some 5)) ∧
        moment.source.requests.get? 0 = some ⟨"r1", .cancelling⟩ ∧
        moment.label = .cancelTask 0 ∧ ∃ ticket, moment.source.ticket? "r1" = some ticket ∧
          ticket.occupies = false ∧ ticket.finished = false :=
    ⟨(traceOf timelyCancellation).1.take 3, (traceOf timelyCancellation).1.get ⟨3, by decide⟩,
      (traceOf timelyCancellation).1.drop 4, rfl, ⟨_, List.mem_cons_self, "hello", rfl⟩, rfl, rfl,
      _, rfl, rfl, rfl⟩
  have run := traceOf_run enabled
  have each := traceOf_fresh fresh
  rw [splits] at run each
  exact ⟨before, moment, after, splits,
    cancelled_in_time run each issued serving cancels held early unfinished, rfl⟩

end DurableAgent.Api
