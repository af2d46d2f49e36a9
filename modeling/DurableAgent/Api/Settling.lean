import DurableAgent.Api.Tickets

/-!
# The service comes to rest

Once no more runs are created and no more cancellations are asked for, every worker ends and
every request is answered. No ticket goes on showing a run, unless the runtime of it could not
be built: that is outside of the handlers of the worker.
-/

set_option autoImplicit false

namespace DurableAgent.Api

open Library Python DurableAgent.Runtime OrderedDict

/-- The moments that a worker has before it. -/
def TaskPoint.left : TaskPoint → Nat
  | .scheduled => 4
  | .sleeping _ => 3
  | .running _ => 2
  | .returning => 1
  | .done _ => 0

def CancelPoint.left : CancelPoint → Nat
  | .cancelling => 2
  | .marking => 1
  | .replied _ => 0

def Task.left (task : Task) : Nat := task.point.left

def CancelRequest.left (request : CancelRequest) : Nat := request.point.left

def RunService.left (service : RunService) : Nat :=
  service.activeTasks.weight Task.left + service.requests.weight CancelRequest.left

/-- A client calls, rather than the service working. -/
def ApiAction.arrives : ApiAction → Bool
  | .createRun _ _ _ | .cancelActiveRun _ _ => true
  | _ => false

/-- Nothing is left to do. -/
structure Quiet (service : RunService) : Prop where
  tasks : ∀ runId ticket, service.ticket? runId = some ticket → ticket.finished = true
  requests : ∀ request held, service.requests.get? request = some held →
    ∃ reply, held.point = .replied reply

/-- The event loop is in the one task that it cannot leave, every request that is served has a
ticket, and every ticket its course. -/
structure Sound (service : RunService) : Prop where
  occupied : ∀ runId, service.eventLoop = some runId →
    ∃ ticket, service.ticket? runId = some ticket ∧ ticket.occupies = true
  occupies : ∀ runId ticket, service.ticket? runId = some ticket → ticket.occupies = true →
    service.eventLoop = some runId
  served : ∀ request held, service.requests.get? request = some held →
    (∃ reply, held.point = .replied reply) ∨ ∃ ticket, service.ticket? held.runId = some ticket
  courses : ∀ runId ticket, service.ticket? runId = some ticket →
    ∃ maxSteps, Course service runId maxSteps ticket

namespace Sound

variable {service next : RunService} {action : ApiAction}

theorem initial : Sound {} := by
  have none : ∀ runId, ({} : RunService).ticket? runId = none := fun _ => rfl
  refine ⟨fun _ loop => ?_, fun runId _ held => ?_, fun _ _ held => ?_, fun runId _ held => ?_⟩
  · cases loop
  · rw [none] at held
    cases held
  · cases held
  · rw [none] at held
    cases held

theorem ticket?_eq_some {runId : String} {ticket : Ticket}
    (held : service.ticket? runId = some ticket) :
    service.runsDatabase.get? runId = some ticket.record ∧
      service.activeTasks.get? runId = some ticket.task := by
  unfold RunService.ticket? at held
  cases record : service.runsDatabase.get? runId with
  | none => simp [record] at held
  | some stored =>
      cases task : service.activeTasks.get? runId with
      | none => simp [record, task] at held
      | some active =>
          simp only [record, task, Option.some.injEq] at held
          subst held
          exact ⟨rfl, rfl⟩

/-- A ticket stays where it was, or has just been issued. -/
theorem happened (stepped : Stepped service action next)
    (fresh : FreshTicket ⟨service, action, next⟩) {runId : String} {after : Ticket}
    (held : next.ticket? runId = some after) :
    (∃ ticket, service.ticket? runId = some ticket ∧
        Happens service runId ticket action after) ∨
      service.ticket? runId = none ∧ ∃ userInput maxSteps,
        action = .createRun runId userInput maxSteps ∧
          after = RunService.initialTicket runId userInput maxSteps := by
  cases known : service.ticket? runId with
  | some ticket =>
      obtain ⟨same, heldToo, happens⟩ := stepped.happens fresh known
      rw [held, Option.some.injEq] at heldToo
      subst heldToo
      exact .inl ⟨ticket, rfl, happens⟩
  | none =>
      right
      cases stepped with
      | @created created userInput maxSteps =>
          by_cases same : runId = created
          · subst same
            rw [RunService.ticket?_put_self, Option.some.injEq] at held
            exact ⟨rfl, userInput, maxSteps, rfl, held.symm⟩
          · rw [RunService.ticket?_put_of_ne _ same, known] at held
            cases held
      | @worked worked move ticket moved _ heldWork _ =>
          by_cases same : runId = worked
          · subst same
            rw [known] at heldWork
            cases heldWork
          · have other : (service.put worked moved).ticket? runId = some after := held
            rw [RunService.ticket?_put_of_ne _ same, known] at other
            cases other
      | asked _ _ _ =>
          rw [RunService.ticket?_answer, known] at held
          cases held
      | @cancelled _ cancelled ticket _ heldTask =>
          by_cases same : runId = cancelled
          · subst same
            rw [known] at heldTask
            cases heldTask
          · rw [RunService.ticket?_answer, RunService.ticket?_put_of_ne _ same, known] at held
            cases held
      | @marked _ marked ticket _ heldTask =>
          by_cases same : runId = marked
          · subst same
            rw [known] at heldTask
            cases heldTask
          · rw [RunService.ticket?_answer, RunService.ticket?_put_of_ne _ same, known] at held
            cases held

theorem courses_stepped (sound : Sound service) (stepped : Stepped service action next)
    (fresh : FreshTicket ⟨service, action, next⟩) {runId : String} {after : Ticket}
    (held : next.ticket? runId = some after) : ∃ maxSteps, Course next runId maxSteps after := by
  rcases happened stepped fresh held with ⟨ticket, known, happens⟩ | ⟨_, userInput, maxSteps, _, new⟩
  · obtain ⟨maxSteps, course⟩ := sound.courses runId ticket known
    exact ⟨maxSteps, course.kept stepped happens⟩
  · subst new
    exact ⟨maxSteps, .ahead (initial_ahead next runId userInput maxSteps)⟩

/-- Requests and their threads do not move the event loop. -/
theorem occupies_cancel (ticket : Ticket) :
    (if ticket.finished then ticket else ticket.cancel).occupies = ticket.occupies := by
  split
  · rfl
  · rfl

theorem stepped (sound : Sound service) (stepped : Stepped service action next)
    (fresh : FreshTicket ⟨service, action, next⟩) : Sound next where
  courses := fun _ _ held => sound.courses_stepped stepped fresh held
  occupied := by
    intro runId loop
    cases stepped with
    | @created created userInput maxSteps =>
        obtain ⟨ticket, held, occupies⟩ := sound.occupied runId loop
        have unknown : service.runsDatabase.get? created = none := fresh created userInput maxSteps rfl
        have differs : runId ≠ created := by
          rintro rfl
          rw [(ticket?_eq_some held).1] at unknown
          cases unknown
        exact ⟨ticket, (service.ticket?_put_of_ne differs _).trans held, occupies⟩
    | @worked worked move ticket after _ _ _ =>
        have loopAfter : (if after.occupies then some worked else none) = some runId := loop
        split at loopAfter
        · next occupies =>
            cases loopAfter
            exact ⟨after, service.ticket?_put_self runId after, occupies⟩
        · cases loopAfter
    | asked _ _ _ => exact sound.occupied runId loop
    | @cancelled _ cancelled ticket _ held =>
        obtain ⟨other, heldOther, occupies⟩ := sound.occupied runId loop
        by_cases same : runId = cancelled
        · subst same
          rw [held, Option.some.injEq] at heldOther
          subst heldOther
          exact ⟨_, service.ticket?_put_self runId _, (occupies_cancel ticket).trans occupies⟩
        · exact ⟨other, (service.ticket?_put_of_ne same _).trans heldOther, occupies⟩
    | @marked _ marked ticket _ held =>
        obtain ⟨other, heldOther, occupies⟩ := sound.occupied runId loop
        by_cases same : runId = marked
        · subst same
          rw [held, Option.some.injEq] at heldOther
          subst heldOther
          exact ⟨_, service.ticket?_put_self runId _, occupies⟩
        · exact ⟨other, (service.ticket?_put_of_ne same _).trans heldOther, occupies⟩
  occupies := by
    intro runId after held occupies
    have loops : ∀ ticket, service.ticket? runId = some ticket → ticket.occupies = true →
        service.eventLoop = some runId := sound.occupies runId
    rcases happened stepped fresh held with ⟨ticket, known, happens⟩ | ⟨_, _, _, _, new⟩
    · cases stepped with
      | created =>
          cases happens with
          | rests _ => exact loops _ known occupies
      | @worked worked move other moved free heldWork _ =>
          by_cases same : runId = worked
          · subst same
            have stored : (service.put runId moved).ticket? runId = some after := held
            rw [RunService.ticket?_put_self, Option.some.injEq] at stored
            subst stored
            exact if_pos occupies
          · have stored : (service.put worked moved).ticket? runId = some after := held
            rw [RunService.ticket?_put_of_ne _ same] at stored
            have busy := loops _ stored occupies
            rcases free with none | own
            · rw [busy] at none
              cases none
            · rw [busy, Option.some.injEq] at own
              exact absurd own same
      | asked _ _ _ =>
          cases happens with
          | rests _ => exact loops _ known occupies
      | cancelled _ _ =>
          cases happens with
          | rests _ => exact loops _ known occupies
          | cancels _ => exact loops _ known ((occupies_cancel ticket).symm.trans occupies)
      | marked _ _ =>
          cases happens with
          | rests _ => exact loops _ known occupies
          | marks _ => exact loops _ known occupies
    · subst new
      cases occupies
  served := by
    intro request held found
    have stays : ∀ runId ticket, service.ticket? runId = some ticket →
        ∃ after, next.ticket? runId = some after := by
      intro runId ticket known
      obtain ⟨after, heldNext, _⟩ := stepped.happens fresh known
      exact ⟨after, heldNext⟩
    have earlier : service.requests.get? request = some held →
        (∃ reply, held.point = .replied reply) ∨
          ∃ ticket, next.ticket? held.runId = some ticket := by
      intro before
      exact (sound.served request held before).imp_right fun ⟨ticket, known⟩ => stays _ _ known
    cases stepped with
    | created => exact earlier found
    | worked _ _ _ => exact earlier found
    | @asked other runId point _ unmarked known =>
        have inserted : (service.requests.insert other ⟨runId, point⟩).get? request = some held :=
          found
        rw [get?_insert] at inserted
        split at inserted
        · cases inserted
          cases point with
          | cancelling =>
              obtain ⟨ticket, issued⟩ := known rfl
              exact .inr ⟨ticket, issued⟩
          | marking => exact absurd rfl unmarked
          | replied reply => exact .inl ⟨reply, rfl⟩
        · exact earlier inserted
    | @cancelled other runId ticket _ known =>
        have inserted : (service.requests.insert other ⟨runId, .marking⟩).get? request =
            some held := found
        rw [get?_insert] at inserted
        split at inserted
        · cases inserted
          exact .inr ⟨_, service.ticket?_put_self runId _⟩
        · exact earlier inserted
    | @marked other runId ticket _ _ =>
        have inserted : (service.requests.insert other ⟨runId, .replied .emitted⟩).get? request =
            some held := found
        rw [get?_insert] at inserted
        split at inserted
        · cases inserted
          exact .inl ⟨.emitted, rfl⟩
        · exact earlier inserted

end Sound

section Progress

variable {service next : RunService} {action : ApiAction}

theorem Worked.left {runId : String} {ticket after : Ticket} {move : WorkerMove}
    (worked : Worked runId ticket move after) : after.task.left + 1 ≤ ticket.task.left := by
  cases worked with
  | unstarted built scheduled _ => simp [Task.left, Ticket.move, scheduled, TaskPoint.left]
  | unbuilt exception scheduled _ => simp [Task.left, Ticket.move, scheduled, TaskPoint.left]
  | asleep runtime scheduled _ => simp [Task.left, Ticket.move, scheduled, TaskPoint.left]
  | interrupted runtime sleeping _ =>
      simp [Task.left, Ticket.move, Ticket.assign, sleeping, TaskPoint.left]
  | awake runtime sleeping _ => simp [Task.left, Ticket.move, sleeping, TaskPoint.left]
  | answers runtime innerId limit running _ =>
      simp [Task.left, Ticket.move, Ticket.store, running, TaskPoint.left]
  | raises runtime innerId activation running _ =>
      simp [Task.left, Ticket.move, Ticket.assign, running, TaskPoint.left]
  | returns outcome returning => simp [Task.left, Ticket.move, returning, TaskPoint.left]

/-- Whatever the service does by itself, less is left. -/
theorem Stepped.left (stepped : Stepped service action next) (own : action.arrives = false) :
    next.left < service.left := by
  cases stepped with
  | created => cases own
  | asked _ _ _ => cases own
  | @worked runId move ticket after _ held worked =>
      have tasks : (service.activeTasks.insert runId after.task).weight Task.left + 1 ≤
          service.activeTasks.weight Task.left :=
        weight_insert (Sound.ticket?_eq_some held).2 worked.left
      change (service.activeTasks.insert runId after.task).weight Task.left +
        service.requests.weight CancelRequest.left < _ + _
      omega
  | @cancelled request runId ticket serving held =>
      have same : (if ticket.finished then ticket else ticket.cancel).task.left =
          ticket.task.left := by
        split
        · rfl
        · rfl
      have tasks : (service.activeTasks.insert runId
          (if ticket.finished then ticket else ticket.cancel).task).weight Task.left + 0 ≤
            service.activeTasks.weight Task.left :=
        weight_insert (Sound.ticket?_eq_some held).2 (le_of_eq same)
      have requests : (service.requests.insert request ⟨runId, .marking⟩).weight
          CancelRequest.left + 1 ≤ service.requests.weight CancelRequest.left :=
        weight_insert serving (le_refl _)
      change (service.activeTasks.insert runId _).weight Task.left +
        (service.requests.insert request ⟨runId, .marking⟩).weight CancelRequest.left < _ + _
      omega
  | @marked request runId ticket serving held =>
      have tasks : (service.activeTasks.insert runId (ticket.assign .cancelled).task).weight
          Task.left + 0 ≤ service.activeTasks.weight Task.left :=
        weight_insert (Sound.ticket?_eq_some held).2 (le_refl _)
      have requests : (service.requests.insert request ⟨runId, .replied .emitted⟩).weight
          CancelRequest.left + 1 ≤ service.requests.weight CancelRequest.left :=
        weight_insert serving (le_refl _)
      change (service.activeTasks.insert runId _).weight Task.left +
        (service.requests.insert request ⟨runId, .replied .emitted⟩).weight CancelRequest.left <
          _ + _
      omega

/-- A worker that has the event loop, or can have it, goes on. -/
theorem work_enabled {runId : String} {ticket : Ticket} (held : service.ticket? runId = some ticket)
    (unfinished : ticket.finished = false)
    (free : service.eventLoop = none ∨ service.eventLoop = some runId) :
    ∃ move next, service.step (.work runId move) = some next := by
  have moves : ∃ move after, ticket.work runId move = some after := by
    cases point : ticket.task.point with
    | scheduled =>
        cases requested : ticket.task.cancelRequested with
        | true =>
            exact ⟨.begin (.error typeError), ticket.move (.done .cancelled),
              by simp [Ticket.work, point, requested]⟩
        | false =>
            exact ⟨.begin (.error typeError), ticket.move (.done (.raised typeError)),
              by simp [Ticket.work, point, requested]⟩
    | sleeping runtime =>
        cases requested : ticket.task.cancelRequested with
        | true =>
            exact ⟨.wake, (ticket.assign .cancelled).move (.done .returned),
              by simp [Ticket.work, point, requested]⟩
        | false =>
            exact ⟨.wake, ticket.move (.running runtime), by simp [Ticket.work, point, requested]⟩
    | running runtime =>
        exact ⟨.persist "" (some typeError), (ticket.assign .failed).move .returning,
          by simp [Ticket.work, point, runOutcome]⟩
    | returning =>
        exact ⟨.finish, _, by simp only [Ticket.work, point]; rfl⟩
    | done outcome => simp [Ticket.finished, point] at unfinished
  obtain ⟨move, after, moved⟩ := moves
  refine ⟨move, Option.isSome_iff_exists.mp ?_⟩
  simp [RunService.step, RunService.work, RunService.loopFor, free, held, moved]

theorem Sound.enabled (sound : Sound service) (busy : ¬ Quiet service) :
    ∃ action next, action.arrives = false ∧ service.step action = some next := by
  cases loop : service.eventLoop with
  | some runId =>
      obtain ⟨ticket, held, occupies⟩ := sound.occupied runId loop
      have unfinished : ticket.finished = false := by
        cases point : ticket.task.point <;> simp_all [Ticket.occupies, Ticket.finished]
      obtain ⟨move, next, stepped⟩ := work_enabled held unfinished (.inr loop)
      exact ⟨_, next, rfl, stepped⟩
  | none =>
      by_cases idle : ∀ runId ticket, service.ticket? runId = some ticket → ticket.finished = true
      · have unanswered : ∃ request held, service.requests.get? request = some held ∧
            ¬ ∃ reply, held.point = .replied reply := by
          by_contra none
          refine busy ⟨idle, fun request held found => ?_⟩
          by_contra unreplied
          exact none ⟨request, held, found, unreplied⟩
        obtain ⟨request, held, found, unreplied⟩ := unanswered
        obtain ⟨ticket, known⟩ := (sound.served request held found).resolve_left unreplied
        obtain ⟨runId, point⟩ := held
        have serves : point = .cancelling ∨ point = .marking →
            ∃ action next, action.arrives = false ∧ service.step action = some next := by
          rintro (rfl | rfl)
          · obtain ⟨next, taken⟩ := Option.isSome_iff_exists.mp
              (show (service.step (.cancelTask request)).isSome = true by
                simp [RunService.step, found, RunService.cancelTask, known])
            exact ⟨_, next, rfl, taken⟩
          · obtain ⟨next, taken⟩ := Option.isSome_iff_exists.mp
              (show (service.step (.markCancelled request)).isSome = true by
                simp [RunService.step, found, RunService.markCancelled, known])
            exact ⟨_, next, rfl, taken⟩
        cases point with
        | cancelling => exact serves (.inl rfl)
        | marking => exact serves (.inr rfl)
        | replied reply => exact absurd ⟨reply, rfl⟩ unreplied
      · push Not at idle
        obtain ⟨runId, ticket, held, unfinished⟩ := idle
        obtain ⟨move, next, stepped⟩ :=
          work_enabled held (Bool.eq_false_iff.mpr unfinished) (.inl loop)
        exact ⟨_, next, rfl, stepped⟩

end Progress

/-- Every run is over, and one that seems to go on could not be begun. -/
def Settled (service : RunService) : Prop :=
  ∀ runId ticket, service.ticket? runId = some ticket →
    ticket.finished = true ∧ (ticket.record.status = .running →
      ∃ exception, ticket.task.point = .done (.raised exception))

theorem Sound.settled {service : RunService} (sound : Sound service) (quiet : Quiet service) :
    Settled service := by
  intro runId ticket held
  have finished := quiet.tasks runId ticket held
  refine ⟨finished, fun running => ?_⟩
  obtain ⟨maxSteps, course⟩ := sound.courses runId ticket held
  cases course with
  | ahead ahead =>
      have unmarked : ticket.task.cancelRequested ≠ true := by
        intro requested
        rcases ahead.awaited requested with cancelled | ⟨request, marking⟩
        · rw [running] at cancelled
          cases cancelled
        · obtain ⟨reply, replied⟩ := quiet.requests request _ marking
          cases replied
      cases point : ticket.task.point with
      | done outcome =>
          rcases ahead.ended outcome point with ⟨exception, raised⟩ | requested | cancelled
          · exact ⟨exception, congrArg TaskPoint.done raised⟩
          · exact absurd requested unmarked
          · rw [running] at cancelled
            cases cancelled
      | scheduled => simp [Ticket.finished, point] at finished
      | sleeping runtime => simp [Ticket.finished, point] at finished
      | running runtime => simp [Ticket.finished, point] at finished
      | returning => simp [Ticket.finished, point] at finished
  | answered limit built innerId userInput _ state status _ =>
      rw [state, running] at status
      have ends := served_ne ((configured built limit).run innerId userInput).status (by
        cases configured_run built limit innerId userInput with
        | inl completed => exact .inl completed.2.1
        | inr exceeded => exact .inr exceeded.2.1)
      rcases status with same | cancelled
      · exact absurd same.symm ends.2.2
      · cases cancelled
  | broken _ status _ =>
      rw [running] at status
      rcases status with failed | cancelled
      · cases failed
      · cases cancelled

/-- When clients stop calling, the service comes to rest in any order of its steps. -/
theorem service_settles {history : List ApiTransition} {service : RunService}
    (run : Run RunService.step {} history service)
    (fresh : ∀ transition ∈ history, FreshTicket transition) :
    Settles RunService.step (fun _ action => action.arrives = false) Quiet
      (fun later final => Settled final ∧ later.length ≤ history.length + service.left)
      history service := by
  have sound : Sound service := run.preserves FreshTicket Sound Sound.initial
    (fun _ _ _ sound taken permitted => sound.stepped (step_stepped taken) permitted) fresh
  refine Settles.mono ?_ (Settles.of_measure Sound RunService.left ?_ ?_ sound
    (history.length + service.left) (le_refl _))
  · rintro later final ⟨settled, quiet, bounded⟩
    exact ⟨settled.settled quiet, bounded⟩
  · intro state action next sound _ own taken
    have stepped := step_stepped taken
    refine ⟨sound.stepped stepped ?_, stepped.left own⟩
    rintro runId userInput maxSteps label
    have created : action = .createRun runId userInput maxSteps := label
    rw [created] at own
    cases own
  · intro state sound busy
    obtain ⟨action, next, own, taken⟩ := sound.enabled busy
    exact ⟨action, next, own, taken⟩

theorem service_settles_asked :
    Settles RunService.step (fun _ action => action.arrives = false) Quiet
      (fun later final => Settled final ∧
        later.length ≤ (traceOf (timelyCancellation.take 3)).1.length +
          (traceOf (timelyCancellation.take 3)).2.left)
      (traceOf (timelyCancellation.take 3)).1 (traceOf (timelyCancellation.take 3)).2 :=
  service_settles (traceOf_run (by decide +kernel)) (traceOf_fresh (by decide +kernel))

end DurableAgent.Api
