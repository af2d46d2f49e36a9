import DurableAgent.Mcp.Client

/-!
# Responses and their callers

Frames arrive in any order, for any identifier and any number of times; each
caller gets the first one that carries its identifier after its registration.
-/

set_option autoImplicit false

namespace DurableAgent.Mcp

open Library Python

/-- A JSON object with an integer identifier or none, or the end of the output. -/
def Incoming.wellFormed : Incoming → Bool
  | .endOfFile => true
  | .line (some (.dict data)) =>
      match respId data with
      | .none => true
      | .int _ => true
      | _ => false
  | _ => false

def ClientAction.wellFormed : ClientAction → Bool
  | .readLine incoming => incoming.wellFormed
  | _ => true

def Delivers (transition : Transition Client ClientAction) (data : Dict) (requestId : Int) : Prop :=
  transition.label = .readLine (.line (some (.dict data))) ∧ respId data = .int requestId

def Registers (transition : Transition Client ClientAction) (position : Nat) : Prop :=
  transition.source.calls.length = position ∧ transition.target.calls.length = position + 1

/-- The first frame with the identifier. -/
def FirstAnswer (requestId : Int) (data : Dict)
    (history : List (Transition Client ClientAction)) : Prop :=
  ∃ before answer after, history = before ++ answer :: after ∧ Delivers answer data requestId ∧
    ∀ transition ∈ before, ∀ other, ¬ Delivers transition other requestId

/-- What has become of a future since its registration. -/
def Fate (requestId : Int) (position : Nat)
    (since : List (Transition Client ClientAction)) : Future → Prop
  | .pending => ∀ transition ∈ since, ∀ data, ¬ Delivers transition data requestId
  | .result data => FirstAnswer requestId data since
  | .exception _ => False
  | .cancelled => ∃ transition ∈ since, transition.label = .cancelCall position

/-- A frame that no caller is waiting for. -/
inductive Stray (client : Client) (data : Dict) : Prop where
  | absent : respId data = .none → Stray client data
  | unknown (requestId : Int) :
      respId data = .int requestId →
      (∀ call ∈ client.calls, call.requestId ≠ requestId) → Stray client data
  | answered (call : Call) :
      respId data = .int call.requestId → call ∈ client.calls → call.future.done = true →
      Stray client data

theorem wellFormed_failure {incoming : Incoming} (wellFormed : incoming.wellFormed = true) :
    incoming.failure = none := by
  unfold Incoming.wellFormed at wellFormed
  split at wellFormed
  · rfl
  · next data =>
      simp only [Incoming.failure, responseKey]
      split at wellFormed
      · next absent => rw [absent, pendingKey]
      · next requestId present => rw [present, pendingKey]
      · cases wellFormed
  · cases wellFormed

theorem carries_iff {incoming : Incoming} (wellFormed : incoming.wellFormed = true) {data : Dict}
    {requestId : Int} :
    incoming.Carries data requestId ↔
      incoming = .line (some (.dict data)) ∧ respId data = .int requestId := by
  unfold Incoming.Carries
  apply and_congr_right
  rintro rfl
  simp only [Incoming.wellFormed] at wellFormed
  unfold responseKey
  split at wellFormed
  · next absent => simp [absent, pendingKey]
  · next found present => simp [present, pendingKey]
  · cases wellFormed

namespace Fate

variable {requestId : Int} {position : Nat} {since : List (Transition Client ClientAction)}
  {future : Future} {transition : Transition Client ClientAction}

theorem registered : Fate requestId position [] .pending := by
  intro transition member
  cases member

/-- A future that keeps its state keeps its fate, if no frame that a pending one
waits for has been read. -/
theorem extend (fate : Fate requestId position since future)
    (unheard : future.done = false → ∀ data, ¬ Delivers transition data requestId) :
    Fate requestId position (since ++ [transition]) future := by
  cases future with
  | pending =>
      intro moment member data
      rcases List.mem_append.mp member with earlier | last
      · exact fate moment earlier data
      · rw [List.mem_singleton.mp last]
        exact unheard rfl data
  | result data =>
      obtain ⟨before, answer, after, rfl, delivers, first⟩ := fate
      exact ⟨before, answer, after ++ [transition], by simp, delivers, first⟩
  | exception failure => exact fate
  | cancelled =>
      obtain ⟨moment, member, label⟩ := fate
      exact ⟨moment, List.mem_append_left _ member, label⟩

theorem cancel (label : transition.label = .cancelCall position) :
    Fate requestId position (since ++ [transition]) .cancelled :=
  ⟨transition, List.mem_append_right _ (List.mem_singleton_self _), label⟩

theorem answer (waiting : Fate requestId position since .pending) {data : Dict}
    (delivers : Delivers transition data requestId) :
    Fate requestId position (since ++ [transition]) (.result data) :=
  ⟨since, transition, [], rfl, delivers, waiting⟩

end Fate

variable {client next : Client} {action : ClientAction}

theorem not_delivers {data : Dict} {requestId : Int}
    (notRead : ∀ incoming, action ≠ .readLine incoming) :
    ¬ Delivers ⟨client, action, next⟩ data requestId := by
  intro delivers
  exact notRead _ delivers.1

/-- One action takes the fate of every call one step further. -/
theorem Fate.step (mapped : Mapped client) (stepped : client.step action = some next)
    (wellFormed : action.wellFormed = true) {position : Nat} {call : Call}
    (stored : client.calls[position]? = some call) {since : List (Transition Client ClientAction)}
    (fate : Fate call.requestId position since call.future) :
    ∃ later, next.calls[position]? = some later ∧ call.Evolves later ∧
      Fate later.requestId position (since ++ [⟨client, action, next⟩]) later.future := by
  have number := mapped.numbered position call stored
  cases Client.step_effect stepped with
  | quiet reader notRead _ =>
      exact ⟨call, stored, .refl call, fate.extend fun _ _ => not_delivers notRead⟩
  | ends silently =>
      refine ⟨call, stored, .refl call, fate.extend ?_⟩
      intro _ data delivers
      rcases silently with rfl | rfl
      · cases delivers.1
      · cases delivers.1
  | register primitive serialisable _ =>
      have bound := (List.getElem?_eq_some_iff.mp stored).1
      refine ⟨call, ?_, .refl call, fate.extend fun _ _ => not_delivers (by simp)⟩
      simp only [Client.sendRequest]
      rw [List.getElem?_append_left bound]
      exact stored
  | move other before moved notRead found moves future =>
      by_cases same : other = position
      · subst other
        rw [stored] at found
        cases found
        have bound := (List.getElem?_eq_some_iff.mp stored).1
        refine ⟨moved, by simp [bound], moves.evolves, ?_⟩
        rw [moves.requestId]
        rcases future with kept | cancels
        · rw [kept]
          exact fate.extend fun _ _ => not_delivers notRead
        · rcases moves.future with kept | ⟨_, cancelled⟩
          · rw [kept]
            exact fate.extend fun _ _ => not_delivers notRead
          · rw [cancelled]
            exact .cancel cancels
      · refine ⟨call, ?_, .refl call, fate.extend fun _ _ => not_delivers notRead⟩
        simp only
        rw [List.getElem?_set_ne same]
        exact stored
  | fail incoming failure raised =>
      rw [wellFormed_failure wellFormed] at raised
      cases raised
  | ignore incoming _ unregistered =>
      refine ⟨call, stored, .refl call, fate.extend ?_⟩
      intro undone data delivers
      have carries := (carries_iff wellFormed).mpr
        ⟨ClientAction.readLine.inj delivers.1, delivers.2⟩
      have registered := mapped.registered position call stored undone
      rw [← number, unregistered data _ carries] at registered
      cases registered
  | answer incoming data requestId other _ carries registered =>
      obtain ⟨key, _⟩ := mapped.keys requestId other registered
      obtain ⟨frame, identifier⟩ := (carries_iff wellFormed).mp carries
      by_cases same : other = position
      · subst other
        refine ⟨call.answer data, by simp [stored], call.answer_evolves data, ?_⟩
        cases done : call.future.done with
        | true =>
            rw [Call.answer_of_done data done]
            exact fate.extend (by simp [done])
        | false =>
            rw [Future.eq_pending done] at fate
            rw [Call.answer_of_undone data done]
            refine fate.answer ⟨by rw [frame], ?_⟩
            rw [identifier, key, number]
      · refine ⟨call, ?_, .refl call, fate.extend ?_⟩
        · simp only
          rw [List.getElem?_modify_ne _ _ same]
          exact stored
        · intro _ other delivers
          obtain ⟨label, carried⟩ := delivers
          dsimp only at label
          rw [frame] at label
          cases label
          rw [identifier, number, key] at carried
          simp only [Value.int.injEq] at carried
          omega

/-- A stray frame changes no call and no registration of a pending one. -/
theorem Stray.ignored (mapped : Mapped client) {data : Dict}
    (stepped : client.step (.readLine (.line (some (.dict data)))) = some next)
    (wellFormed : (Incoming.line (some (.dict data))).wellFormed = true)
    (stray : Stray client data) :
    next.calls = client.calls ∧ ∀ call ∈ client.calls, call.future.done = false →
      next.pending.get? call.requestId = client.pending.get? call.requestId := by
  cases Client.step_effect stepped with
  | quiet reader notRead _ => exact absurd rfl (notRead _)
  | ends silently => rcases silently with same | same <;> cases same
  | move _ _ _ notRead _ _ _ => exact absurd rfl (notRead _)
  | fail incoming failure raised =>
      rw [wellFormed_failure wellFormed] at raised
      cases raised
  | ignore incoming _ _ => exact ⟨rfl, fun _ _ _ => rfl⟩
  | answer incoming other requestId position _ carries registered =>
      obtain ⟨key, bound⟩ := mapped.keys requestId position registered
      obtain ⟨frame, identifier⟩ := (carries_iff wellFormed).mp carries
      cases frame
      have found : client.calls[position]? = some client.calls[position] :=
        List.getElem?_eq_getElem bound
      have number := mapped.numbered position _ found
      have done : client.calls[position].future.done = true := by
        cases stray with
        | absent none =>
            rw [identifier] at none
            cases none
        | unknown other present free =>
            rw [identifier] at present
            cases present
            exact absurd (number.trans key.symm) (free _ (List.getElem_mem bound))
        | answered call present member done =>
            obtain ⟨place, stored⟩ := List.mem_iff_getElem?.mp member
            have numbered := mapped.numbered place call stored
            rw [identifier] at present
            simp only [Value.int.injEq] at present
            have same : place = position := by omega
            subst place
            rw [found] at stored
            cases stored
            exact done
      constructor
      · apply List.ext_getElem?
        intro place
        rw [List.getElem?_modify]
        by_cases same : position = place
        · subst place
          simp [found, Call.answer_of_done data done]
        · simp [same]
      · intro call member undone
        apply OrderedDict.get?_erase_of_ne
        rintro rfl
        obtain ⟨place, stored⟩ := List.mem_iff_getElem?.mp member
        have numbered := mapped.numbered place call stored
        have same : place = position := by omega
        subst place
        rw [found] at stored
        cases stored
        rw [done] at undone
        cases undone

theorem Mapped.distinct (mapped : Mapped client) : (client.calls.map (·.requestId)).Nodup := by
  rw [List.nodup_iff_getElem?_ne_getElem?]
  intro left right order bound same
  rw [List.length_map] at bound
  have first : client.calls[left]? = some client.calls[left] := List.getElem?_eq_getElem _
  have second : client.calls[right]? = some client.calls[right] := List.getElem?_eq_getElem _
  have numberedFirst := mapped.numbered left _ first
  have numberedSecond := mapped.numbered right _ second
  rw [List.getElem?_map, List.getElem?_map, first, second] at same
  simp only [Option.map_some, Option.some.injEq] at same
  omega

/-- The fate of a call since its registration, and what its caller has been given. -/
def Served (history : List (Transition Client ClientAction)) (position : Nat) (call : Call) :
    Prop :=
  (∃ earlier registration later, history = earlier ++ registration :: later ∧
    Registers registration position ∧ Fate call.requestId position later call.future) ∧
  ∀ response, call.Returned response → call.future = .result response

theorem Served.step {history : List (Transition Client ClientAction)} (mapped : Mapped client)
    (stepped : client.step action = some next) (wellFormed : action.wellFormed = true)
    {position : Nat} {call : Call} (stored : client.calls[position]? = some call)
    (served : Served history position call) :
    ∃ later, next.calls[position]? = some later ∧
      Served (history ++ [⟨client, action, next⟩]) position later := by
  obtain ⟨⟨earlier, registration, since, rfl, registers, fate⟩, honest⟩ := served
  obtain ⟨later, reached, evolves, further⟩ := fate.step mapped stepped wellFormed stored
  refine ⟨later, reached, ⟨earlier, registration, _, by simp, registers, further⟩, ?_⟩
  intro response returned
  rcases evolves.returned response returned with before | result
  · have result := honest response before
    rw [evolves.future (by rw [result]; rfl), result]
  · exact result

/-- A call that a step adds is served from its registration on. -/
theorem served_of_new {history : List (Transition Client ClientAction)}
    (stepped : client.step action = some next) {position : Nat} {call : Call}
    (stored : next.calls[position]? = some call) (new : client.calls.length ≤ position) :
    Served (history ++ [⟨client, action, next⟩]) position call := by
  have bound := (List.getElem?_eq_some_iff.mp stored).1
  have kept : ∀ {calls : List Call}, Evolved client.calls calls →
      ¬ position < calls.length := by
    intro calls evolved
    rw [evolved.length]
    omega
  cases Client.step_effect stepped with
  | quiet reader _ _ => exact absurd bound (kept (.refl _))
  | ends _ => exact absurd bound (kept (.refl _))
  | register primitive serialisable _ =>
      simp only [Client.sendRequest, List.length_append, List.length_singleton] at bound
      have last : position = client.calls.length := by omega
      subst last
      simp only [Client.sendRequest, List.getElem?_concat_length, Option.some.injEq] at stored
      subst call
      refine ⟨⟨history, _, [], rfl, ⟨rfl, by simp [Client.sendRequest]⟩, Fate.registered⟩, ?_⟩
      intro response returned
      cases serialisable <;> cases returned
  | move place before moved _ found moves _ =>
      exact absurd bound (kept (Evolved.set found moves.evolves))
  | fail incoming failure _ =>
      exact absurd bound (kept (Evolved.foldl_modify _ (Call.fail_evolves failure) _))
  | ignore _ _ _ => exact absurd bound (kept (.refl _))
  | answer incoming data requestId place _ _ _ =>
      exact absurd bound (kept (Evolved.modify _ place (Call.answer_evolves data)))

section Runs

variable {history : List (Transition Client ClientAction)}

theorem run_served (run : Run Client.step Client.initial history client)
    (wellFormed : ∀ transition ∈ history, transition.label.wellFormed = true) {position : Nat}
    {call : Call} (stored : client.calls[position]? = some call) :
    Served history position call := by
  induction run generalizing call with
  | nil => cases stored
  | @snoc history state label next previous stepped ih =>
      have allowed := wellFormed _ (List.mem_append_right _ (List.mem_singleton_self _))
      cases before : state.calls[position]? with
      | none =>
          exact served_of_new stepped stored (List.getElem?_eq_none_iff.mp before)
      | some earlier =>
          have served := ih (fun transition member =>
            wellFormed transition (List.mem_append_left _ member)) before
          obtain ⟨later, reached, further⟩ :=
            served.step (Mapped.of_run previous) stepped allowed before
          rw [stored] at reached
          cases reached
          exact further

/-- Identifiers are distinct; every caller is served by the first frame with its
identifier after its registration and by nothing else; a future that is done
stays as it is; stray frames change no pending request. -/
theorem responses_delivered (run : Run Client.step Client.initial history client)
    (wellFormed : ∀ transition ∈ history, transition.label.wellFormed = true) :
    (client.calls.map (·.requestId)).Nodup ∧
      (∀ position call, client.calls[position]? = some call → Served history position call) ∧
      (∀ transition ∈ history, ∀ (position : Nat) (call : Call),
        transition.source.calls[position]? = some call →
        ∃ later, transition.target.calls[position]? = some later ∧ call.Evolves later) ∧
      ∀ transition ∈ history, ∀ data,
        transition.label = .readLine (.line (some (.dict data))) →
        Stray transition.source data →
        transition.target.calls = transition.source.calls ∧
          ∀ call ∈ transition.source.calls, call.future.done = false →
            transition.target.pending.get? call.requestId =
              transition.source.pending.get? call.requestId := by
  refine ⟨(Mapped.of_run run).distinct, fun _ _ => run_served run wellFormed, ?_, ?_⟩
  · intro transition member position call stored
    obtain ⟨earlier, later, rfl⟩ := List.append_of_mem member
    obtain ⟨previous, stepped, _⟩ := run.around
    obtain ⟨⟨before, registration, since, _, _, fate⟩, _⟩ := run_served previous
      (fun moment included => wellFormed moment (List.mem_append_left _ included)) stored
    obtain ⟨after, reached, evolves, _⟩ :=
      fate.step (Mapped.of_run previous) stepped (wellFormed _ member) stored
    exact ⟨after, reached, evolves⟩
  · intro transition member data label stray
    obtain ⟨earlier, later, rfl⟩ := List.append_of_mem member
    obtain ⟨previous, stepped, _⟩ := run.around
    have allowed := wellFormed _ member
    rw [label] at stepped allowed
    exact stray.ignored (Mapped.of_run previous) stepped allowed

end Runs

/-- Two callers are answered in the other order, after an early frame for a third
one, which has been cancelled when its own arrives. -/
theorem responses_delivered_out_of_order :
    ∃ history client, Run Client.step Client.initial history client ∧
      client.calls.length = 3 ∧ (client.calls.map (·.requestId)).Nodup ∧
      ∀ position call, client.calls[position]? = some call → Served history position call := by
  obtain ⟨history, client, run, _, observed⟩ :=
    execute_observed Client.step Client.initial
      [.start, .sendRequest .listTools true, .sendRequest (.callTool "arima" []) true,
        .drained 0, .drained 1, .readLine (.line (some (.dict [("id", .int 3)]))),
        .sendRequest .listTools true, .drained 2, .cancelCall 2,
        .readLine (.line (some (.dict [("id", .int 2), ("result", .dict [])]))),
        .readLine (.line (some (.dict [("id", .int 2)]))), .resume 1,
        .readLine (.line (some (.dict [("method", .str "notifications/progress")]))),
        .readLine (.line (some (.dict [("id", .int 1), ("result", .dict [])]))), .resume 0,
        .readLine (.line (some (.dict [("id", .int 3)])))]
      (fun outcome => (outcome.2.calls.length,
        outcome.1.all fun transition => transition.label.wellFormed))
      (3, true) (by decide +kernel)
  simp only [Prod.mk.injEq, List.all_eq_true] at observed
  obtain ⟨three, wellFormed⟩ := observed
  obtain ⟨distinct, served, _⟩ := responses_delivered run wellFormed
  exact ⟨history, client, run, three, distinct, served⟩

end DurableAgent.Mcp
