import DurableAgent.Library.OrderedDict
import DurableAgent.Library.TransitionSystem
import DurableAgent.Python.Value

/-!
# The MCP stdio client

`mcp/client.py`: concurrent requests over the pipes of one server process, and
the background loop that reads its responses. One action is the code between
two awaits. A future is known by its position among all calls made so far.
-/

set_option autoImplicit false

namespace DurableAgent.Mcp

open Library Python

/-- What can go wrong in the read loop: the pipe, the decoding of a line, the
document of a frame, its identifier. -/
inductive ReadFailure where
  | readline
  | decoding
  | attributeError
  | typeError
  deriving DecidableEq, Repr

inductive Future where
  | pending
  | result (data : Dict)
  | exception (failure : ReadFailure)
  | cancelled

def Future.done : Future → Bool
  | .pending => false
  | _ => true

theorem Future.eq_pending {future : Future} (undone : future.done = false) :
    future = .pending := by
  cases future with
  | pending => rfl
  | result | exception | cancelled => cases undone

def Future.setResult (future : Future) (data : Dict) : Future :=
  if future.done then future else .result data

def Future.setException (future : Future) (failure : ReadFailure) : Future :=
  if future.done then future else .exception failure

def Future.cancel (future : Future) : Future :=
  if future.done then future else .cancelled

inductive Primitive where
  | listTools
  | callTool (toolName : String) (arguments : Dict)

def Primitive.method : Primitive → String
  | .listTools => "tools/list"
  | .callTool _ _ => "tools/call"

def Primitive.params : Primitive → Option Dict
  | .listTools => none
  | .callTool toolName arguments =>
      some [("name", .str toolName), ("arguments", .dict arguments)]

/-- How a `_send_request` coroutine ends. -/
inductive Ending where
  | returned (response : Dict)
  | failed (failure : ReadFailure)
  | notSerialisable
  | drainFailed
  | cancelled

inductive Phase where
  | draining
  | waiting
  | finished (ending : Ending)

/-- A `_send_request` coroutine that has registered its future. -/
structure Call where
  requestId : Int
  primitive : Primitive
  future : Future
  phase : Phase

inductive Reader where
  | absent
  | reading
  | cancelling
  | ended
  deriving DecidableEq, Repr

structure Client where
  reader : Reader
  requestId : Int
  pending : OrderedDict Int Nat
  calls : List Call
  written : List Dict

/-- What `readline` brings; a line is decoded as far as it can be. -/
inductive Incoming where
  | endOfFile
  | readlineFails
  | line (document : Option Value)

/-- The integer that a float equals; its `repr` then ends in `.0`, below the
magnitude from which exponents are written. -/
def integerOfFloat (repr : String) : Option Int :=
  match repr.toList.reverse with
  | '0' :: '.' :: digits => (String.ofList digits.reverse).toInt?
  | _ => none

/-- The key of `_pending_requests` that a value is equal to. -/
def pendingKey : Value → Except ReadFailure (Option Int)
  | .int value => .ok (some value)
  | .bool value => .ok (some (if value then 1 else 0))
  | .float repr => .ok (integerOfFloat repr)
  | .none => .ok none
  | .str _ => .ok none
  | .list _ => .error .typeError
  | .dict _ => .error .typeError

/-- `data.get("id")`. -/
def respId (data : Dict) : Value := (Dict.get? data "id").getD .none

inductive ClientAction where
  | start
  | sendRequest (primitive : Primitive) (serialisable : Bool)
  | drained (position : Nat)
  | drainFails (position : Nat)
  | resume (position : Nat)
  | cancelCall (position : Nat)
  | readLine (incoming : Incoming)
  | stop
  | readerCancelled

namespace Call

def answer (data : Dict) (call : Call) : Call :=
  { call with future := call.future.setResult data }

def fail (failure : ReadFailure) (call : Call) : Call :=
  { call with future := call.future.setException failure }

/-- `await future` on a future that is done. -/
def resume (call : Call) : Option Call :=
  match call.phase, call.future with
  | .waiting, .result data => some { call with phase := .finished (.returned data) }
  | .waiting, .exception failure => some { call with phase := .finished (.failed failure) }
  | .waiting, .cancelled => some { call with phase := .finished .cancelled }
  | _, _ => none

/-- The caller's task is cancelled; it takes its future along when it awaits it. -/
def cancel (call : Call) : Option Call :=
  match call.phase with
  | .draining => some { call with phase := .finished .cancelled }
  | .waiting => some { call with phase := .finished .cancelled, future := call.future.cancel }
  | .finished _ => none

def drained (call : Call) : Option Call :=
  match call.phase with
  | .draining => some { call with phase := .waiting }
  | _ => none

def drainFails (call : Call) : Option Call :=
  match call.phase with
  | .draining => some { call with phase := .finished .drainFailed }
  | _ => none

end Call

namespace Client

def initial : Client := ⟨.absent, 0, .empty, [], []⟩

def payload (currentId : Int) (primitive : Primitive) : Dict :=
  [("jsonrpc", .str "2.0"), ("id", .int currentId), ("method", .str primitive.method),
    ("params", .dict (primitive.params.getD []))]

/-- `_send_request` up to `drain`. `json.dumps` may refuse the arguments, after
the future has been registered. -/
def sendRequest (client : Client) (primitive : Primitive) (serialisable : Bool) : Client :=
  let currentId := client.requestId + 1
  let phase := if serialisable then .draining else .finished .notSerialisable
  { client with
    requestId := currentId
    pending := client.pending.insert currentId client.calls.length
    calls := client.calls ++ [⟨currentId, primitive, .pending, phase⟩]
    written :=
      if serialisable then client.written ++ [payload currentId primitive] else client.written }

/-- One step of the coroutine at a position. -/
def advance (client : Client) (position : Nat) (move : Call → Option Call) : Option Client :=
  match client.calls[position]? with
  | some call =>
      (move call).map fun moved => { client with calls := client.calls.set position moved }
  | none => none

/-- The handler of `_read_loop` for every exception but a cancellation. -/
def failPending (client : Client) (failure : ReadFailure) : Client :=
  { client with
    reader := .ended
    calls := client.pending.values.foldl
      (fun calls position => calls.modify position (Call.fail failure)) client.calls }

def resolve (client : Client) (requestId : Int) (data : Dict) : Client :=
  match client.pending.get? requestId with
  | some position =>
      { client with
        pending := client.pending.erase requestId
        calls := client.calls.modify position (Call.answer data) }
  | none => client

def receive (client : Client) (document : Value) : Client :=
  match document with
  | .dict data =>
      match pendingKey (respId data) with
      | .error failure => client.failPending failure
      | .ok none => client
      | .ok (some requestId) => client.resolve requestId data
  | _ => client.failPending .attributeError

/-- `_read_loop` from one `readline` to the next. -/
def readLine (client : Client) : Incoming → Client
  | .endOfFile => { client with reader := .ended }
  | .readlineFails => client.failPending .readline
  | .line none => client.failPending .decoding
  | .line (some document) => client.receive document

def step (client : Client) : ClientAction → Option Client
  | .start => if client.reader = .absent then some { client with reader := .reading } else none
  | .sendRequest primitive serialisable =>
      -- Without a process the request is refused before anything changes.
      if client.reader = .absent then some client
      else some (client.sendRequest primitive serialisable)
  | .drained position => client.advance position Call.drained
  | .drainFails position => client.advance position Call.drainFails
  | .resume position => client.advance position Call.resume
  | .cancelCall position => client.advance position Call.cancel
  | .readLine incoming => if client.reader = .reading then some (client.readLine incoming) else none
  | .stop =>
      some (if client.reader = .reading then { client with reader := .cancelling } else client)
  | .readerCancelled =>
      if client.reader = .cancelling then some { client with reader := .ended } else none

end Client

/-- The caller has been given this response. -/
def Call.Returned (call : Call) (response : Dict) : Prop :=
  call.phase = .finished (.returned response)

/-- What a step may do to a call: it keeps its identifier, a future that is done
keeps its outcome, and a caller is given the result of its own future. -/
structure Call.Evolves (before after : Call) : Prop where
  requestId : after.requestId = before.requestId
  future : before.future.done = true → after.future = before.future
  returned : ∀ response, after.Returned response →
    before.Returned response ∨ after.future = .result response

namespace Call

theorem Evolves.refl (call : Call) : Evolves call call :=
  ⟨rfl, fun _ => rfl, fun _ returned => .inl returned⟩

theorem Evolves.trans {first second third : Call} (earlier : Evolves first second)
    (later : Evolves second third) : Evolves first third where
  requestId := later.requestId.trans earlier.requestId
  future := by
    intro done
    have kept := earlier.future done
    rw [later.future (kept ▸ done), kept]
  returned := by
    intro response returned
    rcases later.returned response returned with before | result
    · rcases earlier.returned response before with first | result
      · exact .inl first
      · right
        rw [later.future (by rw [result]; rfl), result]
    · exact .inr result

theorem answer_evolves (data : Dict) (call : Call) : Evolves call (call.answer data) where
  requestId := rfl
  future := by
    intro done
    simp [answer, Future.setResult, done]
  returned _ returned := .inl returned

theorem answer_of_done (data : Dict) {call : Call} (done : call.future.done = true) :
    call.answer data = call := by
  unfold answer Future.setResult
  rw [if_pos done]

theorem answer_of_undone (data : Dict) {call : Call} (undone : call.future.done = false) :
    (call.answer data).future = .result data := by
  simp [answer, Future.setResult, undone]

theorem answer_done (data : Dict) (call : Call) : (call.answer data).future.done = true := by
  cases done : call.future.done with
  | true => rw [answer_of_done data done, done]
  | false =>
      rw [answer_of_undone data done]
      rfl

theorem fail_evolves (failure : ReadFailure) (call : Call) : Evolves call (call.fail failure) where
  requestId := rfl
  future := by
    intro done
    simp [fail, Future.setException, done]
  returned _ returned := .inl returned

theorem fail_done (failure : ReadFailure) (call : Call) :
    (call.fail failure).future.done = true := by
  unfold fail Future.setException
  dsimp only
  split
  · assumption
  · rfl

/-- A coroutine changes no future but its own, and that only by cancelling it. -/
structure Moves (call moved : Call) : Prop where
  requestId : moved.requestId = call.requestId
  future : moved.future = call.future ∨
    (call.future.done = false ∧ moved.future = .cancelled)
  returned : ∀ response, moved.Returned response → moved.future = .result response

theorem Moves.evolves {call moved : Call} (moves : Moves call moved) : Evolves call moved where
  requestId := moves.requestId
  future := by
    intro done
    rcases moves.future with same | ⟨undone, _⟩
    · exact same
    · rw [done] at undone
      cases undone
  returned response returned := .inr (moves.returned response returned)

theorem resume_moves {call moved : Call} (resumed : call.resume = some moved) :
    Moves call moved ∧ moved.future = call.future := by
  unfold resume at resumed
  split at resumed
  · next data _ result =>
      cases resumed
      refine ⟨⟨rfl, .inl rfl, ?_⟩, rfl⟩
      intro response returned
      cases returned
      exact result
  · cases resumed
    exact ⟨⟨rfl, .inl rfl, fun _ returned => nomatch returned⟩, rfl⟩
  · cases resumed
    exact ⟨⟨rfl, .inl rfl, fun _ returned => nomatch returned⟩, rfl⟩
  · cases resumed

theorem drained_moves {call moved : Call} (drained : call.drained = some moved) :
    Moves call moved ∧ moved.future = call.future := by
  unfold Call.drained at drained
  split at drained <;> cases drained
  exact ⟨⟨rfl, .inl rfl, fun _ returned => nomatch returned⟩, rfl⟩

theorem drainFails_moves {call moved : Call} (failed : call.drainFails = some moved) :
    Moves call moved ∧ moved.future = call.future := by
  unfold drainFails at failed
  split at failed <;> cases failed
  exact ⟨⟨rfl, .inl rfl, fun _ returned => nomatch returned⟩, rfl⟩

theorem cancel_moves {call moved : Call} (cancelled : call.cancel = some moved) :
    Moves call moved := by
  unfold cancel at cancelled
  split at cancelled
  · cases cancelled
    exact ⟨rfl, .inl rfl, fun _ returned => nomatch returned⟩
  · cases cancelled
    refine ⟨rfl, ?_, fun _ returned => nomatch returned⟩
    cases done : call.future.done with
    | true => exact .inl (by simp [Future.cancel, done])
    | false => exact .inr ⟨rfl, by simp [Future.cancel, done]⟩
  · cases cancelled

end Call

/-- The request identifiers number the calls, and every future that is not done
is registered under the identifier of its call. -/
structure Mapped (client : Client) : Prop where
  counter : client.requestId = client.calls.length
  numbered : ∀ (position : Nat) (call : Call), client.calls[position]? = some call →
    call.requestId = position + 1
  keys : ∀ (requestId : Int) (position : Nat), client.pending.get? requestId = some position →
    requestId = position + 1 ∧ position < client.calls.length
  registered : ∀ (position : Nat) (call : Call), client.calls[position]? = some call →
    call.future.done = false → client.pending.get? (position + 1) = some position

/-- The identifier that a response carries, as a key of `_pending_requests`. -/
def responseKey (data : Dict) : Except ReadFailure (Option Int) :=
  pendingKey (respId data)

/-- The exception that a line raises in the read loop, if any. -/
def Incoming.failure : Incoming → Option ReadFailure
  | .endOfFile => none
  | .readlineFails => some .readline
  | .line none => some .decoding
  | .line (some (.dict data)) =>
      match responseKey data with
      | .error failure => some failure
      | .ok _ => none
  | .line (some _) => some .attributeError

/-- The line is a frame with this identifier. -/
def Incoming.Carries (incoming : Incoming) (data : Dict) (requestId : Int) : Prop :=
  incoming = .line (some (.dict data)) ∧ responseKey data = .ok (some requestId)

/-- Everything one action can do. -/
inductive Effect (client : Client) : ClientAction → Client → Prop where
  | quiet {action : ClientAction} (reader : Reader) :
      (∀ incoming, action ≠ .readLine incoming) →
      (reader = .ended → client.reader = .ended) →
      Effect client action { client with reader := reader }
  | ends {action : ClientAction} :
      action = .readLine .endOfFile ∨ action = .readerCancelled →
      Effect client action { client with reader := .ended }
  | register (primitive : Primitive) (serialisable : Bool) :
      client.reader ≠ .absent →
      Effect client (.sendRequest primitive serialisable)
        (client.sendRequest primitive serialisable)
  | move {action : ClientAction} (position : Nat) (call moved : Call) :
      (∀ incoming, action ≠ .readLine incoming) →
      client.calls[position]? = some call → call.Moves moved →
      (moved.future = call.future ∨ action = .cancelCall position) →
      Effect client action { client with calls := client.calls.set position moved }
  | fail (incoming : Incoming) (failure : ReadFailure) :
      incoming.failure = some failure →
      Effect client (.readLine incoming) (client.failPending failure)
  | ignore (incoming : Incoming) :
      client.reader = .reading →
      (∀ data requestId, incoming.Carries data requestId →
        client.pending.get? requestId = none) →
      Effect client (.readLine incoming) client
  | answer (incoming : Incoming) (data : Dict) (requestId : Int) (position : Nat) :
      client.reader = .reading → incoming.Carries data requestId →
      client.pending.get? requestId = some position →
      Effect client (.readLine incoming)
        { client with
          pending := client.pending.erase requestId
          calls := client.calls.modify position (Call.answer data) }

namespace Client

variable {client next : Client}

theorem advance_effect {position : Nat} {move : Call → Option Call} {action : ClientAction}
    (notRead : ∀ incoming, action ≠ .readLine incoming)
    (moves : ∀ call moved, move call = some moved →
      call.Moves moved ∧ (moved.future = call.future ∨ action = .cancelCall position))
    (advanced : client.advance position move = some next) : Effect client action next := by
  unfold advance at advanced
  cases stored : client.calls[position]? with
  | none => simp [stored] at advanced
  | some call =>
      simp only [stored] at advanced
      obtain ⟨moved, made, rfl⟩ := Option.map_eq_some_iff.mp advanced
      obtain ⟨kept, future⟩ := moves call moved made
      exact .move position call moved notRead stored kept future

theorem readLine_effect (reading : client.reader = .reading) (incoming : Incoming) :
    Effect client (.readLine incoming) (client.readLine incoming) := by
  cases incoming with
  | endOfFile => exact .ends (.inl rfl)
  | readlineFails => exact .fail .readlineFails .readline rfl
  | line document =>
      cases document with
      | none => exact .fail (.line none) .decoding rfl
      | some document =>
          cases document with
          | dict data =>
              show Effect client _ (client.receive (.dict data))
              unfold receive
              dsimp only
              cases key : responseKey data with
              | error failure =>
                  rw [responseKey] at key
                  rw [key]
                  exact .fail _ failure (by simp [Incoming.failure, responseKey, key])
              | ok found =>
                  cases found with
                  | none =>
                      have silent := key
                      rw [responseKey] at key
                      rw [key]
                      refine .ignore _ reading ?_
                      intro other requestId carried
                      obtain ⟨same, carries⟩ := carried
                      cases same
                      rw [silent] at carries
                      cases carries
                  | some requestId =>
                      have carries := key
                      rw [responseKey] at key
                      rw [key]
                      dsimp only
                      unfold resolve
                      cases registered : client.pending.get? requestId with
                      | none =>
                          refine .ignore _ reading ?_
                          intro other carried frame
                          obtain ⟨same, again⟩ := frame
                          cases same
                          rw [carries] at again
                          cases again
                          exact registered
                      | some position =>
                          exact .answer _ data requestId position reading ⟨rfl, carries⟩ registered
          | none | bool | int | float | str | list =>
              exact .fail _ .attributeError rfl

theorem step_effect {action : ClientAction} (stepped : client.step action = some next) :
    Effect client action next := by
  cases action with
  | start =>
      simp only [step] at stepped
      split at stepped <;> cases stepped
      exact .quiet .reading (by simp) (by simp)
  | sendRequest primitive serialisable =>
      simp only [step] at stepped
      split at stepped <;> cases stepped
      · exact .quiet client.reader (by simp) id
      · next present => exact .register primitive serialisable present
  | drained position =>
      refine advance_effect (by simp) ?_ stepped
      intro call moved drained
      exact ⟨(Call.drained_moves drained).1, .inl (Call.drained_moves drained).2⟩
  | drainFails position =>
      refine advance_effect (by simp) ?_ stepped
      intro call moved failed
      exact ⟨(Call.drainFails_moves failed).1, .inl (Call.drainFails_moves failed).2⟩
  | resume position =>
      refine advance_effect (by simp) ?_ stepped
      intro call moved resumed
      exact ⟨(Call.resume_moves resumed).1, .inl (Call.resume_moves resumed).2⟩
  | cancelCall position =>
      refine advance_effect (by simp) ?_ stepped
      intro call moved cancelled
      exact ⟨Call.cancel_moves cancelled, .inr rfl⟩
  | readLine incoming =>
      simp only [step] at stepped
      split at stepped <;> cases stepped
      next reading => exact readLine_effect reading incoming
  | stop =>
      simp only [step, Option.some.injEq] at stepped
      split at stepped <;> cases stepped
      · exact .quiet .cancelling (by simp) (by simp)
      · exact .quiet client.reader (by simp) id
  | readerCancelled =>
      simp only [step] at stepped
      split at stepped <;> cases stepped
      exact .ends (.inr rfl)

end Client

/-- The calls of the second list are those of the first, further on. -/
structure Evolved (before after : List Call) : Prop where
  length : after.length = before.length
  origin : ∀ (position : Nat) (later : Call), after[position]? = some later →
    ∃ call, before[position]? = some call ∧ call.Evolves later

namespace Evolved

variable {before after : List Call}

theorem refl (calls : List Call) : Evolved calls calls :=
  ⟨rfl, fun _ call stored => ⟨call, stored, .refl call⟩⟩

theorem trans {middle : List Call} (first : Evolved before middle)
    (second : Evolved middle after) : Evolved before after where
  length := second.length.trans first.length
  origin := by
    intro position last stored
    obtain ⟨later, between, evolves⟩ := second.origin position last stored
    obtain ⟨call, earlier, evolved⟩ := first.origin position later between
    exact ⟨call, earlier, evolved.trans evolves⟩

theorem set {calls : List Call} {position : Nat} {call moved : Call}
    (stored : calls[position]? = some call) (evolves : call.Evolves moved) :
    Evolved calls (calls.set position moved) where
  length := List.length_set
  origin := by
    intro other later found
    by_cases same : position = other
    · subst other
      have bound := (List.getElem?_eq_some_iff.mp stored).1
      rw [List.getElem?_set_self bound] at found
      cases found
      exact ⟨call, stored, evolves⟩
    · rw [List.getElem?_set_ne same] at found
      exact ⟨later, found, .refl later⟩

theorem modify (calls : List Call) (position : Nat) {change : Call → Call}
    (evolves : ∀ call : Call, call.Evolves (change call)) :
    Evolved calls (calls.modify position change) where
  length := List.length_modify change calls position
  origin := by
    intro other later found
    rw [List.getElem?_modify] at found
    obtain ⟨call, stored, rfl⟩ := Option.map_eq_some_iff.mp found
    refine ⟨call, stored, ?_⟩
    split
    · exact evolves call
    · exact .refl call

theorem foldl_modify (positions : List Nat) {change : Call → Call}
    (evolves : ∀ call : Call, call.Evolves (change call)) (calls : List Call) :
    Evolved calls
      (positions.foldl (fun calls position => calls.modify position change) calls) := by
  induction positions generalizing calls with
  | nil => exact .refl calls
  | cons position rest ih => exact (modify calls position evolves).trans (ih _)

end Evolved

theorem foldl_fail_done (failure : ReadFailure) {positions : List Nat} {position : Nat}
    (listed : position ∈ positions) {calls : List Call} {later : Call}
    (stored : (positions.foldl (fun calls position =>
      calls.modify position (Call.fail failure)) calls)[position]? = some later) :
    later.future.done = true := by
  induction positions generalizing calls with
  | nil => cases listed
  | cons first rest ih =>
      rw [List.foldl_cons] at stored
      rcases List.mem_cons.mp listed with rfl | further
      · have evolved := Evolved.foldl_modify rest (Call.fail_evolves failure)
          (calls.modify position (Call.fail failure))
        obtain ⟨failed, between, evolves⟩ := evolved.origin position later stored
        rw [List.getElem?_modify_eq] at between
        obtain ⟨call, _, rfl⟩ := Option.map_eq_some_iff.mp between
        rw [evolves.future (call.fail_done failure)]
        exact call.fail_done failure
      · exact ih further stored

namespace Mapped

variable {client next : Client}

theorem initial : Mapped Client.initial := by
  constructor <;> simp [Client.initial, OrderedDict.get?]

theorem reread (mapped : Mapped client) (reader : Reader) :
    Mapped { client with reader := reader } :=
  ⟨mapped.counter, mapped.numbered, mapped.keys, mapped.registered⟩

theorem evolve (mapped : Mapped client) {calls : List Call}
    (evolved : Evolved client.calls calls) : Mapped { client with calls := calls } where
  counter := by
    rw [mapped.counter, evolved.length]
  numbered := by
    intro position later stored
    obtain ⟨call, earlier, evolves⟩ := evolved.origin position later stored
    rw [evolves.requestId]
    exact mapped.numbered position call earlier
  keys := by
    intro requestId position registered
    rw [evolved.length]
    exact mapped.keys requestId position registered
  registered := by
    intro position later stored undone
    obtain ⟨call, earlier, evolves⟩ := evolved.origin position later stored
    apply mapped.registered position call earlier
    cases done : call.future.done with
    | false => rfl
    | true =>
        rw [evolves.future done, done] at undone
        cases undone

theorem sendRequest (mapped : Mapped client) (primitive : Primitive) (serialisable : Bool) :
    Mapped (client.sendRequest primitive serialisable) where
  counter := by
    simp [Client.sendRequest, mapped.counter]
  numbered := by
    intro position call stored
    simp only [Client.sendRequest, List.getElem?_append] at stored
    split at stored
    · exact mapped.numbered position call stored
    · next beyond =>
        obtain ⟨within, same⟩ := List.getElem?_eq_some_iff.mp stored
        simp at within
        have last : position = client.calls.length := by omega
        subst last
        simp [← same, mapped.counter]
  keys := by
    intro requestId position registered
    simp only [Client.sendRequest] at registered ⊢
    by_cases new : requestId = client.requestId + 1
    · subst new
      rw [OrderedDict.get?_insert_self] at registered
      cases registered
      simp [mapped.counter]
    · rw [OrderedDict.get?_insert_of_ne _ new] at registered
      have earlier := mapped.keys requestId position registered
      simp
      omega
  registered := by
    intro position call stored undone
    simp only [Client.sendRequest, List.getElem?_append] at stored ⊢
    split at stored
    · next within =>
        have new : (position + 1 : Int) ≠ client.requestId + 1 := by
          rw [mapped.counter]
          omega
        rw [OrderedDict.get?_insert_of_ne _ new]
        exact mapped.registered position call stored undone
    · next beyond =>
        obtain ⟨within, _⟩ := List.getElem?_eq_some_iff.mp stored
        simp at within
        have last : position = client.calls.length := by omega
        rw [last, mapped.counter, OrderedDict.get?_insert_self]

theorem answer (mapped : Mapped client) {requestId : Int} {position : Nat}
    (registered : client.pending.get? requestId = some position) (data : Dict) :
    Mapped { client with
      pending := client.pending.erase requestId
      calls := client.calls.modify position (Call.answer data) } := by
  have evolved := mapped.evolve
    (Evolved.modify client.calls position (Call.answer_evolves data))
  refine ⟨evolved.counter, evolved.numbered, ?_, ?_⟩
  · intro other stored found
    have entry := OrderedDict.mem_entries_erase.mp (OrderedDict.get?_eq_some_iff.mp found)
    exact evolved.keys other stored (OrderedDict.get?_eq_some_iff.mpr entry.2)
  · intro other call stored undone
    have still := evolved.registered other call stored undone
    have different : (other + 1 : Int) ≠ requestId := by
      intro same
      rw [same] at still
      simp only [registered, Option.some.injEq] at still
      subst other
      simp only [List.getElem?_modify_eq] at stored
      obtain ⟨before, _, rfl⟩ := Option.map_eq_some_iff.mp stored
      rw [before.answer_done data] at undone
      cases undone
    dsimp only
    rw [OrderedDict.get?_erase_of_ne _ different]
    exact still

theorem step (mapped : Mapped client) {action : ClientAction}
    (stepped : client.step action = some next) : Mapped next := by
  cases Client.step_effect stepped with
  | quiet reader _ _ => exact mapped.reread reader
  | ends _ => exact mapped.reread .ended
  | register primitive serialisable _ => exact mapped.sendRequest primitive serialisable
  | move position call moved _ stored moves _ =>
      exact mapped.evolve (Evolved.set stored moves.evolves)
  | fail incoming failure _ =>
      exact (mapped.evolve (Evolved.foldl_modify _ (Call.fail_evolves failure) _)).reread .ended
  | ignore incoming _ _ => exact mapped
  | answer incoming data requestId position _ _ registered =>
      exact mapped.answer registered data

theorem of_run {history : List (Transition Client ClientAction)}
    (run : Run Client.step Client.initial history client) : Mapped client := by
  induction run with
  | nil => exact initial
  | snoc _ stepped ih => exact ih.step stepped

end Mapped

end DurableAgent.Mcp
