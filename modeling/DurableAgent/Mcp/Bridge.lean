import DurableAgent.Mcp.Responses

/-!
# Native tools

`mcp/bridge.py`, with what `list_tools` and `call_tool` of `mcp/client.py` make of a response.
A tool of an honest server is as good as a local function, whatever else the client is doing.
-/

set_option autoImplicit false

namespace DurableAgent.Mcp

open Library Python

/-- What can be raised to the caller of a tool; a `RuntimeError` shows the error of the
response. -/
inductive NativeError where
  | request (ending : Ending)
  | runtimeError (error : Value)
  | attributeError
  | typeError
  | keyError

/-- The response of `_send_request`, or what it has raised. -/
def Ending.response : Ending → Except NativeError Dict
  | .returned response => .ok response
  | ending => .error (.request ending)

/-- The part of a response that `call_tool` and `list_tools` go on with. -/
def resultOf (response : Dict) : Except NativeError Value :=
  match Dict.get? response "error" with
  | some error => .error (.runtimeError error)
  | none => .ok ((Dict.get? response "result").getD (.dict []))

/-- `value.get(key, default)`. -/
def getFrom (value : Value) (key : String) (default : Value) : Except NativeError Value :=
  match value with
  | .dict entries => .ok ((Dict.get? entries key).getD default)
  | _ => .error .attributeError

/-- `container[0]` of a container that is not empty. -/
def firstItem : Value → Except NativeError Value
  | .list (item :: _) => .ok item
  | .str text => .ok (.str (String.ofList (text.toList.take 1)))
  | .dict _ => .error .keyError
  | _ => .error .typeError

def listTools (ending : Ending) : Except NativeError Value := do
  let response ← ending.response
  let result ← resultOf response
  getFrom result "tools" (.list [])

def callTool (ending : Ending) : Except NativeError Value := do
  let response ← ending.response
  resultOf response

/-- A local callable, with its `__name__` and its `__doc__`. -/
structure NativeTool where
  toolName : String
  doc : Value

/-- `convert_to_native_tool`; a `__name__` must be a string. -/
def convertToNativeTool (mcpToolMeta : Dict) : Except NativeError NativeTool :=
  match Dict.get? mcpToolMeta "name" with
  | none => .error .keyError
  | some (.str toolName) => .ok ⟨toolName, (Dict.get? mcpToolMeta "description").getD (.str "")⟩
  | some _ => .error .typeError

/-- The text of the first item of the content. -/
def textOutput (mcpResult : Value) : Except NativeError Value := do
  let contentList ← getFrom mcpResult "content" (.list [])
  if contentList.truthy then
    let item ← firstItem contentList
    let kind ← getFrom item "type" .none
    if kind.isStr "text" then getFrom item "text" (.str "") else .ok (.str "")
  else .ok (.str "")

def nativeOutput (toolName : String) (mcpResult : Value) : Except NativeError Dict := do
  let rawOutput ← textOutput mcpResult
  match mcpResult with
  | .dict entries =>
      .ok [("tool_name", .str toolName), ("raw_output", rawOutput),
        ("is_success", .bool (Dict.get? entries "error").isNone)]
  | _ => .error .attributeError

namespace NativeTool

/-- The request that a call of the tool sends. -/
def call (tool : NativeTool) (arguments : Dict) : Primitive := .callTool tool.toolName arguments

/-- `native_async_wrapper`, when its request has ended. -/
def outcome (tool : NativeTool) (ending : Ending) : Except NativeError Dict := do
  let mcpResult ← callTool ending
  nativeOutput tool.toolName mcpResult

end NativeTool

/-! ## The server -/

/-- What a server computes of a method and its parameters: a result or an error. -/
abbrev Server := String → Dict → Except Value Value

def responseFrame (requestId : Int) : Except Value Value → Dict
  | .ok result => [("jsonrpc", .str "2.0"), ("id", .int requestId), ("result", result)]
  | .error error => [("jsonrpc", .str "2.0"), ("id", .int requestId), ("error", error)]

/-- A line of an honest server is a notification or answers a request that has been written
to it, at any time and any number of times. -/
inductive HonestLine (server : Server) (client : Client) : Incoming → Prop where
  | endOfFile : HonestLine server client .endOfFile
  | notification (data : Dict) :
      respId data = .none → HonestLine server client (.line (some (.dict data)))
  | response (requestId : Int) (primitive : Primitive) :
      Client.payload requestId primitive ∈ client.written →
      HonestLine server client (.line (some (.dict (responseFrame requestId
        (server primitive.method (primitive.params.getD []))))))

def Honest (server : Server) (transition : Transition Client ClientAction) : Prop :=
  ∀ incoming, transition.label = .readLine incoming →
    HonestLine server transition.source incoming

/-- The tool as a local function of what the server computes. -/
def localCall (server : Server) (tool : NativeTool) (arguments : Dict) :
    Except NativeError Dict :=
  match server "tools/call" [("name", .str tool.toolName), ("arguments", .dict arguments)] with
  | .ok mcpResult => nativeOutput tool.toolName mcpResult
  | .error error => .error (.runtimeError error)

theorem respId_responseFrame (requestId : Int) (answer : Except Value Value) :
    respId (responseFrame requestId answer) = .int requestId := by
  cases answer <;> rfl

theorem Honest.wellFormed {server : Server} {transition : Transition Client ClientAction}
    (honest : Honest server transition) : transition.label.wellFormed = true := by
  cases label : transition.label with
  | readLine incoming =>
      cases honest incoming label with
      | endOfFile => rfl
      | notification data none => simp [ClientAction.wellFormed, Incoming.wellFormed, none]
      | response requestId primitive written =>
          simp [ClientAction.wellFormed, Incoming.wellFormed, respId_responseFrame]
  | start | sendRequest | drained | drainFails | resume | cancelCall | stop | readerCancelled =>
      rfl

theorem outcome_responseFrame (server : Server) (tool : NativeTool) (arguments : Dict)
    (requestId : Int) :
    tool.outcome (.returned (responseFrame requestId
        (server (tool.call arguments).method ((tool.call arguments).params.getD [])))) =
      localCall server tool arguments := by
  have asked : server (tool.call arguments).method ((tool.call arguments).params.getD []) =
      server "tools/call" [("name", .str tool.toolName), ("arguments", .dict arguments)] := rfl
  rw [asked, localCall]
  cases server "tools/call" [("name", .str tool.toolName), ("arguments", .dict arguments)] with
  | ok mcpResult => rfl
  | error error => rfl

/-! ## What is written -/

namespace Client

/-- The identifiers and the primitives of all calls. -/
def requests (client : Client) : List (Int × Primitive) :=
  client.calls.map fun call => (call.requestId, call.primitive)

/-- What is written to the server belongs to a call. -/
def Sent (client : Client) : Prop :=
  ∀ written ∈ client.written, ∃ request ∈ client.requests,
    written = payload request.1 request.2

/-- The calls keep their identifiers and primitives, and nothing is written. -/
def SameRequests (client next : Client) : Prop :=
  next.requests = client.requests ∧ next.written = client.written

end Client

section Steps

variable {client next : Client}

theorem modify_requests (client : Client) (position : Nat) {change : Call → Call}
    (kept : ∀ call, (change call).requestId = call.requestId ∧
      (change call).primitive = call.primitive) :
    (client.calls.modify position change).map (fun call => (call.requestId, call.primitive)) =
      client.requests := by
  apply List.ext_getElem?
  intro place
  simp only [Client.requests, List.getElem?_map, List.getElem?_modify]
  cases client.calls[place]? with
  | none => rfl
  | some call =>
      by_cases here : position = place
      · simp [here, kept call]
      · simp [here]

theorem failPending_sameRequests (client : Client) (failure : ReadFailure) :
    client.SameRequests (client.failPending failure) := by
  have all : ∀ positions : List Nat, ∀ client : Client,
      (positions.foldl (fun calls position => calls.modify position (Call.fail failure))
        client.calls).map (fun call => (call.requestId, call.primitive)) = client.requests := by
    intro positions
    induction positions with
    | nil => exact fun _ => rfl
    | cons position rest ih =>
        intro client
        have first : _ = client.requests :=
          modify_requests client position fun call => (⟨rfl, rfl⟩ :
            (call.fail failure).requestId = call.requestId ∧
              (call.fail failure).primitive = call.primitive)
        exact (ih { client with
          calls := client.calls.modify position (Call.fail failure) }).trans first
  exact ⟨all _ client, rfl⟩

theorem advance_sameRequests {position : Nat} {move : Call → Option Call}
    (kept : ∀ call moved, move call = some moved →
      moved.requestId = call.requestId ∧ moved.primitive = call.primitive)
    (advanced : client.advance position move = some next) : client.SameRequests next := by
  unfold Client.advance at advanced
  cases stored : client.calls[position]? with
  | none => simp [stored] at advanced
  | some call =>
      simp only [stored] at advanced
      obtain ⟨moved, made, rfl⟩ := Option.map_eq_some_iff.mp advanced
      obtain ⟨requestId, primitive⟩ := kept call moved made
      refine ⟨?_, rfl⟩
      apply List.ext_getElem?
      intro place
      simp only [Client.requests, List.getElem?_map, List.getElem?_set]
      by_cases here : position = place
      · subst here
        obtain ⟨bound, same⟩ := List.getElem?_eq_some_iff.mp stored
        simp [bound, same, requestId, primitive]
      · simp [here]

theorem readLine_sameRequests (client : Client) (incoming : Incoming) :
    client.SameRequests (client.readLine incoming) := by
  have resolved : ∀ requestId data, client.SameRequests (client.resolve requestId data) := by
    intro requestId data
    unfold Client.resolve
    cases client.pending.get? requestId with
    | none => exact ⟨rfl, rfl⟩
    | some position =>
        exact ⟨modify_requests client position fun call => (⟨rfl, rfl⟩ :
          (call.answer data).requestId = call.requestId ∧
            (call.answer data).primitive = call.primitive), rfl⟩
  cases incoming with
  | endOfFile => exact ⟨rfl, rfl⟩
  | readlineFails => exact failPending_sameRequests client .readline
  | line document =>
      cases document with
      | none => exact failPending_sameRequests client .decoding
      | some value =>
          cases value with
          | dict data =>
              unfold Client.readLine Client.receive
              dsimp only
              cases pendingKey (respId data) with
              | error failure => exact failPending_sameRequests client failure
              | ok key =>
                  cases key with
                  | none => exact ⟨rfl, rfl⟩
                  | some requestId => exact resolved requestId data
          | none | bool | int | float | str | list =>
              exact failPending_sameRequests client .attributeError

/-- A step sends one request or none. -/
theorem step_requests {action : ClientAction} (stepped : client.step action = some next) :
    client.SameRequests next ∨
      ∃ primitive serialisable, next = client.sendRequest primitive serialisable := by
  cases action with
  | start =>
      simp only [Client.step] at stepped
      split at stepped <;> cases stepped
      exact .inl ⟨rfl, rfl⟩
  | sendRequest primitive serialisable =>
      simp only [Client.step] at stepped
      split at stepped <;> cases stepped
      · exact .inl ⟨rfl, rfl⟩
      · exact .inr ⟨primitive, serialisable, rfl⟩
  | drained position =>
      refine .inl (advance_sameRequests (fun call moved drained => ?_) stepped)
      unfold Call.drained at drained
      split at drained <;> cases drained
      exact ⟨rfl, rfl⟩
  | drainFails position =>
      refine .inl (advance_sameRequests (fun call moved failed => ?_) stepped)
      unfold Call.drainFails at failed
      split at failed <;> cases failed
      exact ⟨rfl, rfl⟩
  | resume position =>
      refine .inl (advance_sameRequests (fun call moved resumed => ?_) stepped)
      unfold Call.resume at resumed
      split at resumed <;> cases resumed <;> exact ⟨rfl, rfl⟩
  | cancelCall position =>
      refine .inl (advance_sameRequests (fun call moved cancelled => ?_) stepped)
      unfold Call.cancel at cancelled
      split at cancelled <;> cases cancelled <;> exact ⟨rfl, rfl⟩
  | readLine incoming =>
      simp only [Client.step] at stepped
      split at stepped <;> cases stepped
      exact .inl (readLine_sameRequests client incoming)
  | stop =>
      simp only [Client.step, Option.some.injEq] at stepped
      split at stepped <;> cases stepped <;> exact .inl ⟨rfl, rfl⟩
  | readerCancelled =>
      simp only [Client.step] at stepped
      split at stepped <;> cases stepped
      exact .inl ⟨rfl, rfl⟩

theorem requests_of_step {action : ClientAction}
    (stepped : client.step action = some next) : client.requests <+: next.requests := by
  rcases step_requests stepped with same | ⟨primitive, serialisable, rfl⟩
  · rw [same.1]
  · simp [Client.requests, Client.sendRequest]

theorem Client.Sent.step {action : ClientAction} (sent : client.Sent)
    (stepped : client.step action = some next) : next.Sent := by
  intro written member
  rcases step_requests stepped with same | ⟨primitive, serialisable, rfl⟩
  · rw [same.2] at member
    rw [same.1]
    exact sent written member
  · have known : ∀ request, request ∈ client.requests →
        request ∈ (client.sendRequest primitive serialisable).requests := by
      intro request earlier
      simp only [Client.requests, Client.sendRequest, List.map_append]
      exact List.mem_append_left _ earlier
    have new : (client.requestId + 1, primitive) ∈
        (client.sendRequest primitive serialisable).requests := by
      simp [Client.requests, Client.sendRequest]
    cases serialisable with
    | false =>
        obtain ⟨request, earlier, same⟩ := sent written member
        exact ⟨request, known request earlier, same⟩
    | true =>
        rcases List.mem_append.mp member with earlier | last
        · obtain ⟨request, listed, same⟩ := sent written earlier
          exact ⟨request, known request listed, same⟩
        · exact ⟨_, new, List.mem_singleton.mp last⟩

end Steps

section Runs

variable {history : List (Transition Client ClientAction)} {client : Client}

theorem run_sent (run : Run Client.step Client.initial history client) : client.Sent := by
  have base : Client.initial.Sent := by
    intro written member
    cases member
  exact run.preserves (fun _ => True) Client.Sent base
    (fun _ _ _ sent stepped _ => sent.step stepped) fun _ _ => trivial

theorem requests_of_run {start final : Client}
    (run : Run Client.step start history final) : start.requests <+: final.requests := by
  induction run with
  | nil => exact List.prefix_refl _
  | snoc previous stepped ih => exact ih.trans (requests_of_step stepped)

/-- The call to which a request belongs. -/
theorem request_of_call (mapped : Mapped client) {position : Nat} {call : Call}
    (stored : client.calls[position]? = some call) {request : Int × Primitive}
    (known : request ∈ client.requests) (same : request.1 = call.requestId) :
    request.2 = call.primitive := by
  obtain ⟨other, member, rfl⟩ := List.mem_map.mp known
  obtain ⟨place, found⟩ := List.mem_iff_getElem?.mp member
  have first := mapped.numbered place other found
  have second := mapped.numbered position call stored
  have equal : place = position := by
    dsimp only at same
    omega
  subst equal
  rw [found, Option.some.injEq] at stored
  rw [stored]

/-- However requests, responses, cancellations and failures interleave, a native tool of an
honest server that returns or raises by a response does what the local function would. -/
theorem native_tool_calls_through {server : Server}
    (run : Run Client.step Client.initial history client)
    (honest : ∀ transition ∈ history, Honest server transition) {tool : NativeTool}
    {arguments : Dict} {position : Nat} {call : Call} {response : Dict}
    (stored : client.calls[position]? = some call)
    (native : call.primitive = tool.call arguments) (returned : call.Returned response) :
    tool.outcome (.returned response) = localCall server tool arguments := by
  obtain ⟨⟨earlier, registration, later, rfl, -, fate⟩, given⟩ :=
    run_served run (fun transition member => (honest transition member).wellFormed) stored
  rw [given response returned] at fate
  obtain ⟨before, answer, after, rfl, ⟨label, identifier⟩, -⟩ := fate
  have line := honest answer (by simp) _ label
  have regrouped : earlier ++ registration :: (before ++ answer :: after) =
      (earlier ++ registration :: before) ++ answer :: after := by simp
  have mapped := Mapped.of_run run
  rw [regrouped] at run
  obtain ⟨previous, stepped, further⟩ := run.around
  cases line with
  | notification data none =>
      rw [none] at identifier
      cases identifier
  | response requestId primitive written =>
      rw [respId_responseFrame, Value.int.injEq] at identifier
      obtain ⟨request, known, same⟩ := run_sent previous _ written
      have kept := (requests_of_step stepped).trans (requests_of_run further)
      simp only [Client.payload, List.cons.injEq, Prod.mk.injEq, true_and, and_true,
        Value.int.injEq, Value.str.injEq, Value.dict.injEq] at same
      obtain ⟨numbered, method, params⟩ := same
      have asked := request_of_call mapped stored (kept.subset known)
        (numbered.symm.trans identifier)
      rw [method, params, asked, native]
      exact outcome_responseFrame server tool arguments requestId

end Runs

/-- A server with a tool for each name, and its output named after it. -/
def namingServer : Server := fun _ params =>
  match Dict.get? params "name" with
  | some (.str name) =>
      .ok (.dict [("content", .list [.dict [("type", .str "text"), ("text", .str name)]])])
  | _ => .error (.dict [("message", .str "Method not found")])

def arima : NativeTool := ⟨"arima", .str ""⟩

def garch : NativeTool := ⟨"garch", .str ""⟩

/-- The response to a call of the tool without arguments. -/
def namedResponse (requestId : Int) (tool : NativeTool) : Dict :=
  responseFrame requestId (namingServer (tool.call []).method ((tool.call []).params.getD []))

/-- The second of two calls is answered first. -/
theorem two_tools_call_through :
    ∃ history client, Run Client.step Client.initial history client ∧
      (∀ transition ∈ history, Honest namingServer transition) ∧
      ∃ call, client.calls[0]? = some call ∧ call.Returned (namedResponse 1 arima) ∧
        arima.outcome (.returned (namedResponse 1 arima)) = localCall namingServer arima [] := by
  have first : Run Client.step Client.initial [⟨.initial, .start, _⟩] _ := .snoc .nil rfl
  have second := (first.snoc
    (rfl : Client.step _ (.sendRequest (arima.call []) true) = some _)).snoc
    (rfl : Client.step _ (.sendRequest (garch.call []) true) = some _)
  have third := (second.snoc (rfl : Client.step _ (.readLine (.line (some (.dict
    (namedResponse 2 garch))))) = some _)).snoc
    (rfl : Client.step _ (.readLine (.line (some (.dict (namedResponse 1 arima))))) = some _)
  have run := (third.snoc (rfl : Client.step _ (.drained 0) = some _)).snoc
    (rfl : Client.step _ (.resume 0) = some _)
  obtain ⟨history, client, run, honest, call, stored, native, returned⟩ :
      ∃ history client, Run Client.step Client.initial history client ∧
        (∀ transition ∈ history, Honest namingServer transition) ∧
        ∃ call, client.calls[0]? = some call ∧ call.primitive = arima.call [] ∧
          call.Returned (namedResponse 1 arima) := by
    refine ⟨_, _, run, ?_, _, rfl, rfl, rfl⟩
    intro transition member incoming label
    simp only [List.mem_append, List.mem_singleton] at member
    rcases member with (((((rfl | rfl) | rfl) | rfl) | rfl) | rfl) | rfl <;> cases label
    · exact .response 2 (garch.call []) (List.mem_append_right _ (List.mem_singleton_self _))
    · exact .response 1 (arima.call []) List.mem_cons_self
  exact ⟨history, client, run, honest, call, stored, returned,
    native_tool_calls_through run honest stored native returned⟩

end DurableAgent.Mcp
