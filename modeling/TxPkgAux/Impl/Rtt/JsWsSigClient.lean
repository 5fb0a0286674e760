import TxPkgAux.Impl.Rtt.DcWsSigClient

/-!
# `JsWsSigClient`

`pkg/rtt/rtc/Rtt/Rtc/Js/JsWsSigClient.cpp`: one `Join` in the browser, with its WebSocket,
its `JsWsSigContext` and the `JsWsSigUser` that owns it. Everything runs on the event loop:
an event of the socket is one step, as the code of the callers it calls last can only call
`Leave`, or drop the user or the handler, which are steps after it. `OnOpen` goes on after
`onJoined` returned, and is two steps. `onJoined`, `OnMessage` and `OnLeft` are taken to return
normally.
-/

namespace TX.Rtt

/-- What the factory and the handler see. -/
inductive JsWsEvent where
  /-- `onJoined` with an error. -/
  | refused
  | onMessage (m : SigMessage)
  /-- `OnLeft`, with `ConnectionLost` or an empty error code. -/
  | onLeft (lost : Bool)
  deriving DecidableEq

/-- A join. `mapped` tells whether `Module._rtt_wsMap` has the socket under the context,
`joining` whether `OnOpen` is inside `onJoined`, `user` whether the `JsWsSigUser` exists,
`deleted` whether the context was deleted. `closed` is about the run: `OnClose` was called.
`log` is newest first. -/
structure JsWsSigClient where
  id : PeerId
  socket : WsState := .connecting
  mapped : Bool := true
  fired : Bool := false
  joining : Bool := false
  user : Bool := false
  deleted : Bool := false
  handler : Bool := false
  handlerAlive : Bool := true
  leaving : Bool := false
  closed : Bool := false
  log : List JsWsEvent := []

inductive JsWsAction where
  | onopen
  /-- `onJoined` returns; it supplied a live handler or not. -/
  | joined (supplied : Bool)
  | onerror
  | onclose
  /-- A frame arrives, with the `id` and `payload` that the script reads from it. -/
  | onmessage (m : SigMessage)
  | leave
  /-- The last reference to the user is dropped. -/
  | dropUser
  /-- The owner of the handler destroys it. -/
  | dropHandler

namespace JsWsSigClient

def emit (s : JsWsSigClient) (e : JsWsEvent) : JsWsSigClient := { s with log := e :: s.log }

/-- `handler.lock()` finds the handler. -/
def handlerFound (s : JsWsSigClient) : Bool := s.handler && s.handlerAlive

/-- `JsWsContext_Close`. -/
def close (s : JsWsSigClient) : JsWsSigClient :=
  if s.mapped then
    { s with
      mapped := false
      socket := if s.socket = .opened ∨ s.socket = .connecting then .closing else s.socket }
  else s

/-- `JsWsSigContext::OnError`. -/
def onError (s : JsWsSigClient) : JsWsSigClient :=
  if s.fired then s else { s with fired := true, deleted := true }.emit .refused

/-- `JsWsSigContext::OnClose`. -/
def onClose (s : JsWsSigClient) : JsWsSigClient :=
  if s.leaving then s
  else if s.handlerFound then { s with closed := true }.emit (.onLeft true)
  else { s with closed := true }

/-- `JsWsSigContext::OnMessage`. -/
def onMessage (s : JsWsSigClient) (m : SigMessage) : JsWsSigClient :=
  if s.handlerFound then s.emit (.onMessage m) else s

/-- `JsWsSigUser::Leave`. -/
def leave (s : JsWsSigClient) : JsWsSigClient :=
  if s.leaving then s
  else
    let found := s.handlerFound
    let s := { s with leaving := true }.close
    if found then s.emit (.onLeft false) else s

/-- While `onJoined` runs, the event loop handles no event. -/
def step (s : JsWsSigClient) : JsWsAction → Option JsWsSigClient
  | .onopen =>
    if s.socket = .connecting ∧ s.fired = false then
      some { s with socket := .opened, fired := true, user := true, joining := true }
    else none
  | .joined supplied =>
    if s.joining ∧ s.deleted = false then some { s with joining := false, handler := supplied } else none
  | .onerror =>
    if s.joining = false ∧ s.socket ≠ .closed then
      some (if s.mapped then { s with socket := .closed, mapped := false }.onError
        else { s with socket := .closed })
    else none
  | .onclose =>
    if s.joining = false then
      some (if s.mapped then { s with socket := .closed, mapped := false }.onClose
        else { s with socket := .closed })
    else none
  | .onmessage m =>
    if s.joining = false ∧ (s.socket = .opened ∨ s.socket = .closing) then
      some (if s.mapped then s.onMessage m else s)
    else none
  | .leave => if s.user ∧ s.deleted = false then some s.leave else none
  | .dropUser =>
    if s.user ∧ s.deleted = false then some { s.close with deleted := true } else none
  | .dropHandler => some { s with handlerAlive := false }

/-- The join of the peer `id`. -/
def lts (id : PeerId) : Lts JsWsSigClient JsWsAction where
  init := { id }
  step := step

end JsWsSigClient

end TX.Rtt
