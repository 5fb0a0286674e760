import TxPkgAux.Impl.Rtt.SigHub

/-!
# `DcWsSigClient`

`pkg/rtt/rtc/Rtt/Rtc/Dc/DcWsSigClient.cpp`: one `Join`, with its WebSocket, the
`DcWsSigUser` it makes and the callbacks it registers. libdatachannel calls `onOpen`,
`onMessage` and `onClosed` from its threads, one `onMessage` at a time; the callers may
call `Leave` and `Send` from anywhere, also inside a callback.

`_handlerMutex` is held by `Deliver` from its lock to the end of `OnMessage`; the
critical section of `SetHandler` is one step, which waits for it. `NotifyClosed` does
not take it.

`onJoined`, `OnMessage` and `OnLeft` are taken to return normally. An exception in the replay
of `onOpenNext` would leave `onOpen`, and the rest of what was taken from `_pending` would be
lost.
-/

namespace TX.Rtt

/-- `rtc::WebSocket::State`; `isOpen()` is `opened`. -/
inductive WsState where
  | connecting | opened | closing | closed
  deriving DecidableEq

/-- Where `onOpen` is, with the `SetHandler` it ends in. -/
inductive OnOpenPc where
  /-- Inside `onJoined`. -/
  | joining
  /-- At the `lock_guard` of `SetHandler`; the factory returned a live handler or not. -/
  | locking (supplied : Bool)
  /-- At `_handler.lock()`, with what was taken from `_pending`. -/
  | checking (pending : List SigMessage)
  /-- In the loop over it. -/
  | replaying (rest : List SigMessage)
  deriving DecidableEq

/-- Where `Leave` is, past its `_leaving.exchange`. -/
inductive WsLeavePc where
  /-- At `_ws->isOpen()`. -/
  | checking
  /-- In `NotifyClosed`, at `_handler.lock()`. -/
  | notifying
  deriving DecidableEq

/-- Where `onClosed` is. -/
inductive OnClosedPc where
  /-- Not called yet. -/
  | idle
  /-- In `NotifyClosed`, at `_handler.lock()`. -/
  | notifying
  /-- Returned; it notified a handler or not. -/
  | returned (notified : Bool)
  deriving DecidableEq

/-- What the factory, the handler, the socket and the caller of `onMessage` see. -/
inductive WsEvent where
  /-- `onJoined` with an error. -/
  | refused
  /-- `Deliver` is called. -/
  | passed (m : SigMessage)
  | onMessage (m : SigMessage)
  /-- `OnLeft`, with `ConnectionLost` or an empty error code. -/
  | onLeft (lost : Bool)
  /-- `ws->send` of an envelope. -/
  | sent (dst : PeerId) (payload : String)
  /-- An exception leaves `onMessage`. -/
  | threw
  deriving DecidableEq

/-- A join. `user` tells whether the `DcWsSigUser` was made, `held` whether the callers
refer to it, `handler` whether `_handler` is bound, `handlerAlive` whether the object
behind it is alive. `log` is newest first. -/
structure DcWsSigClient where
  id : PeerId
  socket : WsState := .connecting
  fired : Bool := false
  user : Bool := false
  held : Bool := false
  handler : Bool := false
  handlerAlive : Bool := true
  pending : List SigMessage := []
  leaving : Bool := false
  onOpen : Option OnOpenPc := none
  deliver : Option (SigMessage × DeliverPc) := none
  leave : Option WsLeavePc := none
  onClosed : OnClosedPc := .idle
  log : List WsEvent := []

inductive WsAction where
  /-- The socket opens. -/
  | opened
  | onOpen
  | onError
  /-- The server begins to close the connection. -/
  | closing
  /-- The connection is closed, and `onClosed` is called. -/
  | onClosed
  /-- A text frame arrives. -/
  | onMessage (text : String)
  /-- `onJoined` returns; it supplied a live handler or not. -/
  | joined (supplied : Bool)
  /-- The next step of `onOpen`. -/
  | onOpenNext
  /-- The next step of `Deliver`. -/
  | deliverNext
  /-- The next step of `onClosed`. -/
  | onClosedNext
  | leave
  /-- The next step of the `Leave` that is past its exchange. -/
  | leaveNext
  | send (dst : PeerId) (payload : String)
  /-- The callers drop the user. -/
  | dropUser
  /-- The owner of the handler destroys it. -/
  | dropHandler

namespace DcWsSigClient

def emit (s : DcWsSigClient) (e : WsEvent) : DcWsSigClient := { s with log := e :: s.log }

/-- `sharedUser->lock()` finds the user: the callers or a call refer to it. -/
def userAlive (s : DcWsSigClient) : Bool :=
  s.user ∧ (s.held ∨ s.onOpen.isSome ∨ s.deliver.isSome ∨ s.leave.isSome ∨ s.onClosed = .notifying)

/-- `_handlerMutex` is free. -/
def unlocked (s : DcWsSigClient) : Bool :=
  match s.deliver with
  | some (_, .locked) | some (_, .inMessage) => false
  | _ => true

/-- `_handler.lock()` finds the handler. -/
def handlerFound (s : DcWsSigClient) : Bool := s.handler && s.handlerAlive

/-- A reference to the user was dropped: `~DcWsSigUser` closes the socket. -/
def release (s : DcWsSigClient) : DcWsSigClient :=
  if s.user ∧ s.userAlive = false ∧ s.socket = .opened then { s with socket := .closing } else s

/-- `h->OnLeft`. -/
def notify (s : DcWsSigClient) : DcWsSigClient := s.emit (.onLeft (!s.leaving))

/-- `onMessage`, up to the `lock_guard` of `Deliver`. -/
def onMessage (parse : Parse) (s : DcWsSigClient) (text : String) : DcWsSigClient :=
  if s.userAlive then
    match readFrame parse text with
    | .ignored => s
    | .threw => s.emit .threw
    | .fields id payload =>
      { s with deliver := some (⟨id, payload⟩, .locking) }.emit (.passed ⟨id, payload⟩)
  else s

/-- The next step of `onOpen`. -/
def onOpenNext (s : DcWsSigClient) : Option DcWsSigClient :=
  match s.onOpen with
  | none | some .joining => none
  | some (.locking supplied) =>
    if s.unlocked then
      some { s with handler := supplied, pending := [], onOpen := some (.checking s.pending) }
    else none
  | some (.checking pending) =>
    some (if s.handlerFound then { s with onOpen := some (.replaying pending) }
      else { s with onOpen := none }.release)
  | some (.replaying []) => some { s with onOpen := none }.release
  | some (.replaying (m :: rest)) => some ({ s with onOpen := some (.replaying rest) }.emit (.onMessage m))

/-- The next step of `Deliver`. -/
def deliverNext (s : DcWsSigClient) : Option DcWsSigClient :=
  match s.deliver with
  | none => none
  | some (m, .locking) => some { s with deliver := some (m, .locked) }
  | some (m, .locked) =>
    some (if s.handlerFound then { s with deliver := some (m, .inMessage) }.emit (.onMessage m)
      else { s with pending := s.pending ++ [m], deliver := none }.release)
  | some (_, .inMessage) => some { s with deliver := none }.release

/-- The next step of `onClosed`. -/
def onClosedNext (s : DcWsSigClient) : Option DcWsSigClient :=
  match s.onClosed with
  | .notifying =>
    some (if s.handlerFound then { s with onClosed := .returned true }.notify
      else { s with onClosed := .returned false })
  | .idle | .returned _ => none

/-- The next step of `Leave`. -/
def leaveNext (s : DcWsSigClient) : Option DcWsSigClient :=
  match s.leave with
  | none => none
  | some .checking =>
    some (if s.socket = .opened then { s with socket := .closing, leave := none }
      else { s with leave := some .notifying })
  | some .notifying =>
    some (if s.handlerFound then { s with leave := none }.notify else { s with leave := none })

def step (parse : Parse) (s : DcWsSigClient) : WsAction → Option DcWsSigClient
  | .opened => if s.socket = .connecting then some { s with socket := .opened } else none
  | .onOpen =>
    if s.socket ≠ .connecting then
      some (if s.fired then s
        else { s with fired := true, user := true, held := true, onOpen := some .joining })
    else none
  | .onError => some (if s.fired then s else { s with fired := true }.emit .refused)
  | .closing => if s.socket = .opened then some { s with socket := .closing } else none
  | .onClosed =>
    if s.socket ≠ .closed then
      some { s with
        socket := .closed
        onClosed := if s.userAlive then .notifying else .returned false }
    else none
  | .onMessage text =>
    if (s.socket = .opened ∨ s.socket = .closing) ∧ s.deliver = none then some (s.onMessage parse text)
    else none
  | .joined supplied =>
    if s.onOpen = some .joining then some { s with onOpen := some (.locking supplied) } else none
  | .onOpenNext => s.onOpenNext
  | .deliverNext => s.deliverNext
  | .onClosedNext => s.onClosedNext
  | .leave =>
    if s.user ∧ s.held then
      some (if s.leaving then s else { s with leaving := true, leave := some .checking })
    else none
  | .leaveNext => s.leaveNext
  | .send dst payload =>
    if s.user ∧ s.held then some (if s.socket = .opened then s.emit (.sent dst payload) else s)
    else none
  | .dropUser => if s.held then some { s with held := false }.release else none
  | .dropHandler => some { s with handlerAlive := false }

/-- The join of the peer `id`. -/
def lts (parse : Parse) (id : PeerId) : Lts DcWsSigClient WsAction where
  init := { id }
  step := step parse

end DcWsSigClient

end TX.Rtt
