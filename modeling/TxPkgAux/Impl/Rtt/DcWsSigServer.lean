import TxPkgAux.Impl.Rtt.DcWsSigClient

/-!
# `DcWsSigServer`

`pkg/rtt/rtc/Rtt/Rtc/Dc/DcWsSigServer.cpp`: a server with its hub. The connections that
gave a peer id are numbered in the order of their opening, and the number of a connection
is also that of the `HubUser` its `onOpen` registers.

The callbacks run one after the other. A callback that calls into the hub runs the call
to its end (`runHub`), through the steps of the hub's model: `WsClientHandler::OnMessage`,
the factory that `onOpen` gives to `Register` and `OnLeft`, which does nothing, are the
code of the hub's callers.

A connection keeps its `WsClientHandler`, and that its user: the callbacks hold the one,
and the factory stored the other in it.

The users of the hub are those of the connections, and `dump` and `ws->send` are taken to
return normally. `SharedSigServer` is about a frame on a hub with other users, and about what
raises an exception there.
-/

namespace TX.Rtt

open Function (update)

/-- What `onMessage` is given. -/
inductive RawMessage where
  | binary
  | text (text : String)
  deriving DecidableEq

/-- What the clients and the caller of `onMessage` see. -/
inductive ServerEvent where
  /-- `ws->close()` for a client without a peer id. -/
  | refused
  /-- `ws->send`. -/
  | sent (w : ℕ) (text : String)
  /-- An exception leaves `onMessage`. -/
  | threw (w : ℕ)
  deriving DecidableEq

/-- A server. `opened` counts the connections that gave a peer id, and `connId` is that
id; `socket` is their state. `log` is newest first. -/
structure DcWsSigServer where
  hub : SigHub Unit ℕ
  opened : ℕ := 0
  connId : ℕ → PeerId := fun _ => ⟨""⟩
  socket : ℕ → WsState := fun _ => .connecting
  connections : PeerId → Option ℕ := fun _ => none
  log : List ServerEvent := []

inductive ServerAction where
  /-- A client connected, with this `ws->path()`. -/
  | onOpen (path : Option String)
  | onMessage (w : ℕ) (raw : RawMessage)
  /-- The client begins to close its connection. -/
  | closing (w : ℕ)
  /-- A connection is closed, and `onClosed` is called. -/
  | onClosed (w : ℕ)
  | disconnectPeer (peerId : PeerId)
  /-- Someone else in the process calls `Dispatch` on the hub. -/
  | dispatch (src dst : PeerId) (payload : String)

/-- The peer id of a `ws->path()`: what follows the leading `/`. -/
def connIdOf (path : Option String) : PeerId := ⟨String.ofList ((path.getD "").toList.drop 1)⟩

namespace DcWsSigServer

def emit (s : DcWsSigServer) (e : ServerEvent) : DcWsSigServer := { s with log := e :: s.log }

def withHub (s : DcWsSigServer) (hub : SigHub Unit ℕ) : DcWsSigServer := { s with hub }

/-- `WsClientHandler::OnMessage`. -/
def forward (dump : Dump) (s : DcWsSigServer) (w : ℕ) (m : SigMessage) : DcWsSigServer :=
  if s.socket w = .opened then s.emit (.sent w (dump (envelope m.src m.payload))) else s

/-- The code of the callers that the hub just called, which is its newest event. -/
def runUser (dump : Dump) (s : DcWsSigServer) : DcWsSigServer :=
  match s.hub.log with
  | .onMessage w m :: _ => s.forward dump w m
  | _ => s

/-- The call on the hub's stack runs to its end, in at most so many steps. -/
def runHub (dump : Dump) : ℕ → DcWsSigServer → Option DcWsSigServer
  | 0, s => if s.hub.stack () = [] then some s else none
  | n + 1, s =>
    match s.hub.stack () with
    | [] => some s
    | f :: _ =>
      if f.inUser then (s.hub.ret () true).bind fun hub => runHub dump n ((s.runUser dump).withHub hub)
      else (s.hub.next ()).bind fun hub => runHub dump n (s.withHub hub)

/-- A call of the hub. The longest are `Register` and `Leave`, with five steps each. -/
def call (dump : Dump) (s : DcWsSigServer) (a : SigAction Unit ℕ) : Option DcWsSigServer :=
  (s.hub.step a).bind fun hub => runHub dump 5 (s.withHub hub)

/-- `hub->Dispatch`. -/
def dispatch (dump : Dump) (s : DcWsSigServer) (src dst : PeerId) (payload : String) :
    Option DcWsSigServer :=
  runHub dump 5 (s.withHub (s.hub.setStack () [.dispatch src dst payload]))

/-- `onOpen`: `Register` makes a `HubUser` with the id. -/
def onOpen (dump : Dump) (s : DcWsSigServer) (path : Option String) : Option DcWsSigServer :=
  let connId := connIdOf path
  if connId.value = "" then some (s.emit .refused)
  else
    let w := s.opened
    let s := { s with
      opened := w + 1
      connId := update s.connId w connId
      socket := update s.socket w .opened
      hub := s.hub.setUser w { localId := connId } }
    (s.call dump (.register () w)).map fun s =>
      { s with connections := update s.connections connId (some w) }

def onMessage (parse : Parse) (dump : Dump) (s : DcWsSigServer) (w : ℕ) :
    RawMessage → Option DcWsSigServer
  | .binary => some s
  | .text text =>
    match readFrame parse text with
    | .ignored => some s
    | .threw => some (s.emit (.threw w))
    | .fields dst payload => s.dispatch dump (s.connId w) dst payload

def onClosed (dump : Dump) (s : DcWsSigServer) (w : ℕ) : Option DcWsSigServer :=
  { s with
    socket := update s.socket w .closed
    connections := update s.connections (s.connId w) none }.call dump (.leave () w)

def disconnectPeer (s : DcWsSigServer) (peerId : PeerId) : DcWsSigServer :=
  match s.connections peerId with
  | some w =>
    if s.socket w = .opened then { s with socket := update s.socket w .closing } else s
  | none => s

/-- The connection is open or about to close, so that its callbacks are called. -/
def live (s : DcWsSigServer) (w : ℕ) : Bool := s.socket w = .opened ∨ s.socket w = .closing

def step (parse : Parse) (dump : Dump) (s : DcWsSigServer) : ServerAction → Option DcWsSigServer
  | .onOpen path => s.onOpen dump path
  | .onMessage w raw => if s.live w then s.onMessage parse dump w raw else none
  | .closing w =>
    if s.socket w = .opened then some { s with socket := update s.socket w .closing } else none
  | .onClosed w => if s.live w then s.onClosed dump w else none
  | .disconnectPeer peerId => some (s.disconnectPeer peerId)
  | .dispatch src dst payload => s.dispatch dump src dst payload

/-- A server that was started, with no client yet. -/
def lts (parse : Parse) (dump : Dump) : Lts DcWsSigServer ServerAction where
  init := { hub := { users := fun _ => { localId := ⟨""⟩ } } }
  step := step parse dump

end DcWsSigServer

end TX.Rtt
