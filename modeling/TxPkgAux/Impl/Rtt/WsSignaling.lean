import TxPkgAux.Impl.Rtt.DcWsSigServer

/-!
# Signaling over WebSocket

Peers (`ι`) that join through `DcWsSigClient` to one `DcWsSigServer`, each once and under
its own id, with their connections. A connection hands its frames over in order and exactly
once: `up` are the frames of a client that the server is yet to handle, and a client is
given the frames that were sent on its connection one after the other, `received` of them
so far.

The two ends of a connection open and close on their own. A client may also write any text
of its own to its connection. As for the client and the server on their own, the `OnMessage`,
`OnLeft` and `onJoined` of the peers are taken to return normally.
-/

namespace TX.Rtt

open Function (update)

/-- What happens on the server's side of the connections. -/
inductive SigEvent (ι : Type) where
  /-- The server's `onOpen` registered the peer. -/
  | accepted (i : ι)
  /-- The client wrote a frame. -/
  | wrote (i : ι) (text : String)
  /-- The server's `onMessage` was called with a frame of the client. -/
  | handled (i : ι) (text : String)
  deriving DecidableEq

/-- The server, the clients and their connections; `conn` is the server's number of a
peer's connection. `history` is newest first. -/
structure WsSignaling (ι : Type) where
  server : DcWsSigServer
  clients : ι → DcWsSigClient
  conn : ι → Option ℕ := fun _ => none
  up : ι → List String := fun _ => []
  received : ι → ℕ := fun _ => 0
  history : List (SigEvent ι) := []

inductive SigNetAction (ι : Type) where
  /-- The connection of a peer opens at the server. -/
  | accept (i : ι)
  /-- A step of a client, other than the arrival of a frame. -/
  | client (i : ι) (a : WsAction)
  /-- A client writes a text of its own to its connection. -/
  | write (i : ι) (text : String)
  /-- The server is given the next frame of a client. -/
  | serverFrame (i : ι)
  /-- A client is given the next frame of the server. -/
  | clientFrame (i : ι)
  /-- A connection begins to close at the server. -/
  | closing (i : ι)
  /-- A connection is closed at the server. -/
  | onClosed (i : ι)
  | disconnectPeer (peerId : PeerId)

def ServerEvent.sentOn (w : ℕ) : ServerEvent → Option String
  | .sent w' text => if w' = w then some text else none
  | _ => none

/-- The frames sent on a connection, in order. -/
def DcWsSigServer.sentOn (s : DcWsSigServer) (w : ℕ) : List String :=
  (s.log.filterMap (ServerEvent.sentOn w)).reverse

namespace WsSignaling

variable {ι : Type} [DecidableEq ι]

/-- The frames that a step of a client sends: that of `Send`. -/
def frames (dump : Dump) (c : DcWsSigClient) : WsAction → List String
  | .send dst payload => if c.socket = .opened then [dump (envelope dst payload)] else []
  | _ => []

/-- A client writes frames. -/
def wrote (s : WsSignaling ι) (i : ι) (texts : List String) : WsSignaling ι :=
  { s with
    up := update s.up i (s.up i ++ texts)
    history := (texts.map (SigEvent.wrote i)).reverse ++ s.history }

/-- The server's `onOpen`, with the path that the client's URL has. -/
def accept (dump : Dump) (s : WsSignaling ι) (i : ι) : Option (WsSignaling ι) :=
  let id := (s.clients i).id
  (s.server.onOpen dump (some ("/" ++ id.value))).map fun server =>
    if id.value = "" then { s with server }
    else { s with
      server
      conn := update s.conn i (some s.server.opened)
      history := .accepted i :: s.history }

def serverFrame (parse : Parse) (dump : Dump) (s : WsSignaling ι) (i : ι) : Option (WsSignaling ι) :=
  match s.conn i, s.up i with
  | some w, text :: rest =>
    (s.server.step parse dump (.onMessage w (.text text))).map fun server =>
      { s with server, up := update s.up i rest, history := .handled i text :: s.history }
  | _, _ => none

def clientFrame (parse : Parse) (s : WsSignaling ι) (i : ι) : Option (WsSignaling ι) :=
  match s.conn i with
  | some w =>
    match (s.server.sentOn w)[s.received i]? with
    | some text =>
      ((s.clients i).step parse (.onMessage text)).map fun c =>
        { s with
          clients := update s.clients i c
          received := update s.received i (s.received i + 1) }
    | none => none
  | none => none

/-- A step of the server on the connection of a peer. -/
def serverStep (parse : Parse) (dump : Dump) (s : WsSignaling ι) (i : ι) (a : ℕ → ServerAction) :
    Option (WsSignaling ι) :=
  match s.conn i with
  | some w => (s.server.step parse dump (a w)).map fun server => { s with server }
  | none => none

def step (parse : Parse) (dump : Dump) (s : WsSignaling ι) : SigNetAction ι → Option (WsSignaling ι)
  | .accept i => if s.conn i = none then s.accept dump i else none
  | .client _ (.onMessage _) => none
  | .client i a =>
    ((s.clients i).step parse a).map fun c =>
      { s with clients := update s.clients i c }.wrote i (frames dump (s.clients i) a)
  | .write i text => if (s.clients i).socket = .opened then some (s.wrote i [text]) else none
  | .serverFrame i => s.serverFrame parse dump i
  | .clientFrame i => s.clientFrame parse i
  | .closing i => s.serverStep parse dump i .closing
  | .onClosed i => s.serverStep parse dump i .onClosed
  | .disconnectPeer peerId => some { s with server := s.server.disconnectPeer peerId }

/-- The joins of the peers with the ids `id`, to a server that was started. -/
def lts (parse : Parse) (dump : Dump) (id : ι → PeerId) : Lts (WsSignaling ι) (SigNetAction ι) where
  init := {
    server := (DcWsSigServer.lts parse dump).init
    clients := fun i => (DcWsSigClient.lts parse (id i)).init }
  step := step parse dump

end WsSignaling

end TX.Rtt
