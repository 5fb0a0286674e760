import TxPkgAux.Impl.Rtt.RtcNetwork
import TxPkgAux.Impl.Rtt.WsSignaling

/-!
# Transports that signal over WebSocket

Each transport (`ι`) joins through a `DcWsSigClient` of its own, as `Open` of
`DcRtcTransport.cpp` does it: the callbacks of the client call `onJoined`, `OnMessage` and
`OnLeft` of the transport, and those of the peer connections call `Send` of the client's
user. The state is the only one that keeps the user, and nobody calls `Leave`.

A call of the client is a call of the transport in one step with it, and the client may go
on before that returns, except that `SetHandler` waits for `onJoined`.
-/

namespace TX.Rtt

open Function (update)

variable {ι τ : Type} [DecidableEq ι] [DecidableEq τ]

/-- What a client calls of its transport, in the thread `t`. -/
def WsEvent.call (t : τ) : WsEvent → Option (DcAction τ)
  | .refused => some (.joined t (some .connectionRefused))
  | .onMessage m => some (.onMessage t m)
  | .onLeft lost => some (.onLeft lost)
  | .passed _ | .sent _ _ | .threw => none

/-- What a client calls in a step from `c` to `c'`: `onOpen` calls `onJoined` with the user that
it made. -/
def DcWsSigClient.calls (c c' : DcWsSigClient) (t : τ) : Option (DcAction τ) :=
  if c.user = false ∧ c'.user = true then some (.joined t none)
  else if c'.log.length = c.log.length then none
  else c'.log.head?.bind (WsEvent.call t)

/-- The transport is called through a `weak_ptr` to its state. -/
def DcRtcTransport.called (parse : Parse) (n : DcRtcTransport τ) (a : Option (DcAction τ)) :
    Option (DcRtcTransport τ) :=
  match a with
  | none => some n
  | some a => if n.alive then n.step parse a else some n

/-- The steps that a client takes with its transport as it is. `onJoined` has returned, and
supplies the state unless that was gone. -/
def DcRtcTransport.lets (n : DcRtcTransport τ) : WsAction → Bool
  | .joined supplied => supplied = n.joined ∧ (supplied → n.handling)
  | .opened | .onOpen | .onError | .closing | .onClosed | .onOpenNext | .deliverNext | .onClosedNext => true
  | .onMessage _ | .leave | .leaveNext | .send _ _ | .dropUser | .dropHandler => false

/-- `SetHandler` refers to the handler while it replays. -/
def DcWsSigClient.refers (c : DcWsSigClient) : Bool :=
  match c.onOpen with
  | some (.replaying _) => true
  | _ => false

structure RtcStack (ι τ : Type) where
  signaling : WsSignaling ι
  nodes : ι → DcRtcTransport τ
  sent : List (Packet ι) := []

inductive StackAction (ι τ : Type) where
  /-- A step of the server, or of a connection. -/
  | signaling (a : SigNetAction ι)
  /-- A step of a client, with the call that it makes in the thread `t`. -/
  | client (t : τ) (i : ι) (a : WsAction)
  /-- A step of a transport that its client does not make it take. -/
  | node (i : ι) (a : DcAction τ)
  /-- The peer connection of a link reports something. -/
  | report (i : ι) (l : Nat) (e : LocalEvent)

namespace RtcStack

/-- The state of a transport is gone, and with it the handler and the reference to the user. -/
def abandon (parse : Parse) (dump : Dump) (g : WsSignaling ι) (i : ι) : Option (WsSignaling ι) :=
  (g.step parse dump (.client i .dropHandler)).bind fun g =>
    if (g.clients i).held then g.step parse dump (.client i .dropUser) else some g

def setNode (parse : Parse) (dump : Dump) (s : RtcStack ι τ) (i : ι) (n : DcRtcTransport τ) :
    Option (RtcStack ι τ) :=
  if n.alive then some { s with nodes := update s.nodes i n }
  else (abandon parse dump s.signaling i).map fun g =>
    { s with signaling := g, nodes := update s.nodes i n }

/-- `su->Send`; a call may keep the user when its transport is gone. -/
def send (parse : Parse) (dump : Dump) (s : RtcStack ι τ) (p : Packet ι) : Option (RtcStack ι τ) :=
  let payload := dump p.event.payload
  let a := if (s.signaling.clients p.node).held then .client p.node (.send p.dst payload)
    else .write p.node (dump (envelope p.dst payload))
  (s.signaling.step parse dump a).map fun g => { s with signaling := g, sent := p :: s.sent }

def step (parse : Parse) (dump : Dump) (s : RtcStack ι τ) : StackAction ι τ → Option (RtcStack ι τ)
  | .signaling (.client _ _) | .signaling (.write _ _) => none
  | .signaling a => (s.signaling.step parse dump a).map fun g => { s with signaling := g }
  | .client t i a =>
    if (s.nodes i).lets a then
      (s.signaling.step parse dump (.client i a)).bind fun g =>
        ((s.nodes i).called parse ((s.signaling.clients i).calls (g.clients i) t)).bind fun n =>
          { s with signaling := g }.setNode parse dump i n
    else none
  | .node _ (.joined _ _) | .node _ (.onMessage _ _) | .node _ (.onLeft _) => none
  | .node i .destroy =>
    if (s.signaling.clients i).refers then none
    else ((s.nodes i).step parse .destroy).bind fun n => s.setNode parse dump i n
  | .node i a => ((s.nodes i).step parse a).bind fun n => s.setNode parse dump i n
  | .report i l e =>
    if l < (s.nodes i).created then
      let c := s.signaling.clients i
      if c.userAlive ∧ c.socket = .opened then
        s.send parse dump ⟨i, l, ((s.nodes i).links l).remoteId, e⟩
      else some s
    else none

/-- Transports with the ids `ids`, and with the options `remote` and `max`. -/
def lts (τ : Type) [DecidableEq τ] (parse : Parse) (dump : Dump) (ids remote : ι → PeerId) (max : ι → Nat) :
    Lts (RtcStack ι τ) (StackAction ι τ) where
  init := {
    signaling := (WsSignaling.lts parse dump ids).init
    nodes := fun i => { remoteId := remote i, maxInboundConnections := max i } }
  step := step parse dump

end RtcStack

end TX.Rtt
