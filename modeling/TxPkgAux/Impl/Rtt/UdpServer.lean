import TxPkgAux.Impl.Rtt.UdpLink

/-!
# `UdpServer::ListenState`

`pkg/rtt/udp/Udp/UdpServer.cpp`: the receive loop, the links it made (numbered in the order
of their creation) and the dispatch map. The loop handles one datagram at a time: it is
inside the acceptor's `OnLink`, inside a handler's `onReceived`, or waits for the next one.
`Disconnect` may be called on a link at any of these points.

Datagrams are numbered too, in the order they are received.
-/

namespace TX.Rtt.Udp

/-- A link of the server, in shared mode. -/
structure SharedLink extends UdpLink where
  remoteEndpoint : Endpoint

/-- Where the receive loop is. -/
inductive Loop where
  /-- At `async_receive_from`. -/
  | waiting
  /-- In `OnReceived`, inside `acceptor->OnLink`. -/
  | inOnLink (l : Nat) (data : Datagram)
  /-- In `OnReceived`, inside `onReceived` of a handler. -/
  | inReceived (l : Nat)
  /-- An error ended it. -/
  | ended
  deriving DecidableEq

inductive ServerEvent where
  | onLink (l : Nat)
  /-- `onReceived` of the link's handler, with the datagram `n`. -/
  | onReceived (l n : Nat) (data : Datagram)
  /-- `DeliverReceived` of the datagram `n` finds the link closed, or no function. -/
  | dropped (l n : Nat)
  /-- `Disconnect` is called. -/
  | disconnect (l : Nat)
  | onDisconnected (l : Nat)
  deriving DecidableEq

/-- The state of the receive loop. `received` counts the datagrams; `source` has their sender
endpoints, and `payload` their bytes. `log` is newest first. -/
structure UdpServer where
  localId : PeerId
  links : Endpoint → Option Nat := fun _ => none
  objects : Nat → SharedLink := fun _ => { remoteId := ⟨""⟩, remoteEndpoint := ⟨0, 0⟩ }
  created : Nat := 0
  received : Nat := 0
  source : Nat → Endpoint := fun _ => ⟨0, 0⟩
  payload : Nat → Datagram := fun _ => []
  loop : Loop := .waiting
  log : List ServerEvent := []

inductive ServerAction where
  /-- A datagram is received. -/
  | receive (src : Endpoint) (data : Datagram)
  /-- `async_receive_from` completes with an error. -/
  | fail
  /-- `OnLink` returns a handler. -/
  | onLink (h : LinkHandler)
  /-- `onReceived` returns. -/
  | ret
  | disconnect (l : Nat)

namespace UdpServer

def setObject (s : UdpServer) (l : Nat) (r : SharedLink) : UdpServer :=
  { s with objects := Function.update s.objects l r }

def emit (s : UdpServer) (e : ServerEvent) : UdpServer := { s with log := e :: s.log }

/-- `DeliverReceived` of the datagram that was received last. -/
def deliverReceived (s : UdpServer) (l : Nat) (data : Datagram) : UdpServer :=
  if (s.objects l).delivers then
    { s with loop := .inReceived l }.emit (.onReceived l (s.received - 1) data)
  else { s with loop := .waiting }.emit (.dropped l (s.received - 1))

/-- A link is created and stored in `links`, and the acceptor told. -/
def create (s : UdpServer) (ep : Endpoint) (data : Datagram) : UdpServer :=
  { s with
    objects := Function.update s.objects s.created
      { remoteId := endpointToPeerId ep, remoteEndpoint := ep }
    created := s.created + 1
    links := Function.update s.links ep (some s.created)
    loop := .inOnLink s.created data }.emit (.onLink s.created)

/-- `OnReceived`, up to the first call of the callers. -/
def onReceived (s : UdpServer) (src : Endpoint) (data : Datagram) : UdpServer :=
  let s := { s with
    source := Function.update s.source s.received src
    payload := Function.update s.payload s.received data
    received := s.received + 1 }
  match s.links src with
  | some l => s.deliverReceived l data
  | none => s.create src data

/-- `Disconnect`, with the `removeFromDispatch` of the server. -/
def disconnect (s : UdpServer) (l : Nat) : UdpServer :=
  let s := s.emit (.disconnect l)
  let r := s.objects l
  if r.closed then s
  else
    let s := { s.setObject l { r with closed := true } with
      links := Function.update s.links r.remoteEndpoint none }
    if r.handler.onDisconnected then s.emit (.onDisconnected l) else s

def step (s : UdpServer) : ServerAction → Option UdpServer
  | .receive src data => if s.loop = .waiting then some (s.onReceived src data) else none
  | .fail => if s.loop = .waiting then some { s with loop := .ended } else none
  | .onLink h =>
    match s.loop with
    | .inOnLink l data =>
      some ((s.setObject l { s.objects l with handler := h }).deliverReceived l data)
    | _ => none
  | .ret =>
    match s.loop with
    | .inReceived _ => some { s with loop := .waiting }
    | _ => none
  | .disconnect l => if l < s.created then some (s.disconnect l) else none

/-- A server that listens as `localId`. -/
def lts (localId : PeerId) : Lts UdpServer ServerAction where
  init := { localId }
  step := step

end UdpServer

end TX.Rtt.Udp
