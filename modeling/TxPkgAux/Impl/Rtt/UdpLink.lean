import TxPkgAux.Framework.Lts
import TxPkgAux.Impl.Rtt.Signaling

/-!
# `UdpLink`

`pkg/rtt/udp/Udp/{UdpCommon.h,UdpLink.h,UdpLink.cpp}`: the fields and critical checks of a
link in either mode, and a link in connected mode (`ConnectedLink`) with the receive loop
that it runs on its own socket. A link in shared mode gets its datagrams from `UdpServer`.

asio runs the completion handlers one after the other. The operation that `DoReceive`
started completes when a datagram arrives or the socket is closed; its handler runs some
time after, and the code of the callers it calls may call `Disconnect`.
-/

namespace TX.Rtt.Udp

/-- `udp::endpoint` of an IPv4 socket. -/
structure Endpoint where
  address : BitVec 32
  port : UInt16
  deriving DecidableEq

/-- The octet `i` of an address, from the left. -/
def octet (address : BitVec 32) (i : Nat) : String :=
  toString (address.extractLsb' (8 * (3 - i)) 8).toNat

/-- `EndpointToPeerId`. -/
def endpointToPeerId (ep : Endpoint) : PeerId :=
  ⟨octet ep.address 0 ++ "." ++ octet ep.address 1 ++ "." ++ octet ep.address 2 ++ "." ++
    octet ep.address 3 ++ ":" ++ toString ep.port.toNat⟩

/-- The payload of a datagram. -/
abbrev Datagram := List UInt8

/-- `LinkHandler`: which of its callbacks are functions. -/
structure LinkHandler where
  onReceived : Bool := false
  onDisconnected : Bool := false
  deriving DecidableEq

/-- `UdpLink`, in either mode. -/
structure UdpLink where
  remoteId : PeerId
  handler : LinkHandler := {}
  closed : Bool := false

namespace UdpLink

/-- `SetHandler`. -/
def setHandler (r : UdpLink) (h : LinkHandler) : UdpLink := { r with handler := h }

/-- `DeliverReceived` calls the handler. -/
def delivers (r : UdpLink) : Bool := !r.closed && r.handler.onReceived

end UdpLink

/-! ## Connected mode -/

/-- The operation of `DoReceive`. -/
inductive Receive where
  /-- There is none. -/
  | idle
  /-- It waits for a datagram. -/
  | waiting
  /-- Its handler is queued, with a datagram. -/
  | queued (data : Datagram)
  /-- Its handler is queued, with an error. -/
  | failed
  /-- Its handler is inside `onReceived`. -/
  | inReceived
  deriving DecidableEq

inductive LinkEvent where
  /-- `Disconnect` is called. -/
  | disconnect
  | onDisconnected
  | onReceived (data : Datagram)
  deriving DecidableEq

/-- A link in connected mode. `started` tells whether `StartReceive` was called. `log` is
newest first. -/
structure ConnectedLink where
  link : UdpLink
  started : Bool := false
  receive : Receive := .idle
  log : List LinkEvent := []

inductive LinkAction where
  /-- `OnLink` returned, and `StartReceive` is called with its handler. -/
  | startReceive (h : LinkHandler)
  /-- A datagram arrives. -/
  | arrive (data : Datagram)
  /-- The operation fails. -/
  | fail
  /-- The queued handler runs, up to `onReceived`. -/
  | complete
  /-- `onReceived` returns. -/
  | ret
  | disconnect

namespace ConnectedLink

def emit (s : ConnectedLink) (e : LinkEvent) : ConnectedLink := { s with log := e :: s.log }

/-- `DoReceive`. -/
def doReceive (s : ConnectedLink) : ConnectedLink :=
  { s with receive := if s.link.closed then .idle else .waiting }

/-- `Disconnect`: closing the socket makes a waiting operation fail. -/
def disconnect (s : ConnectedLink) : ConnectedLink :=
  let s := s.emit .disconnect
  if s.link.closed then s
  else
    let s := { s with
      link := { s.link with closed := true }
      receive := if s.receive = Receive.waiting then .failed else s.receive }
    if s.link.handler.onDisconnected then s.emit .onDisconnected else s

/-- The completion handler of `DoReceive`. -/
def complete (s : ConnectedLink) : Option ConnectedLink :=
  match s.receive with
  | .failed =>
    let s := { s with receive := .idle }
    some (if s.link.closed then s else s.disconnect)
  | .queued data =>
    some (if s.link.handler.onReceived then { s with receive := .inReceived }.emit (.onReceived data)
      else s.doReceive)
  | .idle | .waiting | .inReceived => none

def step (s : ConnectedLink) : LinkAction → Option ConnectedLink
  | .startReceive h =>
    if s.started then none
    else some { s with started := true, link := s.link.setHandler h }.doReceive
  | .arrive data => if s.receive = .waiting then some { s with receive := .queued data } else none
  | .fail => if s.receive = .waiting then some { s with receive := .failed } else none
  | .complete => s.complete
  | .ret => if s.receive = .inReceived then some s.doReceive else none
  | .disconnect => some s.disconnect

/-- A link to `remoteId`, as `UdpClient` makes it. -/
def lts (remoteId : PeerId) : Lts ConnectedLink LinkAction where
  init := { link := { remoteId } }
  step := step

end ConnectedLink

end TX.Rtt.Udp
