import TxPkgAux.Framework.Wire
import TxPkgAux.Impl.Rtt.UdpServer

/-!
# UDP clients and a server

`Send` of `pkg/rtt/udp/Udp/UdpLink.cpp` and `WriteCallback` of `pkg/rtt/Rtt/Link.h`. The
links of clients (`ι`), each connected to one server from an endpoint of its own, and that
server, over a network that loses, copies and reorders datagrams.

A socket receives into the buffer of its link, or of the server: the bytes of a datagram for
which there is no room are lost. A client's socket is connected: it receives what the server
sends to its endpoint.
-/

namespace TX.Rtt.Udp

open Function (update)

/-- `WriteCallback`: what it makes of a buffer, and the number of bytes that it wrote. -/
structure WriteCallback where
  write : List UInt8 → List UInt8
  bytesWritten : List UInt8 → Nat
  length_write : ∀ buf, (write buf).length = buf.length
  bytesWritten_le : ∀ buf, bytesWritten buf ≤ buf.length

/-- `buf.resize`. -/
def resize (buf : List UInt8) (n : Nat) : List UInt8 := buf.take n ++ List.replicate (n - buf.length) 0

/-- The datagram that `Send` hands to the socket, if any. -/
def UdpLink.send (r : UdpLink) (maxDatagramSize : Nat) (writer : WriteCallback) : Option Datagram :=
  if r.closed then none
  else
    let buf := List.replicate maxDatagramSize 0
    if writer.bytesWritten buf = 0 then none
    else some (resize (writer.write buf) (writer.bytesWritten buf))

/-- A datagram in flight. -/
inductive UdpPacket (ι : Type) where
  /-- From a client. -/
  | toServer (i : ι) (data : Datagram)
  /-- From a link of the server, to its endpoint. -/
  | toClient (l : Nat) (dst : Endpoint) (data : Datagram)
  deriving DecidableEq

structure UdpNetwork (ι : Type) where
  server : UdpServer
  clients : ι → ConnectedLink
  wire : Wire (UdpPacket ι) := {}

inductive UdpAction (ι : Type) where
  /-- A step of a client's link, other than the arrival of a datagram. -/
  | client (i : ι) (a : LinkAction)
  /-- A step of the server; what it receives so was sent by someone else. -/
  | server (a : ServerAction)
  | clientSend (i : ι) (writer : WriteCallback)
  | serverSend (l : Nat) (writer : WriteCallback)
  /-- A datagram of a client is received by the server. -/
  | serverReceive (k : Nat)
  /-- A datagram of the server is received by a client. -/
  | clientReceive (i : ι) (k : Nat)
  | lose (k : Nat)
  | duplicate (k : Nat)

/-- The endpoints of the clients, and the `maxDatagramSize` of each client and the server. -/
structure UdpSizes (ι : Type) where
  endpoint : ι → Endpoint
  client : ι → Nat
  server : Nat

namespace UdpNetwork

variable {ι : Type} [DecidableEq ι]

def setClient (s : UdpNetwork ι) (i : ι) (c : ConnectedLink) : UdpNetwork ι :=
  { s with clients := update s.clients i c }

/-- A link hands a datagram to its socket, or none. -/
def sends (s : UdpNetwork ι) (p : Option (UdpPacket ι)) : UdpNetwork ι :=
  match p with
  | none => s
  | some p => { s with wire := s.wire.send p }

def step (u : UdpSizes ι) (s : UdpNetwork ι) : UdpAction ι → Option (UdpNetwork ι)
  | .client _ (.arrive _) => none
  | .client i a => ((s.clients i).step a).map (s.setClient i)
  | .server a => (s.server.step a).map fun v => { s with server := v }
  | .clientSend i writer =>
    some (s.sends (((s.clients i).link.send (u.client i) writer).map (.toServer i)))
  | .serverSend l writer =>
    if l < s.server.created then
      let r := s.server.objects l
      some (s.sends ((r.send u.server writer).map (.toClient l r.remoteEndpoint)))
    else none
  | .serverReceive k =>
    match s.wire.flight[k]? with
    | some (.toServer i data) =>
      (s.server.step (.receive (u.endpoint i) (data.take u.server))).map fun v =>
        { s with server := v, wire := s.wire.take k (.toServer i data) }
    | _ => none
  | .clientReceive i k =>
    match s.wire.flight[k]? with
    | some (.toClient l dst data) =>
      if dst = u.endpoint i then
        ((s.clients i).step (.arrive (data.take (u.client i)))).map fun c =>
          { s.setClient i c with wire := s.wire.take k (.toClient l dst data) }
      else none
    | _ => none
  | .lose k => some { s with wire := s.wire.lose k }
  | .duplicate k => some { s with wire := s.wire.duplicate k }

/-- Clients that are connected to the server `serverId`. -/
def lts (u : UdpSizes ι) (serverId : PeerId) : Lts (UdpNetwork ι) (UdpAction ι) where
  init := { server := { localId := serverId }, clients := fun _ => { link := { remoteId := serverId } } }
  step := step u

end UdpNetwork

end TX.Rtt.Udp
