import TxPkgAux.Framework.Wire
import TxPkgAux.Impl.Rtt.DcRtcTransport

/-!
# Transports that negotiate with each other

The other half of a `DcRtcLink`: its constructor gives the peer connection two callbacks,
which send what it reports to `remoteId` (`LocalEvent.payload`). Here transports (`ι`), each
under its own id, send each other what their peer connections report. The signaling service
between them hands a message over under its sender's id, in any order, or loses it, or
hands it over again.

libdatachannel is the environment: any peer connection reports descriptions and candidates
of any text.
-/

namespace TX.Rtt

open Function (update)

/-- `rtc::Description::typeString`. -/
def DescriptionType.typeString : DescriptionType → String
  | .offer => "offer"
  | .answer => "answer"

/-- What a peer connection reports to the callbacks of the constructor. -/
inductive LocalEvent where
  /-- `onLocalDescription`. -/
  | description (type : DescriptionType) (sdp : String)
  /-- `onLocalCandidate`. -/
  | candidate (c : Candidate)
  deriving DecidableEq

/-- The fields of the payload, in the order in which `json` keeps them. -/
def LocalEvent.fields : LocalEvent → List (String × String)
  | .description type sdp => [("description", sdp), ("type", type.typeString)]
  | .candidate c => [("candidate", c.candidate), ("mid", c.mid), ("type", "candidate")]

/-- An object with string fields. -/
def Json.ofFields (fields : List (String × String)) : Json :=
  .object (fields.map fun f => (f.1, .string f.2))

/-- The payload that the callback sends. -/
def LocalEvent.payload (e : LocalEvent) : Json := .ofFields e.fields

/-- What a link of the transport `node` sends to `dst`. -/
structure Packet (ι : Type) where
  node : ι
  link : Nat
  dst : PeerId
  event : LocalEvent
  deriving DecidableEq

structure RtcNetwork (ι τ : Type) where
  nodes : ι → DcRtcTransport τ
  wire : Wire (Packet ι) := {}

inductive RtcAction (ι τ : Type) where
  /-- A step of a transport, other than the arrival of a message. -/
  | node (i : ι) (a : DcAction τ)
  /-- The peer connection of a link reports something. -/
  | report (i : ι) (l : Nat) (e : LocalEvent)
  /-- `OnMessage` is called with a message in flight. -/
  | arrive (i : ι) (t : τ) (k : Nat)
  | lose (k : Nat)
  | duplicate (k : Nat)

namespace RtcNetwork

variable {ι τ : Type} [DecidableEq ι] [DecidableEq τ]

def setNode (s : RtcNetwork ι τ) (i : ι) (n : DcRtcTransport τ) : RtcNetwork ι τ :=
  { s with nodes := update s.nodes i n }

/-- The message that the signaling client of the receiver makes of a packet. -/
def message (dump : Dump) (ids : ι → PeerId) (p : Packet ι) : SigMessage :=
  ⟨ids p.node, dump p.event.payload⟩

def step (parse : Parse) (dump : Dump) (ids : ι → PeerId) (s : RtcNetwork ι τ) :
    RtcAction ι τ → Option (RtcNetwork ι τ)
  | .node _ (.onMessage _ _) => none
  | .node i a => ((s.nodes i).step parse a).map (s.setNode i)
  | .report i l e =>
    if l < (s.nodes i).created then
      some { s with wire := s.wire.send ⟨i, l, ((s.nodes i).links l).remoteId, e⟩ }
    else none
  | .arrive i t k =>
    match s.wire.flight[k]? with
    | none => none
    | some p =>
      if p.dst = ids i then
        ((s.nodes i).step parse (.onMessage t (message dump ids p))).map fun n =>
          { s.setNode i n with wire := s.wire.take k p }
      else none
  | .lose k => some { s with wire := s.wire.lose k }
  | .duplicate k => some { s with wire := s.wire.duplicate k }

/-- Transports with the ids `ids`, and with the options `remote` and `max`. -/
def lts (τ : Type) [DecidableEq τ] (parse : Parse) (dump : Dump) (ids remote : ι → PeerId) (max : ι → Nat) :
    Lts (RtcNetwork ι τ) (RtcAction ι τ) where
  init := { nodes := fun i => { remoteId := remote i, maxInboundConnections := max i } }
  step := step parse dump ids

end RtcNetwork

end TX.Rtt
