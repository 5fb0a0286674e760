import TxPkgAux.Impl.Rtt.JsRtcTransport
import TxPkgAux.Impl.Rtt.RtcNetwork

/-!
# Browsers and native transports in one network

`JsRtcTransport` sends the same payloads as `DcRtcTransport`: `JsRtcPc_OnLocalDescription` and
`JsRtcPc_OnLocalCandidate` send what the browser reports to the `remoteId` of the context
(`LocalEvent.payload`). Here native transports (`ι`) and transports in browsers (`κ`) send each
other what their peer connections report, over the signaling of `RtcNetwork`.

Browsers are the environment, as libdatachannel is: any context reports descriptions and
candidates at any time. Their texts have no U+0000, which would end the C strings that they
are between a browser and its transport.
-/

namespace TX.Rtt

open Function (update)

structure MixedNetwork (ι κ τ : Type) where
  dc : ι → DcRtcTransport τ
  js : κ → JsRtcTransport
  wire : Wire (Packet (ι ⊕ κ)) := {}

inductive MixedAction (ι κ τ : Type) where
  /-- A step of a transport, other than the arrival of a message. -/
  | dc (i : ι) (a : DcAction τ)
  | js (k : κ) (a : JsAction)
  /-- The peer connection of a link or a context reports something. -/
  | report (i : ι ⊕ κ) (l : Nat) (e : LocalEvent)
  /-- `OnMessage` is called with a message in flight. -/
  | arriveDc (i : ι) (t : τ) (n : Nat)
  | arriveJs (k : κ) (n : Nat)
  | lose (n : Nat)
  | duplicate (n : Nat)

/-- The texts of what is reported. -/
def LocalEvent.texts : LocalEvent → List String
  | .description _ sdp => [sdp]
  | .candidate c => [c.candidate, c.mid]

/-- No text would be cut as a C string. -/
def LocalEvent.plain (e : LocalEvent) : Bool := e.texts.all fun text => !text.toList.contains (Char.ofNat 0)

/-- What the event gives to the peer connection of a link. -/
def DcEvent.gives : DcEvent → Option (Nat × LocalEvent)
  | .described l d => some (l, .description d.type d.sdp)
  | .candidate l c => some (l, .candidate c)
  | _ => none

/-- What the event gives to the peer connection of a context. -/
def JsEvent.gives : JsEvent → Option (Nat × LocalEvent)
  | .described c d => some (c, .description d.type d.sdp)
  | .candidate c cand => some (c, .candidate cand)
  | _ => none

/-- What the peer connections of the transport were given, newest first. -/
def DcRtcTransport.given {τ : Type} (n : DcRtcTransport τ) : List (Nat × LocalEvent) :=
  n.log.filterMap DcEvent.gives

/-- What the peer connections of the transport were given, newest first. -/
def JsRtcTransport.given (j : JsRtcTransport) : List (Nat × LocalEvent) := j.log.filterMap JsEvent.gives

namespace MixedNetwork

variable {ι κ τ : Type} [DecidableEq ι] [DecidableEq κ] [DecidableEq τ]

/-- The number of links or contexts of a transport. -/
def created (s : MixedNetwork ι κ τ) : ι ⊕ κ → Nat
  | .inl i => (s.dc i).created
  | .inr k => (s.js k).created

/-- The peer of a link or a context. -/
def remoteId (s : MixedNetwork ι κ τ) : ι ⊕ κ → Nat → PeerId
  | .inl i, l => ((s.dc i).links l).remoteId
  | .inr k, c => ((s.js k).contexts c).remoteId

/-- It was made for an offer. -/
def inbound (s : MixedNetwork ι κ τ) : ι ⊕ κ → Nat → Bool
  | .inl i, l => ((s.dc i).links l).inbound
  | .inr k, c => ((s.js k).contexts c).inbound

/-- What the peer connections of a transport were given. -/
def given (s : MixedNetwork ι κ τ) : ι ⊕ κ → List (Nat × LocalEvent)
  | .inl i => (s.dc i).given
  | .inr k => (s.js k).given

def setDc (s : MixedNetwork ι κ τ) (i : ι) (n : DcRtcTransport τ) : MixedNetwork ι κ τ :=
  { s with dc := update s.dc i n }

def setJs (s : MixedNetwork ι κ τ) (k : κ) (j : JsRtcTransport) : MixedNetwork ι κ τ :=
  { s with js := update s.js k j }

def step (parse : Parse) (dump : Dump) (ids : ι ⊕ κ → PeerId) (s : MixedNetwork ι κ τ) :
    MixedAction ι κ τ → Option (MixedNetwork ι κ τ)
  | .dc _ (.onMessage _ _) | .js _ (.onMessage _) => none
  | .dc i a => ((s.dc i).step parse a).map (s.setDc i)
  | .js k a => ((s.js k).step parse a).map (s.setJs k)
  | .report i l e =>
    if l < s.created i ∧ e.plain then some { s with wire := s.wire.send ⟨i, l, s.remoteId i l, e⟩ }
    else none
  | .arriveDc i t n =>
    match s.wire.flight[n]? with
    | none => none
    | some p =>
      if p.dst = ids (.inl i) then
        ((s.dc i).step parse (.onMessage t (RtcNetwork.message dump ids p))).map fun r =>
          { s.setDc i r with wire := s.wire.take n p }
      else none
  | .arriveJs k n =>
    match s.wire.flight[n]? with
    | none => none
    | some p =>
      if p.dst = ids (.inr k) then
        ((s.js k).step parse (.onMessage (RtcNetwork.message dump ids p))).map fun j =>
          { s.setJs k j with wire := s.wire.take n p }
      else none
  | .lose n => some { s with wire := s.wire.lose n }
  | .duplicate n => some { s with wire := s.wire.duplicate n }

/-- Transports with the ids `ids`, and with the options `remote` and `max`. -/
def lts (τ : Type) [DecidableEq τ] (parse : Parse) (dump : Dump) (ids remote : ι ⊕ κ → PeerId)
    (max : ι ⊕ κ → Nat) : Lts (MixedNetwork ι κ τ) (MixedAction ι κ τ) where
  init := {
    dc := fun i => { remoteId := remote (.inl i), maxInboundConnections := max (.inl i) }
    js := fun k => { remoteId := remote (.inr k), maxInboundConnections := max (.inr k) } }
  step := step parse dump ids

end MixedNetwork

end TX.Rtt
