import TxPkgAux.Framework.Inbox
import TxPkgAux.Impl.Rtt.RtcNetwork
import TxPkgAux.Impl.Rtt.UdpNetwork

/-!
# Data over the links of the transports

`Send`, `SetHandler` and the `onMessage` callback of `DcRtcLink.cpp`, with the network of
transports whose peer connections negotiate. A link is named by its transport and its number.

libdatachannel is the environment: it connects peer connections with each other, opens the one
data channel that `OpenOfferer` made at both ends of a connection, hands over the messages in the
order in which they were sent, and closes the channel at an end at any time. The messages come to
an end from the time that the other sends them, and wait there for the callback that `Attach`
registers.
-/

namespace TX.Rtt

open Function (update)
open Udp (WriteCallback)

abbrev Message := List UInt8

/-- `Send`: the message that is handed to the data channel, if any. -/
def DcRtcLink.send (r : DcRtcLink) (maxMessageSize : Nat) (isOpen : Bool) (writer : WriteCallback) :
    Option Message :=
  if r.disconnectRequested ∨ r.attached = false ∨ isOpen = false then none
  else
    let buf := List.replicate maxMessageSize 0
    let bytesWritten := writer.bytesWritten buf
    if bytesWritten = 0 then none else some ((writer.write buf).take bytesWritten)

/-- What the `onMessage` callback makes of a message: whether `wlink.lock()` finds the link, and
whether its handler has an `onReceived`. -/
def DcRtcLink.phase (r : DcRtcLink) (locked : Bool) (receives : Option Bool) : Phase :=
  if locked = false ∨ r.disconnectRequested then .closed
  else
    match receives with
    | none => .opening
    | some true => .taking
    | some false => .closed

/-- A link, by its transport. -/
abbrev LinkName (ι : Type) := ι × Nat

/-- One end of a data channel. `peer` is the link at the other end; `receives` tells whether the
handler of the link has an `onReceived`, where it has been set. `sent` is what was handed to this
end and `incoming` what is on its way to it, oldest first; what its callback got is in `inbox`. -/
structure ChannelEnd (ι : Type) where
  peer : Option (LinkName ι) := none
  opened : Bool := false
  isOpen : Bool := false
  receives : Option Bool := none
  sent : List Message := []
  incoming : List Message := []
  inbox : Inbox Message := {}

/-- `onReceived` is called with these, oldest first. -/
def ChannelEnd.received {ι : Type} (e : ChannelEnd ι) : List Message := e.inbox.taken

structure RtcData (ι τ : Type) where
  net : RtcNetwork ι τ
  ends : LinkName ι → ChannelEnd ι := fun _ => {}

inductive DataAction (ι τ : Type) where
  /-- A step of the network, other than these. -/
  | net (a : RtcAction ι τ)
  /-- Two peer connections connect. -/
  | connect (p q : LinkName ι)
  /-- The data channel opens at an end, and its callback is called. -/
  | channel (t : τ) (p : LinkName ι)
  /-- `SetHandler` in a call of the transport; `receives` tells whether the handler has an
  `onReceived`. -/
  | setHandler (i : ι) (t : τ) (receives : Bool)
  | send (p : LinkName ι) (writer : WriteCallback)
  /-- The `onMessage` callback gets the next message. -/
  | deliver (p : LinkName ι)
  /-- The channel closes at an end: what is on its way there is lost. -/
  | close (p : LinkName ι)

/-- The link whose handler the next step of the call sets. -/
def DcRtcTransport.setting {τ : Type} (n : DcRtcTransport τ) (t : τ) : Option Nat :=
  match n.calls t with
  | some (.setHandler l _) => some l
  | _ => none

namespace RtcData

variable {ι τ : Type} [DecidableEq ι] [DecidableEq τ]

def link (s : RtcData ι τ) (p : LinkName ι) : DcRtcLink := (s.net.nodes p.1).links p.2

/-- `wlink.lock()` finds the link. -/
def owned (s : RtcData ι τ) (p : LinkName ι) : Bool := (s.net.nodes p.1).owned p.2

def phase (s : RtcData ι τ) (p : LinkName ι) : Phase := (s.link p).phase (s.owned p) (s.ends p).receives

def setEnd (s : RtcData ι τ) (p : LinkName ι) (e : ChannelEnd ι) : RtcData ι τ :=
  { s with ends := update s.ends p e }

/-- A step of the network that is none of the other actions. -/
def aside (s : RtcData ι τ) : RtcAction ι τ → Bool
  | .node _ (.channel _ _) => false
  | .node i (.next t _) => ((s.net.nodes i).setting t).isNone
  | _ => true

/-- `_dc->send`: the message is on its way, unless the channel has closed at the other end. -/
def handOver (s : RtcData ι τ) (p : LinkName ι) (m : Message) : RtcData ι τ :=
  let e := s.ends p
  let s := s.setEnd p { e with sent := e.sent ++ [m] }
  match e.peer with
  | none => s
  | some q =>
    let e := s.ends q
    if e.opened ∧ e.isOpen = false then s else s.setEnd q { e with incoming := e.incoming ++ [m] }

variable (parse : Parse) (dump : Dump) (ids : ι → PeerId) (maxMessageSize : ι → Nat)

def step (s : RtcData ι τ) : DataAction ι τ → Option (RtcData ι τ)
  | .net a => if s.aside a then (s.net.step parse dump ids a).map fun net => { s with net } else none
  | .connect p q =>
    if p ≠ q ∧ (s.ends p).peer = none ∧ (s.ends q).peer = none then
      some ((s.setEnd p { s.ends p with peer := some q }).setEnd q { s.ends q with peer := some p })
    else none
  | .channel t p =>
    let e := s.ends p
    if e.peer.isSome ∧ e.opened = false then
      (s.net.step parse dump ids (.node p.1 (.channel t p.2))).map fun net =>
        { s with net }.setEnd p { e with opened := true, isOpen := true }
    else none
  | .setHandler i t receives =>
    match (s.net.nodes i).setting t with
    | none => none
    | some l =>
      (s.net.step parse dump ids (.node i (.next t true))).map fun net =>
        { s with net }.setEnd (i, l) { s.ends (i, l) with receives := some receives }
  | .send p writer =>
    if s.owned p then
      match (s.link p).send (maxMessageSize p.1) (s.ends p).isOpen writer with
      | none => some s
      | some m => some (s.handOver p m)
    else none
  | .deliver p =>
    let e := s.ends p
    match e.incoming with
    | [] => none
    | m :: incoming =>
      if (s.link p).attached then
        some (s.setEnd p { e with incoming, inbox := e.inbox.arrive m (s.phase p) })
      else none
  | .close p =>
    let e := s.ends p
    if e.isOpen then some (s.setEnd p { e with isOpen := false, incoming := [] }) else none

/-- Transports with the ids `ids`, and with the options `remote`, `max` and `maxMessageSize`. -/
def lts (τ : Type) [DecidableEq τ] (remote : ι → PeerId) (max : ι → Nat) :
    Lts (RtcData ι τ) (DataAction ι τ) where
  init := { net := (RtcNetwork.lts τ parse dump ids remote max).init }
  step := step parse dump ids maxMessageSize

end RtcData

end TX.Rtt
