import TxPkgAux.Framework.Lts
import TxPkgAux.Impl.Rtt.DcRtcLink

/-!
# `JsRtcTransport::State`

`pkg/rtt/rtc/Rtt/Rtc/Js/JsRtcTransport.cpp`: the transport in the browser. All of it
runs on the event loop, one callback after the other, and `OnMessage` calls nobody
that would call it again: it is one step. The acceptor's `OnLink` may do anything
before it returns, so `onDcOpen` is two steps.

A context has one `JsRtcLink` at most, which owns it: its fields are part of the
context here. The link is a `shared_ptr` of the acceptor (`held`) and of `onDcOpen`
while `OnLink` runs; the last reference that is dropped runs `~JsRtcLink`.
-/

namespace TX.Rtt

/-- `JsRtcPeerContext`, with its `JsRtcLink` and its entry of `Module._rtt_pcMap`.
`linked` tells whether the link exists, `inOnLink` whether `onDcOpen` refers to it,
`mapped` whether the entry is in the map, `describing` whether the promise of
`setRemoteDescription` is pending. `ended` is about the run: the context was taken out of
`peers` by its end. -/
structure JsRtcPeerContext where
  remoteId : PeerId
  inbound : Bool
  opened : Bool := false
  linked : Bool := false
  deleted : Bool := false
  inOnLink : Bool := false
  held : Nat := 0
  handler : LinkHandler := {}
  closedFired : Bool := false
  disconnectRequested : Bool := false
  mapped : Bool := true
  describing : Bool := false
  descSet : Bool := false
  pendingCandidates : List Candidate := []
  ended : Bool := false

/-- What the acceptor, the handlers, the browser and the caller of `OnMessage` see. -/
inductive JsEvent where
  /-- `OnLink` with a link. -/
  | linked (c : Nat)
  /-- `OnLink` with an error. -/
  | refused (e : Error)
  | onDisconnected (c : Nat)
  /-- `pc.setRemoteDescription`. -/
  | described (c : Nat) (d : Description)
  /-- `pc.addIceCandidate`. -/
  | candidate (c : Nat) (cand : Candidate)
  /-- An exception leaves `OnMessage`. -/
  | threw
  deriving DecidableEq

/-- The transport's state and its contexts, in the order of their creation. The other
fields are those of `DcRtcTransport`; the acceptor is alive as long as the state is. -/
structure JsRtcTransport where
  remoteId : PeerId
  maxInboundConnections : Nat
  peers : PeerId → Option Nat := fun _ => none
  inboundCount : Nat := 0
  contexts : Nat → JsRtcPeerContext := fun _ => { remoteId := ⟨""⟩, inbound := false }
  created : Nat := 0
  joined : Bool := false
  handling : Bool := false
  alive : Bool := true
  inUse : Nat := 0
  log : List JsEvent := []

inductive JsAction where
  /-- The signaling client calls `onJoined`, with a user or an error. -/
  | joined (result : Option Error)
  | onMessage (m : SigMessage)
  /-- `OnLeft`, with an error code or an empty one. -/
  | onLeft (ec : Bool)
  /-- The promise of `setRemoteDescription` resolves. -/
  | descSet (c : Nat)
  /-- `JsRtcPc_OnDataChannelOpen`, up to `acc->OnLink`. -/
  | onDataChannelOpen (c : Nat)
  /-- `OnLink` returns: whether the acceptor keeps the link, and its handler. -/
  | onLink (c : Nat) (keep : Bool) (h : LinkHandler)
  /-- `JsRtcPc_OnDataChannelClose`. -/
  | onDataChannelClose (c : Nat)
  | disconnect (c : Nat)
  /-- The acceptor drops a reference to a link. -/
  | dropLink (c : Nat)
  /-- The last reference to the state is dropped. -/
  | destroy

namespace JsRtcTransport

def isOfferer (s : JsRtcTransport) : Bool := s.remoteId.value ≠ ""

def setContext (s : JsRtcTransport) (c : Nat) (r : JsRtcPeerContext) : JsRtcTransport :=
  { s with contexts := Function.update s.contexts c r }

def emit (s : JsRtcTransport) (e : JsEvent) : JsRtcTransport := { s with log := e :: s.log }

/-- A context is created and stored in `peers`. -/
def store (s : JsRtcTransport) (r : JsRtcPeerContext) : JsRtcTransport :=
  { s with
    contexts := Function.update s.contexts s.created r
    created := s.created + 1
    peers := Function.update s.peers r.remoteId (some s.created) }

/-- `OpenOfferer`. -/
def openOfferer (s : JsRtcTransport) : JsRtcTransport :=
  s.store { remoteId := s.remoteId, inbound := false }

/-- `HandleOffer`, with the `setRemoteDescription` of `JsRtcPc_SetupAnswerer`. -/
def handleOffer (s : JsRtcTransport) (src : PeerId) (sdp : String) : JsRtcTransport :=
  { s.store { remoteId := src, inbound := true, describing := true } with
    inboundCount := s.inboundCount + 1 }.emit (.described s.created ⟨sdp, .offer, src⟩)

/-- `JsRtcPc_SetRemoteAnswer`. -/
def setRemoteAnswer (s : JsRtcTransport) (c : Nat) (d : Description) : JsRtcTransport :=
  let r := s.contexts c
  if r.mapped then (s.setContext c { r with describing := true }).emit (.described c d) else s

/-- `JsRtcPc_AddIceCandidate`. -/
def addIceCandidate (s : JsRtcTransport) (c : Nat) (cand : Candidate) : JsRtcTransport :=
  let r := s.contexts c
  if r.mapped then
    if r.descSet then s.emit (.candidate c cand)
    else s.setContext c { r with pendingCandidates := r.pendingCandidates ++ [cand] }
  else s

/-- `OnMessage` of an offer. -/
def onOffer (s : JsRtcTransport) (src : PeerId) (j : Json) : JsRtcTransport :=
  if s.maxInboundConnections = 0 ∨ s.inboundCount ≥ s.maxInboundConnections then s
  else
    match j.value "description" with
    | none => s.emit .threw
    | some sdp => s.handleOffer src sdp

/-- `OnMessage` of an answer. -/
def onAnswer (s : JsRtcTransport) (src : PeerId) (j : Json) : JsRtcTransport :=
  if s.isOfferer then
    match j.value "description" with
    | none => s.emit .threw
    | some sdp =>
      match s.peers src with
      | none => s
      | some c => s.setRemoteAnswer c ⟨sdp, .answer, src⟩
  else s

/-- `OnMessage` of a candidate. -/
def onCandidate (s : JsRtcTransport) (src : PeerId) (j : Json) : JsRtcTransport :=
  match j.value "candidate", j.value "mid" with
  | some cand, some mid =>
    match s.peers src with
    | none => s
    | some c => s.addIceCandidate c ⟨cand, mid⟩
  | _, _ => s.emit .threw

/-- `OnMessage`. -/
def onMessage (parse : Parse) (s : JsRtcTransport) (m : SigMessage) : JsRtcTransport :=
  match parse m.payload with
  | none => s
  | some j =>
    match j.value "type" with
    | none => s.emit .threw
    | some "offer" => s.onOffer m.src j
    | some "answer" => s.onAnswer m.src j
    | some "candidate" => s.onCandidate m.src j
    | some _ => s

/-- `onJoined`. -/
def onJoined (s : JsRtcTransport) : Option Error → JsRtcTransport
  | some e => { s with joined := true }.emit (.refused e)
  | none =>
    let s := { s with joined := true, handling := true }
    if s.isOfferer then s.openOfferer else s

/-- The buffered candidates are handed over when the description is set. -/
def onDescSet (s : JsRtcTransport) (c : Nat) : JsRtcTransport :=
  let r := s.contexts c
  { s.setContext c { r with describing := false, descSet := true, pendingCandidates := [] } with
    log := (r.pendingCandidates.map (JsEvent.candidate c)).reverse ++ s.log }

/-- `~JsRtcLink`: `JsRtcPc_Close`, `delete _ctx` and `onGone`. -/
def destroyLink (s : JsRtcTransport) (c : Nat) : JsRtcTransport :=
  let r := { s.contexts c with mapped := false, deleted := true, linked := false }
  if s.alive then
    { s.setContext c { r with ended := true } with
      peers := Function.update s.peers r.remoteId none
      inboundCount :=
        if r.inbound ∧ s.inboundCount > 0 then s.inboundCount - 1 else s.inboundCount }
  else s.setContext c r

/-- `JsRtcPc_OnDataChannelOpen` and `onDcOpen`, up to `acc->OnLink`. -/
def onDataChannelOpen (s : JsRtcTransport) (c : Nat) : JsRtcTransport :=
  let r := s.contexts c
  if r.opened then s
  else if s.alive then
    { (s.setContext c { r with opened := true, linked := true, inOnLink := true }).emit (.linked c) with
      inUse := s.inUse + 1 }
  else s.setContext c { r with opened := true, mapped := false, deleted := true }

/-- `OnLink` returns, and `SetHandler`; the reference of `onDcOpen` ends. -/
def setHandler (s : JsRtcTransport) (c : Nat) (keep : Bool) (h : LinkHandler) : JsRtcTransport :=
  let r := s.contexts c
  { s.setContext c { r with
      handler := h, inOnLink := false, held := if keep then r.held + 1 else r.held } with
    inUse := s.inUse - 1 }

/-- The rest of `onDcOpen`. -/
def onLink (s : JsRtcTransport) (c : Nat) (keep : Bool) (h : LinkHandler) : JsRtcTransport :=
  let s := s.setHandler c keep h
  if (s.contexts c).held = 0 then s.destroyLink c else s

/-- `JsRtcLink::OnClose`. -/
def onClose (s : JsRtcTransport) (c : Nat) : JsRtcTransport :=
  let r := s.contexts c
  if r.linked ∧ r.closedFired = false then
    let s := s.setContext c { r with closedFired := true }
    if r.handler.onDisconnected then s.emit (.onDisconnected c) else s
  else s

/-- A reference to the link is dropped. -/
def dropLink (s : JsRtcTransport) (c : Nat) : JsRtcTransport :=
  let r := s.contexts c
  let s := s.setContext c { r with held := r.held - 1 }
  if r.held = 1 ∧ r.inOnLink = false then s.destroyLink c else s

def step (parse : Parse) (s : JsRtcTransport) : JsAction → Option JsRtcTransport
  | .joined result => if s.joined = false ∧ s.alive then some (s.onJoined result) else none
  | .onMessage m => if s.handling ∧ s.alive then some (s.onMessage parse m) else none
  | .onLeft ec =>
    if s.handling ∧ s.alive then
      some (if ec then s.emit (.refused .transportClosed) else s)
    else none
  | .descSet c =>
    if c < s.created ∧ (s.contexts c).describing then some (s.onDescSet c) else none
  | .onDataChannelOpen c =>
    if c < s.created ∧ (s.contexts c).mapped ∧ (s.contexts c).deleted = false then
      some (s.onDataChannelOpen c)
    else none
  | .onLink c keep h =>
    if c < s.created ∧ (s.contexts c).inOnLink then some (s.onLink c keep h) else none
  | .onDataChannelClose c =>
    if c < s.created ∧ (s.contexts c).deleted = false then some (s.onClose c) else none
  | .disconnect c =>
    let r := s.contexts c
    if c < s.created ∧ r.linked then
      some (if r.disconnectRequested then s
        else s.setContext c { r with disconnectRequested := true, mapped := false })
    else none
  | .dropLink c => if c < s.created ∧ 0 < (s.contexts c).held then some (s.dropLink c) else none
  | .destroy =>
    if s.alive ∧ s.inUse = 0 then some { s with alive := false, peers := fun _ => none } else none

/-- A transport with the options `remoteId` and `maxInboundConnections`, as `Open`
makes it. -/
def lts (parse : Parse) (remoteId : PeerId) (maxInboundConnections : Nat) :
    Lts JsRtcTransport JsAction where
  init := { remoteId, maxInboundConnections }
  step := step parse

end JsRtcTransport

end TX.Rtt
