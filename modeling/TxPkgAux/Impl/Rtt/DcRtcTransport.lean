import TxPkgAux.Framework.Lts
import TxPkgAux.Impl.Rtt.DcRtcLink

/-!
# `DcRtcTransport::State`

`pkg/rtt/rtc/Rtt/Rtc/Dc/DcRtcTransport.cpp`: the transport's state, its links in the
order of their creation, and the calls in progress (`τ` names them). A call made
inside another one is one more call: no lock is held from one step to the next, and a
critical section of `mutex` is one step.

A link is alive while `peers`, the acceptor or a call refers to it. The state is a
`shared_ptr` too: `inUse` are the references of calls, and `destroy` is the end of the
last one of all.
-/

namespace TX.Rtt

/-- A call in progress, with its place in the source. -/
inductive Call where
  /-- `OnMessage` of an offer, at the check of the limit. -/
  | offer (src : PeerId) (j : Json)
  /-- `HandleOffer`, at the insertion into `peers`. -/
  | handleOffer (src : PeerId) (sdp : String)
  /-- `HandleOffer`, at `pc.onDataChannel`. -/
  | onDataChannel (l : Nat) (d : Description)
  /-- `OpenOfferer`, at the insertion into `peers`. -/
  | openOfferer
  /-- `OpenOfferer`, at `dc->onOpen`. -/
  | onOpen (l : Nat)
  /-- `OnMessage` of an answer, at the lookup. -/
  | answer (src : PeerId) (sdp : String)
  /-- `OnMessage` of a candidate, at the lookup. -/
  | candidate (src : PeerId) (c : Candidate)
  /-- `SetRemoteDescription`, at `pc.setRemoteDescription`. -/
  | setRemoteDescription (l : Nat) (d : Description)
  /-- `SetRemoteDescription`, at its critical section. -/
  | takePending (l : Nat) (d : Description)
  /-- `SetRemoteDescription`, in the loop over the pending candidates. -/
  | flushing (l : Nat) (d : Description) (pending : List Candidate)
  /-- `AddRemoteCandidate`, at its critical section. -/
  | addRemoteCandidate (l : Nat) (c : Candidate)
  /-- `AddRemoteCandidate`, at `pc.addRemoteCandidate`. -/
  | addDirect (l : Nat) (c : Candidate)
  /-- The callback of a data channel, at `acc->OnLink`. -/
  | onLink (l : Nat)
  /-- The callback of a data channel, at `SetHandler`. -/
  | setHandler (l : Nat) (h : LinkHandler)

/-- What the acceptor, the handlers, libdatachannel and the caller of `OnMessage` see. -/
inductive DcEvent where
  /-- `OnLink` with a link. -/
  | linked (l : Nat)
  /-- `OnLink` with an error. -/
  | refused (e : Error)
  | onDisconnected (l : Nat)
  /-- `pc.setRemoteDescription`. -/
  | described (l : Nat) (d : Description)
  /-- `pc.addRemoteCandidate`. -/
  | candidate (l : Nat) (c : Candidate)
  /-- An exception leaves `OnMessage`. -/
  | threw
  deriving DecidableEq

/-- The transport's state, its links and the calls in progress. `joined` tells whether
`onJoined` was called, `handling` whether the signaling user has the state as its
handler, `acceptorHeld` whether the acceptor is referred to from outside the state.
`log` is newest first. -/
structure DcRtcTransport (τ : Type) where
  remoteId : PeerId
  maxInboundConnections : Nat
  peers : PeerId → Option Nat := fun _ => none
  inboundCount : Nat := 0
  links : Nat → DcRtcLink := fun _ => { remoteId := ⟨""⟩, inbound := false }
  created : Nat := 0
  calls : τ → Option Call := fun _ => none
  joined : Bool := false
  handling : Bool := false
  alive : Bool := true
  inUse : Nat := 0
  acceptorHeld : Bool := true
  log : List DcEvent := []

inductive DcAction (τ : Type) where
  /-- The signaling client calls `onJoined`, with a user or an error. -/
  | joined (t : τ) (result : Option Error)
  | onMessage (t : τ) (m : SigMessage)
  /-- `OnLeft`, with an error code or an empty one. -/
  | onLeft (ec : Bool)
  /-- The next step of a call; where it hands something to libdatachannel, `accepted`
  tells whether that throws. -/
  | next (t : τ) (accepted : Bool)
  /-- The data channel of a link opens. -/
  | channel (t : τ) (l : Nat)
  /-- The acceptor's `OnLink` in a call: whether it keeps the link, and its handler. -/
  | onLink (t : τ) (keep : Bool) (h : LinkHandler)
  | stateChange (l : Nat) (st : PcState)
  /-- The next step of a link's state-change callback. -/
  | changeNext (l : Nat)
  | disconnect (l : Nat)
  /-- The acceptor drops a reference to a link. -/
  | dropLink (l : Nat)
  | dropAcceptor
  /-- The last reference to the state is dropped. -/
  | destroy

namespace DcRtcTransport

variable {τ : Type} [DecidableEq τ]

def isOfferer (s : DcRtcTransport τ) : Bool := s.remoteId.value ≠ ""

def setLink (s : DcRtcTransport τ) (l : Nat) (r : DcRtcLink) : DcRtcTransport τ :=
  { s with links := Function.update s.links l r }

def setCall (s : DcRtcTransport τ) (t : τ) (c : Option Call) : DcRtcTransport τ :=
  { s with calls := Function.update s.calls t c }

def emit (s : DcRtcTransport τ) (e : DcEvent) : DcRtcTransport τ := { s with log := e :: s.log }

/-- A call that refers to the state begins. -/
def begin (s : DcRtcTransport τ) (t : τ) (c : Call) : DcRtcTransport τ :=
  { s.setCall t (some c) with inUse := s.inUse + 1 }

/-- A call that refers to the state returns, or an exception leaves it. -/
def finish (s : DcRtcTransport τ) (t : τ) : DcRtcTransport τ :=
  { s.setCall t none with inUse := s.inUse - 1 }

/-- A call that refers to the state and to a link returns. -/
def finishLink (s : DcRtcTransport τ) (t : τ) (l : Nat) : DcRtcTransport τ :=
  (s.setLink l (s.links l).release).finish t

/-- `weak_ptr<DcRtcLink>::lock` finds the link; `peers` has a link under its own id. -/
def owned (s : DcRtcTransport τ) (l : Nat) : Bool :=
  s.peers (s.links l).remoteId = some l ∨ 0 < (s.links l).held ∨ 0 < (s.links l).refs

/-- `weak_ptr<ILinkAcceptor>::lock` finds the acceptor. -/
def acceptorAlive (s : DcRtcTransport τ) : Bool := s.alive || s.acceptorHeld

/-- A link is created, referred to by the call, and stored in `peers`. -/
def store (s : DcRtcTransport τ) (id : PeerId) (inbound : Bool) : DcRtcTransport τ :=
  { s with
    links := Function.update s.links s.created { remoteId := id, inbound, refs := 1 }
    created := s.created + 1
    peers := Function.update s.peers id (some s.created) }

/-- `onJoined`. -/
def onJoined (s : DcRtcTransport τ) (t : τ) : Option Error → DcRtcTransport τ
  | some e => { s with joined := true }.emit (.refused e)
  | none =>
    if s.isOfferer then { s with joined := true }.begin t .openOfferer
    else { s with joined := true, handling := true }

/-- `OnMessage`, up to its first critical section. -/
def onMessage (parse : Parse) (s : DcRtcTransport τ) (t : τ) (m : SigMessage) : DcRtcTransport τ :=
  match parse m.payload with
  | none => s
  | some j =>
    match j.value "type" with
    | none => s.emit .threw
    | some "offer" => s.begin t (.offer m.src j)
    | some "answer" =>
      if s.isOfferer then
        match j.value "description" with
        | none => s.emit .threw
        | some sdp => s.begin t (.answer m.src sdp)
      else s
    | some "candidate" =>
      match j.value "candidate", j.value "mid" with
      | some cand, some mid => s.begin t (.candidate m.src ⟨cand, mid⟩)
      | _, _ => s.emit .threw
    | some _ => s

/-- The lookup of a link, and the call on it with a reference. -/
def lookup (s : DcRtcTransport τ) (t : τ) (id : PeerId) (c : Nat → Call) : DcRtcTransport τ :=
  match s.peers id with
  | none => s.finish t
  | some l => (s.setLink l (s.links l).acquire).setCall t (some (c l))

/-- A call of a `DcRtcLink`: its next step. -/
def linkNext (s : DcRtcTransport τ) (t : τ) (accepted : Bool) : Call → Option (DcRtcTransport τ)
  | .setRemoteDescription l d =>
    if accepted then some ((s.emit (.described l d)).setCall t (some (.takePending l d)))
    else some ((s.emit .threw).finishLink t l)
  | .takePending l d =>
    some ((s.setLink l (s.links l).takePending).setCall t
      (some (.flushing l d (s.links l).pendingCandidates)))
  | .flushing l _ [] => some (s.finishLink t l)
  | .flushing l d (c :: rest) =>
    if accepted then some ((s.emit (.candidate l c)).setCall t (some (.flushing l d rest)))
    else some ((s.emit .threw).finishLink t l)
  | .addRemoteCandidate l c =>
    if (s.links l).remoteDescSet then some (s.setCall t (some (.addDirect l c)))
    else some ((s.setLink l ((s.links l).buffer c)).finishLink t l)
  | .addDirect l c =>
    some ((s.emit (if accepted then .candidate l c else .threw)).finishLink t l)
  | _ => none

/-- The next step of a call. -/
def next (s : DcRtcTransport τ) (t : τ) (accepted : Bool) : Option (DcRtcTransport τ) :=
  match s.calls t with
  | none | some (.onLink _) => none
  | some (.offer src j) =>
    if s.maxInboundConnections = 0 ∨ s.inboundCount ≥ s.maxInboundConnections then some (s.finish t)
    else
      match j.value "description" with
      | none => some ((s.emit .threw).finish t)
      | some sdp => some (s.setCall t (some (.handleOffer src sdp)))
  | some (.handleOffer src sdp) =>
    some ({ s.store src true with inboundCount := s.inboundCount + 1 }.setCall t
      (some (.onDataChannel s.created ⟨sdp, .offer, src⟩)))
  | some (.onDataChannel l d) =>
    some ((s.setLink l { s.links l with wired := true }).setCall t (some (.setRemoteDescription l d)))
  | some .openOfferer => some ((s.store s.remoteId false).setCall t (some (.onOpen s.created)))
  | some (.onOpen l) =>
    some ({ s.setLink l { s.links l with wired := true } with handling := true }.finishLink t l)
  | some (.answer src sdp) =>
    some (s.lookup t s.remoteId fun l => .setRemoteDescription l ⟨sdp, .answer, src⟩)
  | some (.candidate src c) => some (s.lookup t src fun l => .addRemoteCandidate l c)
  | some (.setHandler l h) =>
    let r := s.links l
    let s := (s.setLink l (r.setHandler h).release).setCall t none
    some (if r.inbound then s else { s with inUse := s.inUse - 1 })
  | some c => s.linkNext t accepted c

/-- The callback of a data channel, up to `acc->OnLink`: that of an outbound link runs
once, and refers to the state. -/
def channel (s : DcRtcTransport τ) (t : τ) (l : Nat) : Option (DcRtcTransport τ) :=
  let r := s.links l
  if l < s.created ∧ r.wired ∧ s.calls t = none ∧ (r.inbound ∨ r.opened = false) then
    if s.owned l ∧ s.acceptorAlive ∧ (r.inbound ∨ s.alive) then
      let s := (s.setLink l r.attach.acquire).setCall t (some (.onLink l))
      some (if r.inbound then s else { s with inUse := s.inUse + 1 })
    else some (s.setLink l { r with opened := true })
  else none

/-- The acceptor's `OnLink`. -/
def onLink (s : DcRtcTransport τ) (t : τ) (keep : Bool) (h : LinkHandler) :
    Option (DcRtcTransport τ) :=
  match s.calls t with
  | some (.onLink l) =>
    let r := s.links l
    some (((s.setLink l { r with held := if keep then r.held + 1 else r.held }).emit
      (.linked l)).setCall t (some (.setHandler l h)))
  | _ => none

/-- `onGone` of an inbound link, and what `onClosed` and `onFailed` of an outbound one
have in common with it. -/
def gone (s : DcRtcTransport τ) (l : Nat) : DcRtcTransport τ :=
  let r := s.links l
  if s.alive then
    { s.setLink l { r with ended := true } with
      peers := Function.update s.peers r.remoteId none
      inboundCount :=
        if r.inbound ∧ s.inboundCount > 0 then s.inboundCount - 1 else s.inboundCount }
  else s

/-- The state-change callback of `Attach`, in a terminal state. -/
def changeNext (s : DcRtcTransport τ) (l : Nat) : Option (DcRtcTransport τ) :=
  match (s.links l).change with
  | none => none
  | some (.ending st) =>
    let s := s.gone l
    let r := s.links l
    some (s.setLink l { r with
      change := some (if st = .failed ∧ r.inbound = false then .refusing else .notifying) })
  | some .refusing =>
    let s := s.setLink l { s.links l with change := some .notifying }
    some (if s.acceptorAlive then s.emit (.refused .unknown) else s)
  | some .notifying =>
    let r := s.links l
    if s.owned l ∧ r.closedFired = false then
      let s := s.setLink l { r.acquire with closedFired := true, change := some .inHandler }
      some (if r.handler.onDisconnected then s.emit (.onDisconnected l) else s)
    else some (s.setLink l { r with change := none })
  | some .inHandler => some (s.setLink l { (s.links l).release with change := none })

def step (parse : Parse) (s : DcRtcTransport τ) : DcAction τ → Option (DcRtcTransport τ)
  | .joined t result =>
    if s.joined = false ∧ s.alive ∧ s.calls t = none then some (s.onJoined t result) else none
  | .onMessage t m =>
    if s.handling ∧ s.alive ∧ s.calls t = none then some (s.onMessage parse t m) else none
  | .onLeft ec =>
    if s.handling ∧ s.alive then
      some (if ec then s.emit (.refused .transportClosed) else s)
    else none
  | .next t accepted => s.next t accepted
  | .channel t l => s.channel t l
  | .onLink t keep h => s.onLink t keep h
  | .stateChange l st =>
    if l < s.created ∧ (s.links l).change = none then
      some (s.setLink l ((s.links l).stateChange st))
    else none
  | .changeNext l => s.changeNext l
  | .disconnect l => if s.owned l then some (s.setLink l (s.links l).disconnect) else none
  | .dropLink l =>
    if 0 < (s.links l).held then
      some (s.setLink l { s.links l with held := (s.links l).held - 1 })
    else none
  | .dropAcceptor => some { s with acceptorHeld := false }
  | .destroy =>
    if s.alive ∧ s.inUse = 0 then some { s with alive := false, peers := fun _ => none } else none

/-- A transport with the options `remoteId` and `maxInboundConnections`, as `Open`
makes it. -/
def lts (τ : Type) [DecidableEq τ] (parse : Parse) (remoteId : PeerId) (maxInboundConnections : Nat) :
    Lts (DcRtcTransport τ) (DcAction τ) where
  init := { remoteId, maxInboundConnections }
  step := step parse

end DcRtcTransport

end TX.Rtt
