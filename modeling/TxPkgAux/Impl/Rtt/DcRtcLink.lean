import TxPkgAux.Framework.Lts
import TxPkgAux.Impl.Rtt.Signaling

/-!
# `DcRtcLink`

`pkg/rtt/rtc/Rtt/Rtc/Dc/DcRtcLink.{h,cpp}`: one peer connection of libdatachannel and
the data channel attached to it. The link's own critical sections and atomics are
functions here; the callbacks that `Attach` is given belong to the transport, which
takes the steps of the state-change callback (`ChangePc`). `Negotiation` is one link on
its own, with the calls of its ICE negotiation that any threads make.

libdatachannel is the environment: it opens channels, reports states one at a time
for each connection, and accepts or rejects what it is given.
-/

namespace TX.Rtt

/-- `rtc::PeerConnection::State`. -/
inductive PcState where
  | new | connecting | connected | disconnected | failed | closed
  deriving DecidableEq

/-- The states in which the callback of `Attach` ends the link. -/
def PcState.terminal : PcState → Bool
  | .closed | .disconnected | .failed => true
  | _ => false

/-- `rtc::Description::Type`, the two that are used. -/
inductive DescriptionType where
  | offer | answer
  deriving DecidableEq

/-- The arguments of `SetRemoteDescription`. -/
structure Description where
  sdp : String
  type : DescriptionType
  src : PeerId
  deriving DecidableEq

/-- `rtc::Candidate`. -/
structure Candidate where
  candidate : String
  mid : String
  deriving DecidableEq

/-- `LinkHandler`: whether its `onDisconnected` is a function. -/
structure LinkHandler where
  onDisconnected : Bool := false
  deriving DecidableEq

/-- Where the state-change callback that `Attach` registered is. -/
inductive ChangePc where
  /-- At `onClosed()` or `onFailed()`. -/
  | ending (st : PcState)
  /-- In `onFailed` of an outbound link, at `acc->OnLink`. -/
  | refusing
  /-- At `wlink.lock()` and `_closedFired.exchange`. -/
  | notifying
  /-- Past them, inside `onDisconnected`. -/
  | inHandler
  deriving DecidableEq

/-- A link. `inbound` tells `HandleOffer` from `OpenOfferer`, `wired` whether the
callback for its data channel is registered, `opened` whether that of an outbound link
has run. `held` are the references the acceptor keeps and `refs` those of calls.

`reported`, `due` and `ended` are about the run: a terminal state was reported; one was
reported while `onDisconnected` was bound; the link's end was taken out of `peers`. -/
structure DcRtcLink where
  remoteId : PeerId
  inbound : Bool
  wired : Bool := false
  opened : Bool := false
  attached : Bool := false
  handler : LinkHandler := {}
  disconnectRequested : Bool := false
  closedFired : Bool := false
  remoteDescSet : Bool := false
  pendingCandidates : List Candidate := []
  held : Nat := 0
  refs : Nat := 0
  change : Option ChangePc := none
  reported : Bool := false
  due : Bool := false
  ended : Bool := false

namespace DcRtcLink

/-- A call takes a reference. -/
def acquire (r : DcRtcLink) : DcRtcLink := { r with refs := r.refs + 1 }

/-- A call drops its reference. -/
def release (r : DcRtcLink) : DcRtcLink := { r with refs := r.refs - 1 }

/-- `Attach`. -/
def attach (r : DcRtcLink) : DcRtcLink := { r with attached := true, opened := true }

/-- `SetHandler`. -/
def setHandler (r : DcRtcLink) (h : LinkHandler) : DcRtcLink := { r with handler := h }

/-- `Disconnect`; what `close` leads to is reported by libdatachannel. -/
def disconnect (r : DcRtcLink) : DcRtcLink := { r with disconnectRequested := true }

/-- The critical section of `SetRemoteDescription`, which takes `pendingCandidates`. -/
def takePending (r : DcRtcLink) : DcRtcLink :=
  { r with remoteDescSet := true, pendingCandidates := [] }

/-- The critical section of `AddRemoteCandidate`, without a remote description. -/
def buffer (r : DcRtcLink) (c : Candidate) : DcRtcLink :=
  { r with pendingCandidates := r.pendingCandidates ++ [c] }

/-- `pc` reports a state: to the logging callback, or to the one of `Attach`, which
goes on in a terminal state. -/
def stateChange (r : DcRtcLink) (st : PcState) : DcRtcLink :=
  if r.attached ∧ st.terminal then
    { r with
      change := some (.ending st)
      reported := true
      due := r.due || r.handler.onDisconnected }
  else { r with reported := r.reported || st.terminal }

end DcRtcLink

/-! ## ICE negotiation -/

/-- A call of `SetRemoteDescription` or `AddRemoteCandidate`, with its place in it. -/
inductive NegotiationCall where
  /-- `SetRemoteDescription`, at `pc.setRemoteDescription`. -/
  | setRemoteDescription (d : Description)
  /-- `SetRemoteDescription`, at its critical section. -/
  | takePending
  /-- `SetRemoteDescription`, in the loop over the pending candidates. -/
  | flushing (pending : List Candidate)
  /-- `AddRemoteCandidate`, at its critical section. -/
  | addRemoteCandidate (c : Candidate)
  /-- `AddRemoteCandidate`, at `pc.addRemoteCandidate`. -/
  | addDirect (c : Candidate)
  deriving DecidableEq

/-- What libdatachannel makes of a candidate. -/
inductive CandidateOutcome where
  /-- The constructor of `rtc::Candidate` raises: `pc.addRemoteCandidate` is not reached. -/
  | malformed
  /-- `pc.addRemoteCandidate` raises. -/
  | rejected
  | taken
  deriving DecidableEq

inductive NegotiationEvent where
  /-- `AddRemoteCandidate` is called. -/
  | passed (c : Candidate)
  /-- `pc.setRemoteDescription` is made. -/
  | described (d : Description)
  /-- `pc.addRemoteCandidate` is called, and raises or not. -/
  | handed (c : Candidate)
  /-- `SetRemoteDescription` returns. -/
  | completed
  deriving DecidableEq

/-- A link with the calls in progress on it. `log` is newest first. -/
structure Negotiation where
  link : DcRtcLink
  calls : List NegotiationCall := []
  log : List NegotiationEvent := []

inductive NegotiationAction where
  /-- A thread calls `SetRemoteDescription`. -/
  | setRemoteDescription (d : Description)
  /-- A thread calls `AddRemoteCandidate`. -/
  | addRemoteCandidate (c : Candidate)
  /-- The next step of one of the calls; `outcome` is that of the candidate, if the step
  comes to one. -/
  | next (i : Nat) (outcome : CandidateOutcome)

namespace Negotiation

def emit (s : Negotiation) (e : NegotiationEvent) : Negotiation := { s with log := e :: s.log }

/-- A call goes on. -/
def setCall (s : Negotiation) (i : Nat) (c : NegotiationCall) : Negotiation :=
  { s with calls := s.calls.set i c }

/-- A call returns, or an exception leaves it. -/
def finish (s : Negotiation) (i : Nat) : Negotiation := { s with calls := s.calls.eraseIdx i }

/-- The next step of a call. -/
def callNext (s : Negotiation) (i : Nat) (outcome : CandidateOutcome) : NegotiationCall → Negotiation
  | .setRemoteDescription d => (s.emit (.described d)).setCall i .takePending
  | .takePending =>
    { s with link := s.link.takePending }.setCall i (.flushing s.link.pendingCandidates)
  | .flushing [] => (s.emit .completed).finish i
  | .flushing (c :: rest) =>
    match outcome with
    | .malformed => s.finish i
    | .rejected => (s.emit (.handed c)).finish i
    | .taken => (s.emit (.handed c)).setCall i (.flushing rest)
  | .addRemoteCandidate c =>
    if s.link.remoteDescSet then s.setCall i (.addDirect c)
    else { s with link := s.link.buffer c }.finish i
  | .addDirect c =>
    match outcome with
    | .malformed => s.finish i
    | .rejected | .taken => (s.emit (.handed c)).finish i

def step (s : Negotiation) : NegotiationAction → Option Negotiation
  | .setRemoteDescription d => some { s with calls := .setRemoteDescription d :: s.calls }
  | .addRemoteCandidate c =>
    some ({ s with calls := .addRemoteCandidate c :: s.calls }.emit (.passed c))
  | .next i outcome => s.calls[i]?.map (s.callNext i outcome)

/-- A link to `remoteId`, as it is made. -/
def lts (remoteId : PeerId) (inbound : Bool) : Lts Negotiation NegotiationAction where
  init := { link := { remoteId, inbound } }
  step := step

end Negotiation

end TX.Rtt
