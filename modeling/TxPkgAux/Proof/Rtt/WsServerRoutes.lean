import TxPkgAux.Framework.Routes
import TxPkgAux.Proof.Rtt.WsClientStep
import TxPkgAux.Proof.Rtt.WsServerStep

/-!
# `DcWsSigServer`: the newest connection of an id

The hub's `_peers` and the server's `connections` are two routing tables with the same
owners. `onClosed` removes from both by id, so it takes out a newer connection with the id
as well. `ClosedInOrder` is the condition that there is none, and `newest_forwarded` says
that then the newest connection of an id is sent the messages for it and closed by
`DisconnectPeer`; `newest_unreachable` is a client that reconnected before its old connection
was closed.
-/

namespace TX.Rtt

open Function (update)

namespace DcWsSigServer

/-- The routing table `peers`, over the connections. -/
def routes (s : DcWsSigServer) (peers : PeerId → Option ℕ) : Routes PeerId where
  peers
  key := s.connId
  created := s.opened
  ended w := s.socket w = .closed

/-- The connection is the most recently opened one with its id. -/
def Newest (s : DcWsSigServer) (w : ℕ) : Prop := (s.routes s.connections).Newest w

instance (s : DcWsSigServer) (w : ℕ) : Decidable (s.Newest w) :=
  inferInstanceAs (Decidable ((s.routes s.connections).Newest w))

/-- The action makes the hub dispatch the message to `dst`: a frame of a client, or someone
else's `Dispatch`. -/
def Dispatches (parse : Parse) (s : DcWsSigServer) (dst : PeerId) (m : SigMessage) :
    ServerAction → Prop
  | .onMessage v (.text text) =>
    s.live v = true ∧ s.connId v = m.src ∧ readFrame parse text = .fields dst m.payload
  | .dispatch src dst' payload => src = m.src ∧ dst' = dst ∧ payload = m.payload
  | _ => False

end DcWsSigServer

/-- `onClosed` comes while no newer connection with the id is left. -/
def ClosedInOrder (s : DcWsSigServer) : ServerAction → Prop
  | .onClosed w => (s.routes s.connections).CanFinish w
  | _ => True

instance (s : DcWsSigServer) (a : ServerAction) : Decidable (ClosedInOrder s a) :=
  match a with
  | .onClosed w => inferInstanceAs (Decidable ((s.routes s.connections).CanFinish w))
  | .onOpen _ | .onMessage _ _ | .closing _ | .disconnectPeer _ | .dispatch _ _ _ => .isTrue trivial

structure Routed (s : DcWsSigServer) : Prop where
  base : ServerInv s
  hub : (s.routes s.hub.peers).Valid
  connections : (s.routes s.connections).Valid

section Step

variable {parse : Parse} {dump : Dump} {s s' : DcWsSigServer} {a : ServerAction}

theorem routes_registered (s : DcWsSigServer) (peers : PeerId → Option ℕ) (id : PeerId) :
    (s.registered id).routes (update peers id (some s.opened)) = (s.routes peers).store id := by
  ext <;> simp [DcWsSigServer.routes, DcWsSigServer.registered, Routes.store, Function.update_apply]
  split <;> simp_all

theorem routes_left (s : DcWsSigServer) (peers : PeerId → Option ℕ) (w : ℕ) :
    (s.left w).routes (update peers (s.connId w) none) = (s.routes peers).finish w := by
  ext <;> simp [DcWsSigServer.routes, DcWsSigServer.left, Routes.finish, Function.update_apply]

theorem routes_closing (s : DcWsSigServer) (peers : PeerId → Option ℕ) {w : ℕ}
    (hw : s.socket w = .opened) :
    { s with socket := update s.socket w .closing }.routes peers = s.routes peers := by
  ext <;> simp [DcWsSigServer.routes, Function.update_apply]
  split <;> simp_all

theorem Routed.registered (hi : Routed s) (id : PeerId) : Routed (s.registered id) := by
  refine ⟨hi.base.registered id, ?_, ?_⟩
  · exact routes_registered s s.hub.peers id ▸ hi.hub.store id
  · exact routes_registered s s.connections id ▸ hi.connections.store id

theorem Routed.dispatched (hi : Routed s) (dst : PeerId) (m : SigMessage) :
    Routed (s.dispatched dump dst m) := by
  have hb := (hi.base.dispatched dst m : ServerInv (s.dispatched dump dst m))
  obtain ⟨log, hlog, he⟩ := dispatched_spec dump s dst m
  rw [he] at hb ⊢
  exact ⟨hb, hi.hub, hi.connections⟩

theorem Routed.closing (hi : Routed s) {w : ℕ} (hw : s.socket w = .opened) :
    Routed { s with socket := update s.socket w .closing } := by
  refine ⟨hi.base.closing hw, ?_, ?_⟩
  · exact (routes_closing s s.hub.peers hw).symm ▸ hi.hub
  · exact (routes_closing s s.connections hw).symm ▸ hi.connections

theorem ServerStep.routed (h : ServerStep parse dump s a s') (hi : Routed s) (ha : ClosedInOrder s a) :
    Routed s' := by
  have hb := h.serverInv hi.base
  cases h with
  | refused | threw => exact ⟨hb, hi.hub, hi.connections⟩
  | ignored | notConnected => exact hi
  | registered path => exact hi.registered _
  | frame | dispatched => exact hi.dispatched _ _
  | closing w hw => exact hi.closing hw
  | disconnected id w hc hw => exact hi.closing hw
  | left w hw =>
    refine ⟨hb, ?_, ?_⟩
    · exact routes_left s s.hub.peers w ▸ hi.hub.finish ha
    · exact routes_left s s.connections w ▸ hi.connections.finish ha

end Step

theorem Routed.init (parse : Parse) (dump : Dump) : Routed (DcWsSigServer.lts parse dump).init := by
  refine ⟨.init parse dump, ⟨?_, ?_⟩, ⟨?_, ?_⟩⟩ <;>
    simp [DcWsSigServer.lts, DcWsSigServer.routes, Routes.Newest]

theorem Routed.reach {parse : Parse} {dump : Dump} {s : DcWsSigServer}
    (h : (DcWsSigServer.lts parse dump).Reach ClosedInOrder s) : Routed s :=
  h.invariant (.init parse dump) fun hI ha he => (ServerStep.of_step hI.base he).routed hI ha

section Forwarded

variable {parse : Parse} {dump : Dump} {s : DcWsSigServer} {w : ℕ}

/-- The newest connection with an id is in both tables until it is closed. -/
theorem Routed.newest (hi : Routed s) (hw : s.Newest w) (hc : s.socket w ≠ .closed) :
    s.hub.peers (s.connId w) = some w ∧ s.connections (s.connId w) = some w := by
  have he : (s.routes s.connections).ended w = false := by simpa [DcWsSigServer.routes] using hc
  exact ⟨hi.hub.routed w hw he, hi.connections.routed w hw he⟩

theorem Dispatches.step_eq (hi : ServerInv s) {dst : PeerId} {m : SigMessage} {a : ServerAction}
    (ha : s.Dispatches parse dst m a) : s.step parse dump a = some (s.dispatched dump dst m) := by
  cases a with
  | onMessage v raw =>
    cases raw with
    | binary => exact absurd ha id
    | text text =>
      obtain ⟨hl, hv, hr⟩ := ha
      simp only [DcWsSigServer.step, hl, if_true, DcWsSigServer.onMessage, hr, dispatch_eq hi, hv]
  | dispatch src dst' payload =>
    obtain ⟨rfl, rfl, rfl⟩ := ha
    exact dispatch_eq hi _ _ _
  | onOpen | closing | onClosed | disconnectPeer => exact absurd ha id

theorem dispatched_log {dst : PeerId} {m : SigMessage} (hp : s.hub.peers dst = some w) :
    (s.dispatched dump dst m).hub.log = .onMessage w m :: .acquired w m :: s.hub.log ∧
    (s.socket w = .opened →
      (s.dispatched dump dst m).log = .sent w (dump (envelope m.src m.payload)) :: s.log) := by
  simp only [DcWsSigServer.dispatched, hp, DcWsSigServer.withHub, DcWsSigServer.forward]
  exact ⟨trivial, fun ho => by simp [ho, DcWsSigServer.emit]⟩

theorem disconnectPeer_socket {id : PeerId} (hp : s.connections id = some w)
    (hl : s.live w = true) : (s.disconnectPeer id).socket w = .closing := by
  simp only [DcWsSigServer.disconnectPeer, hp]
  rcases of_decide_eq_true hl with ho | hc
  · simp [ho]
  · simp [hc]

end Forwarded

/-- In a run in which no connection is closed while a newer one with its id is left, the
hub hands the messages for an id to the newest connection with that id until it is closed,
which sends them to its client while it is open, and `DisconnectPeer` closes it. -/
theorem newest_forwarded {parse : Parse} {dump : Dump} {s : DcWsSigServer}
    (h : (DcWsSigServer.lts parse dump).Reach ClosedInOrder s) {w : ℕ} (hw : s.Newest w)
    (hc : s.socket w ≠ .closed) :
    (∀ m a, s.Dispatches parse (s.connId w) m a → ∃ s', s.step parse dump a = some s' ∧
      s'.hub.log = .onMessage w m :: .acquired w m :: s.hub.log ∧
      (s.socket w = .opened → s'.log = .sent w (dump (envelope m.src m.payload)) :: s.log)) ∧
    ∃ s', s.step parse dump (.disconnectPeer (s.connId w)) = some s' ∧ s'.socket w = .closing := by
  have hi := Routed.reach h
  obtain ⟨hp, hcon⟩ := hi.newest hw hc
  refine ⟨fun m a ha => ?_, ?_⟩
  · exact ⟨_, Dispatches.step_eq hi.base ha, dispatched_log hp⟩
  · have hl : s.live w = true := by
      have hne := (hi.base.opened w).mpr hw.1
      cases hs : s.socket w <;> simp_all [DcWsSigServer.live]
    exact ⟨_, rfl, disconnectPeer_socket hcon hl⟩

namespace DcWsSigServer

/-- `json::dump` of an envelope with plain strings. -/
def sampleDump : Dump
  | .object [(_, .string id), (_, .string payload)] =>
    "\x7b\"id\":\"" ++ id ++ "\",\"payload\":\"" ++ payload ++ "\"\x7d"
  | _ => ""

abbrev sample : Lts DcWsSigServer ServerAction := lts DcWsSigClient.sampleFrames sampleDump

end DcWsSigServer

open DcWsSigServer (sample sampleDump)

/-- A client reconnects after its old connection was closed. -/
theorem newest_forwarded_reconnected : ∃ s, sample.Reach ClosedInOrder s ∧ s.connId 1 = ⟨"a"⟩ ∧
    (∃ s', sample.step s (.dispatch ⟨"b"⟩ ⟨"a"⟩ "m") = some s' ∧
      s'.log = .sent 1 "\x7b\"id\":\"b\",\"payload\":\"m\"\x7d" :: s.log) ∧
    ∃ s', sample.step s (.disconnectPeer ⟨"a"⟩) = some s' ∧ s'.socket 1 = .closing := by
  obtain ⟨s, hs, hq⟩ := Lts.Reach.of_run sample ClosedInOrder
    [.onOpen (some "/a"), .onClosed 0, .onOpen (some "/a")]
    (fun s => s.Newest 1 ∧ s.socket 1 = .opened ∧ s.connId 1 = ⟨"a"⟩) (by decide +kernel)
  obtain ⟨hn, ho, hid⟩ := of_decide_eq_true hq
  obtain ⟨hf, hd⟩ := newest_forwarded hs hn (by simp [ho])
  rw [hid] at hf hd
  obtain ⟨s', he, -, hl⟩ := hf ⟨⟨"b"⟩, "m"⟩ (.dispatch ⟨"b"⟩ ⟨"a"⟩ "m") ⟨rfl, rfl, rfl⟩
  exact ⟨s, hs, hid, ⟨s', he, hl ho⟩, hd⟩

/-- A client reconnects, and then its old connection is closed: the new one is open, but a
message for the id is not sent to it, and `DisconnectPeer` leaves it open. -/
theorem newest_unreachable : ∃ s, sample.Reach Lts.Any s ∧ s.Newest 1 ∧ s.connId 1 = ⟨"a"⟩ ∧
    s.socket 1 = .opened ∧
    (∃ s', sample.step s (.dispatch ⟨"b"⟩ ⟨"a"⟩ "m") = some s' ∧ s'.log = s.log) ∧
    ∃ s', sample.step s (.disconnectPeer ⟨"a"⟩) = some s' ∧ s'.socket 1 = .opened := by
  obtain ⟨s, hs, hq⟩ := Lts.Reach.of_run sample Lts.Any
    [.onOpen (some "/a"), .onOpen (some "/a"), .onClosed 0]
    (fun s => s.Newest 1 ∧ s.connId 1 = ⟨"a"⟩ ∧ s.socket 1 = .opened ∧
      (sample.step s (.dispatch ⟨"b"⟩ ⟨"a"⟩ "m")).any (fun s' => s'.log = s.log) ∧
      (sample.step s (.disconnectPeer ⟨"a"⟩)).any fun s' => s'.socket 1 = .opened) (by decide +kernel)
  obtain ⟨hn, hid, ho, hd, hc⟩ := of_decide_eq_true hq
  obtain ⟨s₁, he₁, hl⟩ := (Option.any_eq_true _ _).mp hd
  obtain ⟨s₂, he₂, hso⟩ := (Option.any_eq_true _ _).mp hc
  exact ⟨s, hs, hn, hid, ho, ⟨s₁, he₁, of_decide_eq_true hl⟩, s₂, he₂, of_decide_eq_true hso⟩

end TX.Rtt
