import TxPkgAux.Impl.Rtt.UdpNetwork
import TxPkgAux.Proof.Rtt.UdpServer

/-!
# UDP clients and a server: datagrams

What a handler is given was sent to its link: handlers of the server's links to an endpoint
were given what the client there sent, and those of a client's link what the server sent to
its endpoint, as often at most as it was sent and copied, and cut to the size of the
receiver's buffer (`datagrams_delivered`).

On each side, what was received and what is yet to be handed over is a part of what arrived,
in its order (`Heard`, `Taken`).
-/

namespace TX.Rtt.Udp

open Function (update)

/-! ## The server -/

/-- The datagram that the action brings from the endpoint. -/
def ServerAction.brings (e : Endpoint) : ServerAction → List Datagram
  | .receive src data => if src = e then [data] else []
  | _ => []

/-- The datagram that a handler of a link to the endpoint is given. -/
def ServerEvent.receivedFrom (objects : Nat → SharedLink) (e : Endpoint) : ServerEvent → Option Datagram
  | .onReceived l _ data => if (objects l).remoteEndpoint = e then some data else none
  | _ => none

namespace UdpServer

/-- What handlers of links to the endpoint were given, newest first. -/
def receivedFrom (s : UdpServer) (e : Endpoint) : List Datagram :=
  s.log.filterMap (ServerEvent.receivedFrom s.objects e)

/-- The datagram that waits for `OnLink`. -/
def pendingFrom (s : UdpServer) (e : Endpoint) : List Datagram :=
  match s.loop with
  | .inOnLink l data => if (s.objects l).remoteEndpoint = e then [data] else []
  | _ => []

def heardFrom (s : UdpServer) (e : Endpoint) : List Datagram := s.pendingFrom e ++ s.receivedFrom e

end UdpServer

/-- Handlers were given datagrams of links that were created. -/
def LoggedLinks (s : UdpServer) : Prop := ∀ l n data, .onReceived l n data ∈ s.log → l < s.created

section Server

variable {s s' : UdpServer} {a : ServerAction}

theorem ServerStep.loggedLinks (h : ServerStep s a s') (hd : Dispatch s) (hi : LoggedLinks s) :
    LoggedLinks s' := by
  intro l n data hm
  have hold := hi l n data
  have hmap := hd.mapped
  have hloop := hd.loop
  unfold UdpServer.live at hmap
  cases h <;> grind -linarith -order

/-- A link keeps its endpoint. -/
theorem ServerStep.remoteEndpoint (h : ServerStep s a s') {l : Nat} (hl : l < s.created) :
    (s'.objects l).remoteEndpoint = (s.objects l).remoteEndpoint := by
  obtain ⟨-, -, hobj⟩ | ⟨src, -, -, -, hobj⟩ | ⟨l₀, -, -, -, -, hobj⟩ := h.map_cases
  · exact (hobj l).2.1
  · rw [hobj, Function.update_of_ne (Nat.ne_of_lt hl)]
  · rw [hobj]
    by_cases he : l = l₀
    · subst he
      simp
    · rw [Function.update_of_ne he]

/-- The events that were logged before are read as before. -/
theorem ServerStep.receivedFrom_old (h : ServerStep s a s') (hi : LoggedLinks s) (e : Endpoint) :
    s.log.filterMap (ServerEvent.receivedFrom s'.objects e) = s.receivedFrom e := by
  refine List.filterMap_congr fun ev hev => ?_
  cases ev with
  | onReceived l n data => simp only [ServerEvent.receivedFrom, h.remoteEndpoint (hi l n data hev)]
  | _ => rfl

theorem ServerStep.pendingFrom_old (h : ServerStep s a s') (hd : Dispatch s) (e : Endpoint)
    (hl : s'.loop = s.loop) : s'.pendingFrom e = s.pendingFrom e := by
  simp only [UdpServer.pendingFrom, hl]
  split
  · rename_i l data hin
    rw [h.remoteEndpoint (hd.loop l data hin).1]
  · rfl

/-- A step takes over what the action brings, or leaves it. -/
theorem ServerStep.heardFrom (h : ServerStep s a s') (hd : Dispatch s) (hi : LoggedLinks s) (e : Endpoint) :
    (s'.heardFrom e).Sublist (a.brings e ++ s.heardFrom e) := by
  have hold := h.receivedFrom_old hi e
  have hpend := h.pendingFrom_old hd e
  have hep := fun l => h.remoteEndpoint (l := l)
  cases h with
  | deliver src data l hl hm hdel =>
    have hsrc := (hd.mapped src l hm).2
    by_cases he : src = e <;> simp [UdpServer.heardFrom, UdpServer.pendingFrom, UdpServer.receivedFrom,
      ServerAction.brings, ServerEvent.receivedFrom, hl, hsrc, he]
  | ignore src data l hl hm hdel =>
    by_cases he : src = e <;> simp [UdpServer.heardFrom, UdpServer.pendingFrom, UdpServer.receivedFrom,
      ServerAction.brings, ServerEvent.receivedFrom, List.filterMap_cons, hl, he]
  | create src data hl hm =>
    by_cases he : src = e <;> simp_all [UdpServer.heardFrom, UdpServer.pendingFrom, UdpServer.receivedFrom,
      ServerAction.brings, ServerEvent.receivedFrom, List.filterMap_cons]
  | @first h l data hl hc hdel =>
    have hsame := hep l (hd.loop l data hl).1
    by_cases he : (s.objects l).remoteEndpoint = e <;> simp_all [UdpServer.heardFrom, UdpServer.pendingFrom,
      UdpServer.receivedFrom, ServerAction.brings, ServerEvent.receivedFrom]
  | @firstIgnored h l data hl hdel =>
    by_cases he : (s.objects l).remoteEndpoint = e <;> simp_all [UdpServer.heardFrom, UdpServer.pendingFrom,
      UdpServer.receivedFrom, ServerAction.brings, ServerEvent.receivedFrom, List.filterMap_cons]
  | fail hl | ret hl | closed l hl hc =>
    simp [UdpServer.heardFrom, UdpServer.pendingFrom, UdpServer.receivedFrom, ServerAction.brings,
      ServerEvent.receivedFrom, List.filterMap_cons]
  | disconnect l hl hc =>
    rw [UdpServer.heardFrom, UdpServer.heardFrom, hpend rfl, ← hold]
    refine List.Sublist.append_left ?_ (s.pendingFrom e)
    simp only [UdpServer.receivedFrom]
    split <;> simp [ServerEvent.receivedFrom]

end Server

/-! ## A client -/

/-- The datagram that the action brings. -/
def LinkAction.brings : LinkAction → List Datagram
  | .arrive data => [data]
  | _ => []

def LinkEvent.received : LinkEvent → Option Datagram
  | .onReceived data => some data
  | _ => none

namespace ConnectedLink

/-- What the handler was given, newest first. -/
def received (s : ConnectedLink) : List Datagram := s.log.filterMap LinkEvent.received

/-- The datagram whose handler is queued. -/
def pending (s : ConnectedLink) : List Datagram :=
  match s.receive with
  | .queued data => [data]
  | _ => []

def heard (s : ConnectedLink) : List Datagram := s.pending ++ s.received

theorem heard_disconnect (s : ConnectedLink) : s.disconnect.heard = s.heard := by
  have hp : s.disconnect.pending = s.pending := by
    cases ho : s.link.handler.onDisconnected <;> cases hc : s.link.closed <;> cases hr : s.receive <;>
      simp [disconnect, pending, emit, ho, hc, hr]
  have hr : s.disconnect.received = s.received := by
    cases ho : s.link.handler.onDisconnected <;> cases hc : s.link.closed <;>
      simp [disconnect, received, emit, ho, hc, LinkEvent.received, List.filterMap_cons]
  rw [heard, heard, hp, hr]

theorem heard_doReceive (s : ConnectedLink) : s.doReceive.heard = s.received := by
  cases hc : s.link.closed <;> simp [doReceive, heard, pending, received, hc]

theorem received_sublist (s : ConnectedLink) : s.received.Sublist s.heard :=
  List.sublist_append_right s.pending s.received

/-- A step takes over what the action brings, or leaves it. -/
theorem heard_step {s s' : ConnectedLink} {a : LinkAction} (he : s.step a = some s') :
    s'.heard.Sublist (a.brings ++ s.heard) := by
  cases a with
  | startReceive h =>
    simp only [step] at he
    split at he <;> cases he
    rw [heard_doReceive]
    exact s.received_sublist
  | arrive data =>
    simp only [step] at he
    split at he <;> cases he
    simp [heard, pending, received, LinkAction.brings]
  | fail =>
    simp only [step] at he
    split at he <;> cases he
    exact s.received_sublist
  | complete =>
    simp only [step, complete] at he
    split at he
    · rename_i hr
      have hs : ({ s with receive := .idle } : ConnectedLink).heard.Sublist s.heard := s.received_sublist
      split at he <;> cases he
      · exact hs
      · rwa [heard_disconnect]
    · rename_i data hr
      split at he <;> cases he
      · simp [heard, pending, received, emit, hr, LinkEvent.received, LinkAction.brings]
      · rw [heard_doReceive]
        exact s.received_sublist
    all_goals cases he
  | ret =>
    simp only [step] at he
    split at he <;> cases he
    rw [heard_doReceive]
    exact s.received_sublist
  | disconnect =>
    cases he
    exact (heard_disconnect s).symm ▸ List.Sublist.refl _

end ConnectedLink

/-! ## The network -/

section Network

variable {ι : Type} [DecidableEq ι]

/-- The datagram is one of a client at the endpoint. -/
def UdpPacket.fromClient (u : UdpSizes ι) (e : Endpoint) : UdpPacket ι → Option Datagram
  | .toServer i data => if u.endpoint i = e then some data else none
  | .toClient _ _ _ => none

/-- The datagram is one for the endpoint. -/
def UdpPacket.forClient (e : Endpoint) : UdpPacket ι → Option Datagram
  | .toServer _ _ => none
  | .toClient _ dst data => if dst = e then some data else none

/-- What the server receives from others does not come from the endpoint of a client. -/
def Foreign (u : UdpSizes ι) (_ : UdpNetwork ι) : UdpAction ι → Prop
  | .server (.receive src _) => ∀ i, u.endpoint i ≠ src
  | _ => True

namespace UdpNetwork

/-- What clients at the endpoint sent to the server, with the copies that the network made. -/
def sentFrom (u : UdpSizes ι) (s : UdpNetwork ι) (e : Endpoint) : List Datagram :=
  (s.wire.sent ++ s.wire.copied).filterMap (UdpPacket.fromClient u e)

/-- What the server sent to the endpoint, with the copies that the network made. -/
def sentTo (s : UdpNetwork ι) (e : Endpoint) : List Datagram :=
  (s.wire.sent ++ s.wire.copied).filterMap (UdpPacket.forClient e)

end UdpNetwork

structure UdpInv (u : UdpSizes ι) (s : UdpNetwork ι) : Prop where
  dispatch : Dispatch s.server
  logged : LoggedLinks s.server
  wire : s.wire.Valid
  server : ∀ i, (s.server.heardFrom (u.endpoint i)).Sublist
    ((s.wire.arrived.filterMap (UdpPacket.fromClient u (u.endpoint i))).map (List.take u.server))
  client : ∀ i, (s.clients i).heard.Sublist
    ((s.wire.arrived.filterMap (UdpPacket.forClient (u.endpoint i))).map (List.take (u.client i)))
  fromClient : ∀ i data, .toServer i data ∈ s.wire.sent → data.length ≤ u.client i
  forClient : ∀ l dst data, .toClient l dst data ∈ s.wire.sent → data.length ≤ u.server

/-- The steps of the network. -/
inductive UdpStep (u : UdpSizes ι) (s : UdpNetwork ι) : UdpAction ι → UdpNetwork ι → Prop where
  | client (i : ι) (a : LinkAction) {c : ConnectedLink} (ha : a.brings = [])
      (he : (s.clients i).step a = some c) : UdpStep u s (.client i a) (s.setClient i c)
  | server (a : ServerAction) {v : UdpServer} (hs : ServerStep s.server a v) :
    UdpStep u s (.server a) { s with server := v }
  | silent (a : UdpAction ι) : UdpStep u s a s
  | clientSend (i : ι) (writer : WriteCallback) (data : Datagram) (hd : data.length ≤ u.client i) :
    UdpStep u s (.clientSend i writer) { s with wire := s.wire.send (.toServer i data) }
  | serverSend (l : Nat) (writer : WriteCallback) (data : Datagram) (hd : data.length ≤ u.server) :
    UdpStep u s (.serverSend l writer)
      { s with wire := s.wire.send (.toClient l (s.server.objects l).remoteEndpoint data) }
  | serverReceive (k : Nat) (i : ι) (data : Datagram) {v : UdpServer}
      (hk : s.wire.flight[k]? = some (.toServer i data))
      (hs : ServerStep s.server (.receive (u.endpoint i) (data.take u.server)) v) :
    UdpStep u s (.serverReceive k) { s with server := v, wire := s.wire.take k (.toServer i data) }
  | clientReceive (i : ι) (k l : Nat) (data : Datagram) {c : ConnectedLink}
      (hk : s.wire.flight[k]? = some (.toClient l (u.endpoint i) data))
      (he : (s.clients i).step (.arrive (data.take (u.client i))) = some c) :
    UdpStep u s (.clientReceive i k)
      { s.setClient i c with wire := s.wire.take k (.toClient l (u.endpoint i) data) }
  | lose (k : Nat) : UdpStep u s (.lose k) { s with wire := s.wire.lose k }
  | duplicate (k : Nat) : UdpStep u s (.duplicate k) { s with wire := s.wire.duplicate k }

variable {u : UdpSizes ι} {s s' : UdpNetwork ι} {a : UdpAction ι}

omit [DecidableEq ι] in
/-- A datagram has as many bytes at most as the buffer that the writer is given. -/
theorem send_length {r : UdpLink} {n : Nat} {writer : WriteCallback} {data : Datagram}
    (h : r.send n writer = some data) : data.length ≤ n := by
  simp only [UdpLink.send] at h
  split at h <;> [cases h; skip]
  split at h <;> cases h
  have hw := writer.length_write (List.replicate n 0)
  have hb := writer.bytesWritten_le (List.replicate n 0)
  simp only [List.length_replicate] at hw hb
  simp only [resize, List.length_append, List.length_take, List.length_replicate, hw]
  omega

theorem UdpStep.of_step (he : s.step u a = some s') : UdpStep u s a s' := by
  cases a with
  | client i b =>
    by_cases hb : b.brings = []
    · have hstep : s.step u (.client i b) = ((s.clients i).step b).map (s.setClient i) := by
        cases b <;> first | rfl | simp [LinkAction.brings] at hb
      rw [hstep] at he
      obtain ⟨c, hc, rfl⟩ := Option.map_eq_some_iff.mp he
      exact .client i b hb hc
    · cases b with
      | arrive data => cases he
      | _ => exact absurd rfl hb
  | server b =>
    obtain ⟨v, hv, rfl⟩ := Option.map_eq_some_iff.mp he
    exact .server b (ServerStep.of_step hv)
  | clientSend i writer =>
    cases he
    cases hd : (s.clients i).link.send (u.client i) writer with
    | none => exact .silent _
    | some data => exact .clientSend i writer data (send_length hd)
  | serverSend l writer =>
    simp only [UdpNetwork.step] at he
    split at he <;> cases he
    cases hd : (s.server.objects l).send u.server writer with
    | none => exact .silent _
    | some data => exact .serverSend l writer data (send_length hd)
  | serverReceive k =>
    simp only [UdpNetwork.step] at he
    split at he
    · obtain ⟨v, hv, rfl⟩ := Option.map_eq_some_iff.mp he
      exact .serverReceive k _ _ ‹_› (ServerStep.of_step hv)
    · cases he
  | clientReceive i k =>
    simp only [UdpNetwork.step] at he
    split at he
    · split at he
      · obtain ⟨c, hc, rfl⟩ := Option.map_eq_some_iff.mp he
        rename_i hdst
        subst hdst
        exact .clientReceive i k _ _ ‹_› hc
      · cases he
    · cases he
  | lose k =>
    cases he
    exact .lose k
  | duplicate k =>
    cases he
    exact .duplicate k

theorem UdpStep.dispatch (h : UdpStep u s a s') (hi : UdpInv u s) :
    Dispatch s'.server ∧ LoggedLinks s'.server := by
  cases h with
  | server b hs | serverReceive k i data hk hs =>
    exact ⟨hs.dispatch hi.dispatch, hs.loggedLinks hi.dispatch hi.logged⟩
  | _ => exact ⟨hi.dispatch, hi.logged⟩

theorem UdpStep.valid (h : UdpStep u s a s') (hi : UdpInv u s) : s'.wire.Valid := by
  cases h with
  | client | server | silent => exact hi.wire
  | clientSend | serverSend => exact hi.wire.send _
  | serverReceive k i data hk hs => exact hi.wire.take hk
  | clientReceive i k l data hk he => exact hi.wire.take hk
  | lose k => exact hi.wire.lose k
  | duplicate k => exact hi.wire.duplicate k

theorem UdpStep.server_heard (h : UdpStep u s a s') (hi : UdpInv u s) (hf : Foreign u s a) (i : ι) :
    (s'.server.heardFrom (u.endpoint i)).Sublist
      ((s'.wire.arrived.filterMap (UdpPacket.fromClient u (u.endpoint i))).map (List.take u.server)) := by
  have hold := hi.server i
  cases h with
  | client | silent | clientSend | serverSend | lose | duplicate => exact hold
  | server b hs =>
    have hb : b.brings (u.endpoint i) = [] := by
      cases b with
      | receive src data => exact if_neg fun he => hf i he.symm
      | _ => rfl
    have hh := hs.heardFrom hi.dispatch hi.logged (u.endpoint i)
    rw [hb, List.nil_append] at hh
    exact hh.trans hold
  | serverReceive k j data hk hs =>
    refine (hs.heardFrom hi.dispatch hi.logged (u.endpoint i)).trans ?_
    by_cases he : u.endpoint j = u.endpoint i
    · simpa [ServerAction.brings, Wire.take, UdpPacket.fromClient, he] using hold
    · simpa [ServerAction.brings, Wire.take, UdpPacket.fromClient, he] using hold
  | clientReceive j k l data hk he =>
    simpa [UdpNetwork.setClient, Wire.take, UdpPacket.fromClient, List.filterMap_cons] using hold

theorem UdpStep.client_heard (h : UdpStep u s a s') (hi : UdpInv u s) (i : ι) :
    (s'.clients i).heard.Sublist
      ((s'.wire.arrived.filterMap (UdpPacket.forClient (u.endpoint i))).map (List.take (u.client i))) := by
  have hold := hi.client i
  cases h with
  | server | silent | clientSend | serverSend | lose | duplicate => exact hold
  | client j b hb he =>
    by_cases hj : i = j
    · subst hj
      have hh := ConnectedLink.heard_step he
      rw [hb, List.nil_append] at hh
      simpa [UdpNetwork.setClient] using hh.trans hold
    · simpa [UdpNetwork.setClient, hj] using hold
  | serverReceive k j data hk hs =>
    simpa [Wire.take, UdpPacket.forClient, List.filterMap_cons] using hold
  | clientReceive j k l data hk he =>
    by_cases hj : i = j
    · subst hj
      have hh := ConnectedLink.heard_step he
      have hcons := hh.trans (hold.cons_cons (data.take (u.client i)))
      simpa [UdpNetwork.setClient, Wire.take, UdpPacket.forClient] using hcons
    · by_cases hep : u.endpoint j = u.endpoint i
      · simpa [UdpNetwork.setClient, Wire.take, UdpPacket.forClient, hj, hep] using hold.cons _
      · simpa [UdpNetwork.setClient, Wire.take, UdpPacket.forClient, hj, hep] using hold

theorem UdpStep.lengths (h : UdpStep u s a s') (hi : UdpInv u s) :
    (∀ i data, .toServer i data ∈ s'.wire.sent → data.length ≤ u.client i) ∧
      ∀ l dst data, .toClient l dst data ∈ s'.wire.sent → data.length ≤ u.server := by
  have hs := hi.fromClient
  have hc := hi.forClient
  cases h with
  | clientSend i writer data hd =>
    refine ⟨fun j data' hm => ?_, fun l dst data' hm => ?_⟩
    · rcases List.mem_cons.mp hm with he | hm
      · cases he
        exact hd
      · exact hs j data' hm
    · rcases List.mem_cons.mp hm with he | hm
      · cases he
      · exact hc l dst data' hm
  | serverSend l writer data hd =>
    refine ⟨fun j data' hm => ?_, fun l dst data' hm => ?_⟩
    · rcases List.mem_cons.mp hm with he | hm
      · cases he
      · exact hs j data' hm
    · rcases List.mem_cons.mp hm with he | hm
      · cases he
        exact hd
      · exact hc l dst data' hm
  | _ => exact ⟨hs, hc⟩

theorem UdpStep.udpInv (h : UdpStep u s a s') (hi : UdpInv u s) (hf : Foreign u s a) : UdpInv u s' :=
  ⟨(h.dispatch hi).1, (h.dispatch hi).2, h.valid hi, h.server_heard hi hf, h.client_heard hi,
    (h.lengths hi).1, (h.lengths hi).2⟩

theorem UdpInv.reach {serverId : PeerId} (h : (UdpNetwork.lts u serverId).Reach (Foreign u) s) : UdpInv u s := by
  have hd : Dispatch (UdpServer.lts serverId).init := .reach (.refl _)
  refine h.invariant ⟨hd, ?_, Wire.valid_empty, fun i => ?_, fun i => ?_, ?_, ?_⟩
    fun hI hf he => (UdpStep.of_step he).udpInv hI hf
  · simp [UdpNetwork.lts, LoggedLinks]
  · exact List.Sublist.refl []
  · exact List.Sublist.refl []
  · simp [UdpNetwork.lts]
  · simp [UdpNetwork.lts]

omit [DecidableEq ι] in
theorem map_take_of_length_le {n : Nat} {l : List Datagram} (h : ∀ data ∈ l, data.length ≤ n) :
    l.map (List.take n) = l :=
  (List.map_congr_left fun data hd => List.take_of_length_le (h data hd)).trans (List.map_id l)

end Network

/-! ## A run -/

/-- A writer of these bytes, as far as there is room. -/
def WriteCallback.bytes (data : Datagram) : WriteCallback where
  write buf := data.take buf.length ++ buf.drop data.length
  bytesWritten buf := min data.length buf.length
  length_write buf := by
    simp only [List.length_append, List.length_take, List.length_drop]
    omega
  bytesWritten_le buf := Nat.min_le_right _ _

namespace UdpNetwork

/-- Two clients, with larger buffers than the server. -/
def twoClients : UdpSizes Bool where
  endpoint i := ⟨0x7f000001, if i then 9 else 8⟩
  client _ := 3
  server := 2

instance (u : UdpSizes Bool) (s : UdpNetwork Bool) (a : UdpAction Bool) : Decidable (Foreign u s a) :=
  match a with
  | .server (.receive src _) => inferInstanceAs (Decidable (∀ i, u.endpoint i ≠ src))
  | .server .fail | .server (.onLink _) | .server .ret | .server (.disconnect _) | .client _ _
  | .clientSend _ _ | .serverSend _ _ | .serverReceive _ | .clientReceive _ _ | .lose _
  | .duplicate _ => .isTrue trivial

end UdpNetwork

open UdpNetwork (twoClients)

end TX.Rtt.Udp
