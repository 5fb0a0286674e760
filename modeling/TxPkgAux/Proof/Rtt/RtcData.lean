import TxPkgAux.Impl.Rtt.RtcData
import TxPkgAux.Proof.Rtt.DcRefs
import TxPkgAux.Proof.Rtt.RtcPairs
import TxPkgAux.Proof.Rtt.UdpNetwork

/-!
# Data over the links of the transports: end to end

What the handler of a link receives is a piece of what one link of its peer sent, with nothing
left out of it, out of order or twice (`data_delivered`). What comes before that was there before
the handler was set, and what comes after it after the link was disconnected or gone
(`Inbox.UpTo`), or the channel closed: nothing else is lost.
-/

namespace TX.Rtt

open Function (update update_self update_of_ne)

/-- The description that `pc.setRemoteDescription` of the link was made with. -/
def DcEvent.given (l : Nat) : DcEvent → Option Description
  | .described l' d => if l' = l then some d else none
  | _ => none

section

variable {ι τ : Type} [DecidableEq ι] [DecidableEq τ]

/-- The peer connection of `p` was given what that of `q` described. -/
def RtcNetwork.Given (ids : ι → PeerId) (s : RtcNetwork ι τ) (p q : LinkName ι) : Prop :=
  ∃ e ∈ (s.nodes p.1).log, ∃ d ∈ e.given p.2,
    ⟨q.1, q.2, ids p.1, .description d.type d.sdp⟩ ∈ s.wire.sent

/-- Peer connections connect where each was given what the other described. -/
def Connects (ids : ι → PeerId) (s : RtcData ι τ) : DataAction ι τ → Prop
  | .net a => Negotiates s.net a ∧ DescribesOnce s.net a
  | .connect p q => s.net.Given ids p q ∧ s.net.Given ids q p
  | _ => True

/-! ## The steps -/

inductive DataStep (parse : Parse) (dump : Dump) (ids : ι → PeerId) (maxMessageSize : ι → Nat)
    (s : RtcData ι τ) : DataAction ι τ → RtcData ι τ → Prop where
  | net (a : RtcAction ι τ) {n : RtcNetwork ι τ} (ha : s.aside a = true)
      (hs : RtcStep parse dump ids s.net a n) : DataStep parse dump ids maxMessageSize s (.net a) { s with net := n }
  | connect (p q : LinkName ι) (hne : p ≠ q) (hp : (s.ends p).peer = none) (hq : (s.ends q).peer = none) :
    DataStep parse dump ids maxMessageSize s (.connect p q)
      ((s.setEnd p { s.ends p with peer := some q }).setEnd q { s.ends q with peer := some p })
  | channel (t : τ) (p : LinkName ι) {n : RtcNetwork ι τ} (hp : (s.ends p).peer ≠ none)
      (ho : (s.ends p).opened = false) (hs : RtcStep parse dump ids s.net (.node p.1 (.channel t p.2)) n) :
    DataStep parse dump ids maxMessageSize s (.channel t p)
      ({ s with net := n }.setEnd p { s.ends p with opened := true, isOpen := true })
  | setHandler (i : ι) (t : τ) (receives : Bool) (l : Nat) (h : LinkHandler) {n : RtcNetwork ι τ}
      (hc : (s.net.nodes i).calls t = some (.setHandler l h))
      (hs : RtcStep parse dump ids s.net (.node i (.next t true)) n) (hn : (n.nodes i).calls t = none) :
    DataStep parse dump ids maxMessageSize s (.setHandler i t receives)
      ({ s with net := n }.setEnd (i, l) { s.ends (i, l) with receives := some receives })
  | unsent (p : LinkName ι) (writer : Udp.WriteCallback) :
    DataStep parse dump ids maxMessageSize s (.send p writer) s
  | send (p : LinkName ι) (writer : Udp.WriteCallback) (m : Message)
      (hm : (s.link p).send (maxMessageSize p.1) (s.ends p).isOpen writer = some m) :
    DataStep parse dump ids maxMessageSize s (.send p writer) (s.handOver p m)
  | deliver (p : LinkName ι) (m : Message) (incoming : List Message)
      (hm : (s.ends p).incoming = m :: incoming) :
    DataStep parse dump ids maxMessageSize s (.deliver p) (s.setEnd p { s.ends p with
      incoming := incoming, inbox := (s.ends p).inbox.arrive m (s.phase p) })
  | close (p : LinkName ι) (ho : (s.ends p).isOpen = true) :
    DataStep parse dump ids maxMessageSize s (.close p)
      (s.setEnd p { s.ends p with isOpen := false, incoming := [] })

variable {parse : Parse} {dump : Dump} {ids remote : ι → PeerId} {maxMessageSize : ι → Nat}
  {s s' : RtcData ι τ} {a : DataAction ι τ} {n : RtcNetwork ι τ} {p q : LinkName ι}

theorem DataStep.of_step (he : s.step parse dump ids maxMessageSize a = some s') :
    DataStep parse dump ids maxMessageSize s a s' := by
  cases a with
  | net a =>
    simp only [RtcData.step] at he
    split at he
    · obtain ⟨n, hn, rfl⟩ := Option.map_eq_some_iff.mp he
      exact .net a ‹_› (.of_step hn)
    · cases he
  | connect p q =>
    simp only [RtcData.step] at he
    split at he <;> cases he
    rename_i h
    exact .connect p q h.1 h.2.1 h.2.2
  | channel t p =>
    simp only [RtcData.step] at he
    split at he
    · rename_i h
      obtain ⟨n, hn, rfl⟩ := Option.map_eq_some_iff.mp he
      exact .channel t p (Option.isSome_iff_ne_none.mp h.1) h.2 (.of_step hn)
    · cases he
  | setHandler i t receives =>
    simp only [RtcData.step] at he
    split at he
    · cases he
    · rename_i l hl
      obtain ⟨n, hn, rfl⟩ := Option.map_eq_some_iff.mp he
      obtain ⟨h, hc⟩ : ∃ h, (s.net.nodes i).calls t = some (.setHandler l h) := by
        rw [DcRtcTransport.setting] at hl
        split at hl <;> cases hl
        exact ⟨_, ‹_›⟩
      refine .setHandler i t receives l h hc (.of_step hn) ?_
      obtain ⟨v, hv, rfl⟩ := Option.map_eq_some_iff.mp hn
      simp only [DcRtcTransport.step, DcRtcTransport.next, hc, Option.some.injEq] at hv
      subst hv
      simp only [RtcNetwork.setNode, update_self]
      split <;> exact update_self ..
  | send p writer =>
    simp only [RtcData.step] at he
    split at he
    · split at he <;> cases he
      · exact .unsent p writer
      · exact .send p writer _ ‹_›
    · cases he
  | deliver p =>
    simp only [RtcData.step] at he
    split at he
    · cases he
    · split at he <;> cases he
      exact .deliver p _ _ ‹_›
  | close p =>
    simp only [RtcData.step] at he
    split at he <;> cases he
    exact .close p ‹_›

/-! ## What a step of the network leaves to the ends -/

omit [DecidableEq τ] in
theorem RtcNetwork.nodes_update (w : RtcNetwork ι τ) (i : ι) (v : DcRtcTransport τ) (j : ι) :
    (w.setNode i v).nodes j = w.nodes j ∨ i = j ∧ (w.setNode i v).nodes j = v := by
  by_cases hj : j = i
  · subst hj
    exact .inr ⟨rfl, update_self ..⟩
  · exact .inl (update_of_ne hj ..)

/-- A transport stays as it is, or takes a step: the opening of a channel, where it is that. -/
theorem RtcStep.nodes {w : RtcNetwork ι τ} {b : RtcAction ι τ} (h : RtcStep parse dump ids w b n) (j : ι) :
    n.nodes j = w.nodes j ∨ ∃ c, DcStep parse (w.nodes j) c (n.nodes j) ∧
      ∀ t l, c = .channel t l → b = .node j (.channel t l) := by
  cases h with
  | @node i c v hm he =>
    rcases RtcNetwork.nodes_update w i v j with hn | ⟨rfl, hn⟩
    · exact .inl hn
    · rw [hn]
      exact .inr ⟨c, .of_step he, fun t l hc => by rw [hc]⟩
  | @arrive i t k p v hp hd he =>
    rcases RtcNetwork.nodes_update w i v j with hn | ⟨rfl, hn⟩
    · exact .inl hn
    · refine .inr ⟨.onMessage t (RtcNetwork.message dump ids p), ?_, fun t' l hc => by cases hc⟩
      show DcStep parse (w.nodes i) _ ((w.setNode i v).nodes i)
      rw [hn]
      exact .of_step he
  | report i l e hl | lose k | duplicate k => exact .inl rfl

theorem RtcStep.sent_subset {w : RtcNetwork ι τ} {b : RtcAction ι τ} (h : RtcStep parse dump ids w b n) :
    w.wire.sent ⊆ n.wire.sent := by
  cases h with
  | report i l e hl => exact List.subset_cons_self _ _
  | node | arrive | lose | duplicate => exact List.Subset.refl _

theorem RtcStep.refInv {w : RtcNetwork ι τ} {b : RtcAction ι τ} (h : RtcStep parse dump ids w b n)
    (hi : ∀ i, RefInv (w.nodes i)) (j : ι) : RefInv (n.nodes j) := by
  rcases h.nodes j with hn | ⟨c, hs, -⟩
  · rw [hn]
    exact hi j
  · exact hs.refInv (hi j)

theorem DcRtcLink.phase_le {r r' : DcRtcLink} {locked locked' : Bool} {receives receives' : Option Bool}
    (hl : locked = false → locked' = false) (hd : r.disconnectRequested = true → r'.disconnectRequested = true)
    (hr : receives = none ∨ receives' = receives) :
    r.phase locked receives ≤ r'.phase locked' receives' := by
  by_cases h' : locked' = false ∨ r'.disconnectRequested = true
  · have hc : r'.phase locked' receives' = .closed := if_pos h'
    rw [hc]
    exact Phase.le_closed _
  · have h : ¬ (locked = false ∨ r.disconnectRequested = true) := fun h => h' (h.imp hl hd)
    simp only [DcRtcLink.phase, if_neg h, if_neg h']
    rcases hr with rfl | rfl
    · exact Phase.opening_le _
    · exact Phase.le_refl _

/-- The phase of an end goes on while the network does. -/
theorem RtcStep.phase_le {w : RtcNetwork ι τ} {b : RtcAction ι τ} (h : RtcStep parse dump ids w b n)
    (hi : ∀ i, RefInv (w.nodes i)) (hp : p.2 < (w.nodes p.1).created) {receives receives' : Option Bool}
    (hr : receives = none ∨ receives' = receives) :
    ((w.nodes p.1).links p.2).phase ((w.nodes p.1).owned p.2) receives ≤
      ((n.nodes p.1).links p.2).phase ((n.nodes p.1).owned p.2) receives' := by
  rcases h.nodes p.1 with hn | ⟨c, hs, -⟩
  · rw [hn]
    exact DcRtcLink.phase_le id id hr
  · exact DcRtcLink.phase_le (hs.gone_stays (hi p.1) hp) (hs.disconnectRequested hp) hr

/-- The calls that are to set the handler of the link. -/
def RtcNetwork.setters (w : RtcNetwork ι τ) (p : LinkName ι) : Set τ :=
  {t | ((w.nodes p.1).calls t).bind Call.links = some p.2}

theorem RtcStep.setters {w : RtcNetwork ι τ} {b : RtcAction ι τ} (h : RtcStep parse dump ids w b n)
    {t : τ} (ht : t ∈ n.setters p) : t ∈ w.setters p ∨ b = .node p.1 (.channel t p.2) := by
  rcases h.nodes p.1 with hn | ⟨c, hs, hc⟩
  · have hl : ((n.nodes p.1).calls t).bind Call.links = some p.2 := ht
    rw [hn] at hl
    exact .inl hl
  · exact (hs.linking ht).imp id fun he => hc t p.2 he

/-! ## Every run -/

/-- All that was handed to `q` came to `p`, or is on its way there, or was lost when the channel
closed. -/
def RtcData.Flows (s : RtcData ι τ) (p q : LinkName ι) : Prop :=
  ∃ lost, (s.ends q).sent = (s.ends p).inbox.all ++ (s.ends p).incoming ++ lost ∧
    (lost ≠ [] → (s.ends p).opened = true ∧ (s.ends p).isOpen = false)

/-- The peer connection of `q` described something for the transport of `p`. -/
def RtcNetwork.Described (ids : ι → PeerId) (s : RtcNetwork ι τ) (p q : LinkName ι) : Prop :=
  ∃ type sdp, ⟨q.1, q.2, ids p.1, .description type sdp⟩ ∈ s.wire.sent

/-- An end of a data channel. -/
structure EndInv (maxMessageSize : ι → Nat) (s : RtcData ι τ) (p : LinkName ι) : Prop where
  unpeered : (s.ends p).peer = none → (s.ends p).opened = false ∧ (s.ends p).isOpen = false ∧
    (s.ends p).sent = [] ∧ (s.ends p).incoming = [] ∧ (s.ends p).inbox = {}
  isOpen : (s.ends p).isOpen = true → (s.ends p).opened = true
  upTo : (s.ends p).inbox.UpTo (s.phase p)
  sizes : ∀ m ∈ (s.ends p).sent, 0 < m.length ∧ m.length ≤ maxMessageSize p.1
  setters : (s.net.setters p).Subsingleton
  setting : (s.net.setters p).Nonempty → (s.ends p).opened = true ∧ (s.ends p).receives = none
  fresh : (s.ends p).opened = false → (s.ends p).receives = none

structure DataInv (ids remote : ι → PeerId) (maxMessageSize : ι → Nat) (s : RtcData ι τ) : Prop where
  rtc : RtcInv ids remote s.net
  pair : PairInv ids s.net
  refs : ∀ i, RefInv (s.net.nodes i)
  ends : ∀ p, EndInv maxMessageSize s p
  peers : ∀ p q, (s.ends p).peer = some q → (s.ends q).peer = some p ∧ s.net.Described ids p q
  flows : ∀ p q, (s.ends p).peer = some q → s.Flows p q

omit [DecidableEq τ] in
theorem DataInv.facing (hi : DataInv ids remote maxMessageSize s) (hids : Function.Injective ids)
    (hg : NoGlare ids remote) (hp : (s.ends p).peer = some q) : s.net.Facing ids p.1 p.2 q.1 q.2 := by
  obtain ⟨hq, type, sdp, hm⟩ := hi.peers p q hp
  obtain ⟨-, type', sdp', hm'⟩ := hi.peers q p hq
  obtain ⟨hl, hback, -⟩ := hi.rtc.genuine _ hm
  obtain ⟨hl', hremote, -⟩ := hi.rtc.genuine _ hm'
  exact hi.rtc.facing hids hg hl' hl hremote hback

omit [DecidableEq τ] in
/-- A connected end is one of a link that was made. -/
theorem DataInv.created (hi : DataInv ids remote maxMessageSize s) (hids : Function.Injective ids)
    (hg : NoGlare ids remote) (hp : (s.ends p).peer ≠ none) : p.2 < (s.net.nodes p.1).created := by
  obtain ⟨q, hq⟩ := Option.ne_none_iff_exists'.mp hp
  exact (hi.facing hids hg hq).here

/-! ### Steps of the network -/

theorem EndInv.upTo_net (hi : EndInv maxMessageSize s p) {b : RtcAction ι τ} {receives : Option Bool}
    (hs : RtcStep parse dump ids s.net b n) (hrefs : ∀ i, RefInv (s.net.nodes i))
    (hc : (s.ends p).peer ≠ none → p.2 < (s.net.nodes p.1).created)
    (hr : (s.ends p).receives = none ∨ receives = (s.ends p).receives) :
    (s.ends p).inbox.UpTo (((n.nodes p.1).links p.2).phase ((n.nodes p.1).owned p.2) receives) := by
  by_cases hp : (s.ends p).peer = none
  · obtain ⟨-, -, -, -, hin⟩ := hi.unpeered hp
    rw [hin]
    exact Inbox.upTo_empty _
  · exact hi.upTo.mono (hs.phase_le hrefs (hc hp) hr)

/-- The network goes on, without this end. -/
theorem EndInv.net (hi : EndInv maxMessageSize s p) {b : RtcAction ι τ}
    (hs : RtcStep parse dump ids s.net b s'.net) (hrefs : ∀ i, RefInv (s.net.nodes i))
    (hc : (s.ends p).peer ≠ none → p.2 < (s.net.nodes p.1).created) (he : s'.ends p = s.ends p)
    (hb : ∀ t, b ≠ .node p.1 (.channel t p.2)) : EndInv maxMessageSize s' p := by
  have hset : s'.net.setters p ⊆ s.net.setters p := fun t ht => (hs.setters ht).resolve_right (hb t)
  refine ⟨?_, ?_, ?_, ?_, hi.setters.anti hset, fun hn => ?_, ?_⟩
  · rw [he]
    exact hi.unpeered
  · rw [he]
    exact hi.isOpen
  · rw [he]
    exact hi.upTo_net hs hrefs hc (.inr (congrArg ChannelEnd.receives he))
  · rw [he]
    exact hi.sizes
  · rw [he]
    exact hi.setting (hn.mono hset)
  · rw [he]
    exact hi.fresh

omit [DecidableEq τ] in
theorem RtcData.ends_setEnd (w : RtcData ι τ) (q : LinkName ι) (e : ChannelEnd ι) (p : LinkName ι) :
    (w.setEnd q e).ends p = w.ends p ∧ p ≠ q ∨ p = q ∧ (w.setEnd q e).ends p = e := by
  by_cases hp : p = q
  · subst hp
    exact .inr ⟨rfl, update_self ..⟩
  · exact .inl ⟨update_of_ne hp .., hp⟩

/-- The data channel of an end opens. -/
theorem EndInv.channel (hi : EndInv maxMessageSize s p) {t : τ} (hp : (s.ends p).peer ≠ none)
    (ho : (s.ends p).opened = false) (hs : RtcStep parse dump ids s.net (.node p.1 (.channel t p.2)) n)
    (hrefs : ∀ i, RefInv (s.net.nodes i)) (hc : p.2 < (s.net.nodes p.1).created) :
    EndInv maxMessageSize ({ s with net := n }.setEnd p { s.ends p with opened := true, isOpen := true }) p := by
  have hnone : s.net.setters p = ∅ := by
    by_contra hne
    have := (hi.setting (Set.nonempty_iff_ne_empty.mpr hne)).1
    simp [ho] at this
  have hset : n.setters p ⊆ {t} := fun t' ht' => by
    rcases hs.setters ht' with hold | hact
    · simp [hnone] at hold
    · cases hact
      rfl
  have he : ({ s with net := n }.setEnd p { s.ends p with opened := true, isOpen := true }).ends p =
      { s.ends p with opened := true, isOpen := true } := update_self ..
  refine ⟨fun hn => ?_, fun _ => ?_, ?_, ?_, ?_, fun _ => ?_, ?_⟩
  · rw [he] at hn
    exact absurd hn hp
  · rw [he]
  · rw [he]
    exact hi.upTo_net hs hrefs (fun _ => hc) (.inr (by rw [he]))
  · rw [he]
    exact hi.sizes
  · exact Set.subsingleton_singleton.anti hset
  · rw [he]
    exact ⟨rfl, hi.fresh ho⟩
  · rw [he]
    exact nofun

/-- The handler of an end is set. -/
theorem EndInv.setHandler (hi : EndInv maxMessageSize s p) {t : τ} {h : LinkHandler} (receives : Bool)
    (hcall : (s.net.nodes p.1).calls t = some (.setHandler p.2 h))
    (hs : RtcStep parse dump ids s.net (.node p.1 (.next t true)) n) (hn : (n.nodes p.1).calls t = none)
    (hrefs : ∀ i, RefInv (s.net.nodes i))
    (hc : (s.ends p).peer ≠ none → p.2 < (s.net.nodes p.1).created) :
    EndInv maxMessageSize ({ s with net := n }.setEnd p { s.ends p with receives := some receives }) p := by
  have ht : t ∈ s.net.setters p := by
    show ((s.net.nodes p.1).calls t).bind Call.links = some p.2
    rw [hcall]
    rfl
  obtain ⟨hopen, hrec⟩ := hi.setting ⟨t, ht⟩
  have hset : n.setters p = ∅ := Set.eq_empty_of_forall_notMem fun t' ht' => by
    rcases hs.setters ht' with hold | hact
    · obtain rfl : t' = t := hi.setters hold ht
      have hl : ((n.nodes p.1).calls t').bind Call.links = some p.2 := ht'
      rw [hn] at hl
      cases hl
    · cases hact
  have he : ({ s with net := n }.setEnd p { s.ends p with receives := some receives }).ends p =
      { s.ends p with receives := some receives } := update_self ..
  refine ⟨?_, ?_, ?_, ?_, ?_, fun hne => ?_, fun hf => ?_⟩
  · rw [he]
    exact hi.unpeered
  · rw [he]
    exact hi.isOpen
  · rw [he]
    exact hi.upTo_net hs hrefs hc (.inl hrec)
  · rw [he]
    exact hi.sizes
  · show (n.setters p).Subsingleton
    rw [hset]
    exact Set.subsingleton_empty
  · have hne' : (n.setters p).Nonempty := hne
    rw [hset] at hne'
    exact absurd hne' Set.not_nonempty_empty
  · rw [he] at hf
    simp [hopen] at hf

/-! ### Steps of the channels -/

omit [DecidableEq ι] [DecidableEq τ] in
/-- The channel goes on, and the network stays as it is. -/
theorem EndInv.data (hi : EndInv maxMessageSize s p) (hn : s'.net = s.net)
    (ho : (s'.ends p).opened = (s.ends p).opened) (hr : (s'.ends p).receives = (s.ends p).receives)
    (hio : (s'.ends p).isOpen = true → (s.ends p).isOpen = true)
    (hu : (s'.ends p).peer = none → (s'.ends p).isOpen = false ∧ (s'.ends p).sent = [] ∧
      (s'.ends p).incoming = [] ∧ (s'.ends p).inbox = {} ∧ (s.ends p).peer = none)
    (hup : (s'.ends p).inbox.UpTo (s.phase p))
    (hsize : ∀ m ∈ (s'.ends p).sent, 0 < m.length ∧ m.length ≤ maxMessageSize p.1) :
    EndInv maxMessageSize s' p where
  unpeered hp := by
    obtain ⟨h₁, h₂, h₃, h₄, h₅⟩ := hu hp
    exact ⟨ho.trans (hi.unpeered h₅).1, h₁, h₂, h₃, h₄⟩
  isOpen hp := ho.trans (hi.isOpen (hio hp))
  upTo := by
    have hphase : s'.phase p = s.phase p := by
      rw [RtcData.phase, RtcData.phase, RtcData.link, RtcData.link, RtcData.owned, RtcData.owned, hn, hr]
    rwa [hphase]
  sizes := hsize
  setters := by
    rw [hn]
    exact hi.setters
  setting := by
    rw [hn, ho, hr]
    exact hi.setting
  fresh := by
    rw [ho, hr]
    exact hi.fresh

omit [DecidableEq ι] [DecidableEq τ] in
theorem EndInv.same (hi : EndInv maxMessageSize s p) (hn : s'.net = s.net) (he : s'.ends p = s.ends p) :
    EndInv maxMessageSize s' p := by
  refine hi.data hn (by rw [he]) (by rw [he]) (by simp [he]) (fun hp => ?_) ?_ ?_
  · rw [he] at hp ⊢
    obtain ⟨-, h₁, h₂, h₃, h₄⟩ := hi.unpeered hp
    exact ⟨h₁, h₂, h₃, h₄, hp⟩
  · rw [he]
    exact hi.upTo
  · rw [he]
    exact hi.sizes

omit [DecidableEq ι] in
/-- A message is never empty, nor larger than the option. -/
theorem DcRtcLink.send_length {r : DcRtcLink} {max : Nat} {isOpen : Bool} {writer : Udp.WriteCallback}
    {m : Message} (h : r.send max isOpen writer = some m) :
    isOpen = true ∧ 0 < m.length ∧ m.length ≤ max := by
  simp only [DcRtcLink.send] at h
  split at h
  · cases h
  · rename_i hc
    split at h <;> cases h
    rename_i hz
    have hle := writer.bytesWritten_le (List.replicate max 0)
    rw [List.length_replicate] at hle
    simp only [not_or, Bool.not_eq_false] at hc
    refine ⟨hc.2.2, ?_⟩
    rw [List.length_take, writer.length_write, List.length_replicate]
    omega

omit [DecidableEq τ] in
theorem RtcData.connect_ends {w : RtcData ι τ} (hne : p ≠ q) (x : LinkName ι) :
    ((w.setEnd p { w.ends p with peer := some q }).setEnd q { w.ends q with peer := some p }).ends x =
      { w.ends x with peer := if x = q then some p else if x = p then some q else (w.ends x).peer } := by
  rcases (w.setEnd p { w.ends p with peer := some q }).ends_setEnd q { w.ends q with peer := some p } x with
    ⟨hx, hxq⟩ | ⟨rfl, hx⟩
  · rw [hx, if_neg hxq]
    rcases w.ends_setEnd p { w.ends p with peer := some q } x with ⟨hx, hxp⟩ | ⟨rfl, hx⟩
    · rw [hx, if_neg hxp]
    · rw [hx, if_pos rfl]
  · rw [hx, if_pos rfl]

omit [DecidableEq τ] in
/-- Two ends connect, to which nothing has happened. -/
theorem DataInv.connect (hi : DataInv ids remote maxMessageSize s) (hne : p ≠ q)
    (hp : (s.ends p).peer = none) (hq : (s.ends q).peer = none) (hpq : s.net.Described ids p q)
    (hqp : s.net.Described ids q p) : DataInv ids remote maxMessageSize
      ((s.setEnd p { s.ends p with peer := some q }).setEnd q { s.ends q with peer := some p }) := by
  have he := RtcData.connect_ends (w := s) hne
  have hpeer : ∀ {x y}, (if x = q then some p else if x = p then some q else (s.ends x).peer) = some y →
      x = q ∧ y = p ∨ x = p ∧ y = q ∨ x ≠ q ∧ x ≠ p ∧ (s.ends x).peer = some y := fun {x y} hy => by
    split at hy
    · exact .inl ⟨‹_›, (Option.some.inj hy).symm⟩
    · split at hy
      · exact .inr (.inl ⟨‹_›, (Option.some.inj hy).symm⟩)
      · exact .inr (.inr ⟨‹_›, ‹_›, hy⟩)
  have hflow : ∀ x y, (s.ends x).peer = none → (s.ends y).peer = none → s.Flows x y := fun x y hx hy => by
    obtain ⟨-, -, -, hin, hbox⟩ := (hi.ends x).unpeered hx
    obtain ⟨-, -, hsent, -⟩ := (hi.ends y).unpeered hy
    exact ⟨[], by simp [hin, hbox, hsent, Inbox.all], fun hl => absurd rfl hl⟩
  have hflows : ∀ {x y}, s.Flows x y → RtcData.Flows ((s.setEnd p { s.ends p with peer := some q }).setEnd q
      { s.ends q with peer := some p }) x y := fun {x y} hf => by
    rw [RtcData.Flows, he x, he y]
    exact hf
  refine ⟨hi.rtc, hi.pair, hi.refs, fun x => ?_, fun x y hxy => ?_, fun x y hxy => hflows ?_⟩
  · refine (hi.ends x).data rfl (by rw [he]) (by rw [he]) (by simp [he]) (fun hx => ?_) ?_ ?_
    · have hx' : (s.ends x).peer = none := by
        rw [he] at hx
        simp only at hx
        split at hx
        · cases hx
        · split at hx
          · cases hx
          · exact hx
      obtain ⟨-, h₁, h₂, h₃, h₄⟩ := (hi.ends x).unpeered hx'
      rw [he]
      exact ⟨h₁, h₂, h₃, h₄, hx'⟩
    · rw [he]
      exact (hi.ends x).upTo
    · rw [he]
      exact (hi.ends x).sizes
  · rw [he] at hxy
    rw [he]
    rcases hpeer hxy with ⟨rfl, rfl⟩ | ⟨rfl, rfl⟩ | ⟨hxq, hxp, hxy⟩
    · exact ⟨by simp [hne], hqp⟩
    · exact ⟨by simp, hpq⟩
    · obtain ⟨hback, hd⟩ := hi.peers x y hxy
      refine ⟨?_, hd⟩
      have hyq : y ≠ q := fun hy => by simp [hy, hq] at hback
      have hyp : y ≠ p := fun hy => by simp [hy, hp] at hback
      simp only [if_neg hyq, if_neg hyp, hback]
  · rw [he] at hxy
    rcases hpeer hxy with ⟨rfl, rfl⟩ | ⟨rfl, rfl⟩ | ⟨-, -, hxy⟩
    · exact hflow _ _ hq hp
    · exact hflow _ _ hp hq
    · exact hi.flows x y hxy

omit [DecidableEq τ] in
theorem DataInv.data (hi : DataInv ids remote maxMessageSize s) (hn : s'.net = s.net)
    (hp : ∀ x, (s'.ends x).peer = (s.ends x).peer) (he : ∀ x, EndInv maxMessageSize s' x)
    (hf : ∀ x y, (s.ends x).peer = some y → s'.Flows x y) : DataInv ids remote maxMessageSize s' where
  rtc := hn ▸ hi.rtc
  pair := hn ▸ hi.pair
  refs := hn ▸ hi.refs
  ends := he
  peers x y hxy := by
    rw [hp] at hxy
    rw [hp, hn]
    exact hi.peers x y hxy
  flows x y hxy := hf x y (hp x ▸ hxy)

omit [DecidableEq τ] in
/-- One end takes what came to it, or closes. -/
theorem DataInv.setEnd (hi : DataInv ids remote maxMessageSize s) {e : ChannelEnd ι}
    (hpeer : e.peer = (s.ends p).peer) (hsent : e.sent = (s.ends p).sent)
    (he : EndInv maxMessageSize (s.setEnd p e) p)
    (hf : ∀ q, (s.ends p).peer = some q → p ≠ q → (s.setEnd p e).Flows p q) (hne : (s.ends p).peer ≠ some p) :
    DataInv ids remote maxMessageSize (s.setEnd p e) := by
  have hends : ∀ x, (s.setEnd p e).ends x = s.ends x ∧ x ≠ p ∨ x = p ∧ (s.setEnd p e).ends x = e :=
    s.ends_setEnd p e
  have hsame : ∀ x, ((s.setEnd p e).ends x).sent = (s.ends x).sent := fun x => by
    rcases hends x with ⟨hx, -⟩ | ⟨rfl, hx⟩
    · rw [hx]
    · rw [hx, hsent]
  refine hi.data rfl (fun x => ?_) (fun x => ?_) fun x y hxy => ?_
  · rcases hends x with ⟨hx, -⟩ | ⟨rfl, hx⟩
    · rw [hx]
    · rw [hx, hpeer]
  · rcases hends x with ⟨hx, -⟩ | ⟨rfl, -⟩
    · exact (hi.ends x).same rfl hx
    · exact he
  · rcases hends x with ⟨hx, hxp⟩ | ⟨rfl, -⟩
    · rw [RtcData.Flows, hsame, hx]
      exact hi.flows x y hxy
    · exact hf y hxy fun hy => hne (hy ▸ hxy)

omit [DecidableEq τ] in
theorem DataInv.not_self (hi : DataInv ids remote maxMessageSize s) (hids : Function.Injective ids)
    (hg : NoGlare ids remote) (p : LinkName ι) : (s.ends p).peer ≠ some p := fun hp => by
  have hin := (hi.facing hids hg hp).inbound
  cases hb : ((s.net.nodes p.1).links p.2).inbound <;> simp [hb] at hin

omit [DecidableEq τ] in
theorem DataInv.deliver (hi : DataInv ids remote maxMessageSize s) (hids : Function.Injective ids)
    (hg : NoGlare ids remote) {m : Message} {incoming : List Message}
    (hm : (s.ends p).incoming = m :: incoming) : DataInv ids remote maxMessageSize (s.setEnd p { s.ends p with
      incoming := incoming, inbox := (s.ends p).inbox.arrive m (s.phase p) }) := by
  have hends : (s.setEnd p { s.ends p with
      incoming := incoming, inbox := (s.ends p).inbox.arrive m (s.phase p) }).ends p = { s.ends p with
        incoming := incoming, inbox := (s.ends p).inbox.arrive m (s.phase p) } := update_self ..
  refine hi.setEnd rfl rfl ?_ (fun q hq hpq => ?_) (hi.not_self hids hg p)
  · refine (hi.ends p).data rfl (by rw [hends]) (by rw [hends]) (by simp [hends]) (fun hp => ?_) ?_ ?_
    · rw [hends] at hp
      have hin := ((hi.ends p).unpeered hp).2.2.2.1
      rw [hm] at hin
      cases hin
    · rw [hends]
      exact (hi.ends p).upTo.arrive m
    · rw [hends]
      exact (hi.ends p).sizes
  · obtain ⟨lost, hl, hc⟩ := hi.flows p q hq
    have hq' : (s.setEnd p { s.ends p with
        incoming := incoming, inbox := (s.ends p).inbox.arrive m (s.phase p) }).ends q = s.ends q :=
      update_of_ne (Ne.symm hpq) ..
    refine ⟨lost, ?_, ?_⟩
    · rw [hq', hends, hl, hm]
      simp [(hi.ends p).upTo.all_arrive]
    · rw [hends]
      exact hc

omit [DecidableEq τ] in
theorem DataInv.close (hi : DataInv ids remote maxMessageSize s) (hids : Function.Injective ids)
    (hg : NoGlare ids remote) (ho : (s.ends p).isOpen = true) : DataInv ids remote maxMessageSize
      (s.setEnd p { s.ends p with isOpen := false, incoming := [] }) := by
  have hends : (s.setEnd p { s.ends p with isOpen := false, incoming := [] }).ends p =
      { s.ends p with isOpen := false, incoming := [] } := update_self ..
  have hpeered : (s.ends p).peer ≠ none := fun hp => by
    have := ((hi.ends p).unpeered hp).2.1
    simp [ho] at this
  refine hi.setEnd rfl rfl ?_ (fun q hq hpq => ?_) (hi.not_self hids hg p)
  · refine (hi.ends p).data rfl (by rw [hends]) (by rw [hends]) (by simp [hends]) (fun hp => ?_) ?_ ?_
    · rw [hends] at hp
      exact absurd hp hpeered
    · rw [hends]
      exact (hi.ends p).upTo
    · rw [hends]
      exact (hi.ends p).sizes
  · obtain ⟨lost, hl, -⟩ := hi.flows p q hq
    have hq' : (s.setEnd p { s.ends p with isOpen := false, incoming := [] }).ends q = s.ends q :=
      update_of_ne (Ne.symm hpq) ..
    refine ⟨(s.ends p).incoming ++ lost, ?_, fun _ => ?_⟩
    · rw [hq', hends, hl]
      simp
    · rw [hends]
      exact ⟨(hi.ends p).isOpen ho, rfl⟩

omit [DecidableEq τ] in
theorem RtcData.handOver_ends {m : Message} (hq : (s.ends p).peer = some q) (hne : p ≠ q) (x : LinkName ι) :
    (s.handOver p m).ends x =
      if x = p then { s.ends p with sent := (s.ends p).sent ++ [m] }
      else if x = q ∧ ¬ ((s.ends q).opened = true ∧ (s.ends q).isOpen = false) then
        { s.ends q with incoming := (s.ends q).incoming ++ [m] }
      else s.ends x := by
  have hq' : (s.setEnd p { s.ends p with sent := (s.ends p).sent ++ [m] }).ends q = s.ends q :=
    update_of_ne (Ne.symm hne) ..
  have hs : s.handOver p m =
      if (s.ends q).opened = true ∧ (s.ends q).isOpen = false then
        s.setEnd p { s.ends p with sent := (s.ends p).sent ++ [m] }
      else (s.setEnd p { s.ends p with sent := (s.ends p).sent ++ [m] }).setEnd q
        { s.ends q with incoming := (s.ends q).incoming ++ [m] } := by
    rw [← hq']
    simp only [RtcData.handOver, hq]
  rw [hs]
  by_cases hc : (s.ends q).opened = true ∧ (s.ends q).isOpen = false
  · rw [if_pos hc]
    rcases s.ends_setEnd p { s.ends p with sent := (s.ends p).sent ++ [m] } x with ⟨hx, hxp⟩ | ⟨rfl, hx⟩
    · rw [hx, if_neg hxp, if_neg fun h => h.2 hc]
    · rw [hx, if_pos rfl]
  · rw [if_neg hc]
    rcases (s.setEnd p { s.ends p with sent := (s.ends p).sent ++ [m] }).ends_setEnd q
      { s.ends q with incoming := (s.ends q).incoming ++ [m] } x with ⟨hx, hxq⟩ | ⟨rfl, hx⟩
    · rw [hx, if_neg fun h : x = q ∧ _ => hxq h.1]
      rcases s.ends_setEnd p { s.ends p with sent := (s.ends p).sent ++ [m] } x with ⟨hx, hxp⟩ | ⟨rfl, hx⟩
      · rw [hx, if_neg hxp]
      · rw [hx, if_pos rfl]
    · rw [hx, if_neg (Ne.symm hne), if_pos ⟨rfl, hc⟩]

omit [DecidableEq τ] in
theorem RtcData.handOver_net (s : RtcData ι τ) (p : LinkName ι) (m : Message) : (s.handOver p m).net = s.net := by
  simp only [RtcData.handOver]
  split
  · rfl
  · split <;> rfl

/-- What an end hands over to the other. -/
structure HandsOver (s s' : RtcData ι τ) (p q : LinkName ι) (m : Message) : Prop where
  net : s'.net = s.net
  sender : s'.ends p = { s.ends p with sent := (s.ends p).sent ++ [m] }
  receiver : s'.ends q = { s.ends q with incoming := (s'.ends q).incoming }
  incoming : ((s.ends q).opened = true ∧ (s.ends q).isOpen = false) ∧
      (s'.ends q).incoming = (s.ends q).incoming ∨
    ¬ ((s.ends q).opened = true ∧ (s.ends q).isOpen = false) ∧
      (s'.ends q).incoming = (s.ends q).incoming ++ [m]
  other : ∀ x, x = p ∨ x = q ∨ s'.ends x = s.ends x

omit [DecidableEq τ] in
theorem RtcData.handsOver {m : Message} (hq : (s.ends p).peer = some q) (hne : p ≠ q) :
    HandsOver s (s.handOver p m) p q m := by
  have hends := RtcData.handOver_ends (m := m) hq hne
  refine ⟨?_, ?_, ?_, ?_, fun x => ?_⟩
  · exact RtcData.handOver_net s p m
  · rw [hends, if_pos rfl]
  · rw [hends, if_neg (Ne.symm hne)]
    split <;> rfl
  · rw [hends, if_neg (Ne.symm hne)]
    by_cases hc : (s.ends q).opened = true ∧ (s.ends q).isOpen = false
    · rw [if_neg fun h => h.2 hc]
      exact .inl ⟨hc, rfl⟩
    · rw [if_pos ⟨rfl, hc⟩]
      exact .inr ⟨hc, rfl⟩
  · by_cases hxp : x = p
    · exact .inl hxp
    · by_cases hxq : x = q
      · exact .inr (.inl hxq)
      · exact .inr (.inr (by rw [hends, if_neg hxp, if_neg fun h => hxq h.1]))

omit [DecidableEq ι] [DecidableEq τ] in
/-- The message is on its way, or lost where the channel has closed. -/
theorem HandsOver.flows {m : Message} (h : HandsOver s s' p q m) (hf : s.Flows q p) : s'.Flows q p := by
  obtain ⟨lost, hl, hc⟩ := hf
  rw [RtcData.Flows, h.sender, h.receiver]
  rcases h.incoming with ⟨hclosed, hin⟩ | ⟨hopen, hin⟩
  · exact ⟨lost ++ [m], by simp [hin, hl], fun _ => hclosed⟩
  · obtain rfl : lost = [] := by
      by_contra hne
      exact hopen (hc hne)
    exact ⟨[], by simp [hin, hl], fun hne => absurd rfl hne⟩

omit [DecidableEq τ] in
theorem DataInv.handsOver (hi : DataInv ids remote maxMessageSize s) {m : Message}
    (h : HandsOver s s' p q m) (hq : (s.ends p).peer = some q)
    (hm : 0 < m.length ∧ m.length ≤ maxMessageSize p.1) : DataInv ids remote maxMessageSize s' := by
  have hback := (hi.peers p q hq).1
  refine hi.data h.net (fun x => ?_) (fun x => ?_) fun x y hxy => ?_
  · rcases h.other x with rfl | rfl | hx
    · rw [h.sender]
    · rw [h.receiver]
    · rw [hx]
  · rcases h.other x with rfl | rfl | hx
    · refine (hi.ends x).data h.net (by rw [h.sender]) (by rw [h.sender]) (by simp [h.sender]) (fun hn => ?_) ?_ ?_
      · rw [h.sender, hq] at hn
        cases hn
      · rw [h.sender]
        exact (hi.ends x).upTo
      · rw [h.sender]
        intro m' hm'
        rcases List.mem_append.mp hm' with hm' | hm'
        · exact (hi.ends x).sizes m' hm'
        · rw [List.mem_singleton.mp hm']
          exact hm
    · refine (hi.ends x).data h.net (by rw [h.receiver]) (by rw [h.receiver]) (by rw [h.receiver]; exact id)
        (fun hn => ?_) ?_ ?_
      · rw [h.receiver, hback] at hn
        cases hn
      · rw [h.receiver]
        exact (hi.ends x).upTo
      · rw [h.receiver]
        exact (hi.ends x).sizes
    · exact (hi.ends x).same h.net hx
  · have hf := hi.flows x y hxy
    have hyx := (hi.peers x y hxy).1
    rcases h.other x with rfl | rfl | hx
    · -- What comes to the sender comes from the end that it sends to.
      obtain rfl : q = y := Option.some.inj (hq.symm.trans hxy)
      rw [RtcData.Flows, h.sender, h.receiver]
      exact hf
    · obtain rfl : p = y := Option.some.inj (hback.symm.trans hxy)
      exact h.flows hf
    · rcases h.other y with rfl | rfl | hy
      · obtain rfl : q = x := Option.some.inj (hq.symm.trans hyx)
        exact h.flows hf
      · rw [RtcData.Flows, hx, h.receiver]
        exact hf
      · rw [RtcData.Flows, hx, hy]
        exact hf

omit [DecidableEq τ] in
theorem DataInv.send (hi : DataInv ids remote maxMessageSize s) (hids : Function.Injective ids)
    (hg : NoGlare ids remote) {writer : Udp.WriteCallback} {m : Message}
    (hm : (s.link p).send (maxMessageSize p.1) (s.ends p).isOpen writer = some m) :
    DataInv ids remote maxMessageSize (s.handOver p m) := by
  obtain ⟨hopen, hsize⟩ := DcRtcLink.send_length hm
  obtain ⟨q, hq⟩ : ∃ q, (s.ends p).peer = some q := Option.ne_none_iff_exists'.mp fun hp => by
    have := ((hi.ends p).unpeered hp).2.1
    simp [hopen] at this
  have hne : p ≠ q := fun he => hi.not_self hids hg p (he ▸ hq)
  exact hi.handsOver (RtcData.handsOver hq hne) hq hsize

/-! ### All steps -/

/-- The network goes on, and the ends with it. -/
theorem DataInv.net (hi : DataInv ids remote maxMessageSize s) (hread : Reads parse dump)
    (hids : Function.Injective ids) (hg : NoGlare ids remote) {b : RtcAction ι τ}
    (hs : RtcStep parse dump ids s.net b s'.net) (hn : Negotiates s.net b) (hd : DescribesOnce s.net b)
    (hp : ∀ x, (s'.ends x).peer = (s.ends x).peer) (he : ∀ x, EndInv maxMessageSize s' x)
    (hf : ∀ x y, (s.ends x).peer = some y → s'.Flows x y) : DataInv ids remote maxMessageSize s' where
  rtc := hs.rtcInv hi.rtc hread hids hg hn
  pair := hs.pairInv hi.pair hi.rtc hread hids hn hd
  refs := hs.refInv hi.refs
  ends := he
  peers x y hxy := by
    rw [hp] at hxy
    rw [hp]
    obtain ⟨hback, type, sdp, hm⟩ := hi.peers x y hxy
    exact ⟨hback, type, sdp, hs.sent_subset hm⟩
  flows x y hxy := hf x y (hp x ▸ hxy)

omit [DecidableEq ι] [DecidableEq τ] in
theorem RtcData.Flows.congr {x y : LinkName ι} (hf : s.Flows x y) (hs : (s'.ends y).sent = (s.ends y).sent)
    (hb : (s'.ends x).inbox = (s.ends x).inbox) (hin : (s'.ends x).incoming = (s.ends x).incoming)
    (ho : (s.ends x).opened = true → (s'.ends x).opened = true ∧ (s'.ends x).isOpen = (s.ends x).isOpen) :
    s'.Flows x y := by
  obtain ⟨lost, hl, hc⟩ := hf
  refine ⟨lost, by rw [hs, hb, hin, hl], fun hne => ?_⟩
  obtain ⟨hopen, hclosed⟩ := hc hne
  exact ⟨(ho hopen).1, (ho hopen).2.trans hclosed⟩

omit [DecidableEq ι] [DecidableEq τ] in
/-- A field that the new value of an end has from the old one. -/
theorem ends_field {e : ChannelEnd ι} {x : LinkName ι}
    (hends : s'.ends x = s.ends x ∧ x ≠ p ∨ x = p ∧ s'.ends x = e) {β : Type} (f : ChannelEnd ι → β)
    (h : f e = f (s.ends p)) : f (s'.ends x) = f (s.ends x) := by
  rcases hends with ⟨hx, -⟩ | ⟨rfl, hx⟩
  · rw [hx]
  · rw [hx, h]

theorem DataStep.dataInv (h : DataStep parse dump ids maxMessageSize s a s')
    (hi : DataInv ids remote maxMessageSize s) (hread : Reads parse dump) (hids : Function.Injective ids)
    (hg : NoGlare ids remote) (ho : Connects ids s a) : DataInv ids remote maxMessageSize s' := by
  have hc : ∀ x, (s.ends x).peer ≠ none → x.2 < (s.net.nodes x.1).created := fun x =>
    hi.created hids hg
  cases h with
  | net b ha hs =>
    refine hi.net hread hids hg hs ho.1 ho.2 (fun _ => rfl) (fun x => ?_) fun x y hxy => hi.flows x y hxy
    exact (hi.ends x).net hs hi.refs (hc x) rfl fun t hb => by
      subst hb
      cases ha
  | connect p q hne hp hq =>
    obtain ⟨⟨-, -, d, -, hpq⟩, -, -, d', -, hqp⟩ := ho
    exact hi.connect hne hp hq ⟨d.type, d.sdp, hpq⟩ ⟨d'.type, d'.sdp, hqp⟩
  | @channel t p n hp hopen hs =>
    have hends := RtcData.ends_setEnd { s with net := n } p { s.ends p with opened := true, isOpen := true }
    refine hi.net hread hids hg hs trivial trivial (fun x => ends_field (hends x) ChannelEnd.peer rfl)
      (fun x => ?_) fun x y hxy => ?_
    · rcases hends x with ⟨hx, hxp⟩ | ⟨rfl, -⟩
      · refine (hi.ends x).net hs hi.refs (hc x) hx fun t' hb => hxp ?_
        simp only [RtcAction.node.injEq, DcAction.channel.injEq] at hb
        exact Prod.ext hb.1.symm hb.2.2.symm
      · exact (hi.ends x).channel hp hopen hs hi.refs (hc x hp)
    · refine (hi.flows x y hxy).congr (ends_field (hends y) ChannelEnd.sent rfl)
        (ends_field (hends x) ChannelEnd.inbox rfl) (ends_field (hends x) ChannelEnd.incoming rfl) fun hx => ?_
      rcases hends x with ⟨he, -⟩ | ⟨rfl, -⟩
      · rw [he]
        exact ⟨hx, rfl⟩
      · simp [hopen] at hx
  | @setHandler i t receives l h n hcall hs hn =>
    have hends := RtcData.ends_setEnd { s with net := n } (i, l) { s.ends (i, l) with receives := some receives }
    refine hi.net hread hids hg hs trivial trivial (fun x => ends_field (hends x) ChannelEnd.peer rfl)
      (fun x => ?_) fun x y hxy => ?_
    · rcases hends x with ⟨hx, -⟩ | ⟨rfl, -⟩
      · exact (hi.ends x).net hs hi.refs (hc x) hx nofun
      · exact (hi.ends (i, l)).setHandler receives hcall hs hn hi.refs (hc (i, l))
    · refine (hi.flows x y hxy).congr (ends_field (hends y) ChannelEnd.sent rfl)
        (ends_field (hends x) ChannelEnd.inbox rfl) (ends_field (hends x) ChannelEnd.incoming rfl) fun hx => ?_
      exact ⟨(ends_field (hends x) ChannelEnd.opened rfl).trans hx, ends_field (hends x) ChannelEnd.isOpen rfl⟩
  | unsent p writer => exact hi
  | send p writer m hm => exact hi.send hids hg hm
  | deliver p m incoming hm => exact hi.deliver hids hg hm
  | close p hopen => exact hi.close hids hg hopen

theorem DataInv.init (parse : Parse) (dump : Dump) (ids remote : ι → PeerId) (maxMessageSize max : ι → Nat) :
    DataInv ids remote maxMessageSize (RtcData.lts parse dump ids maxMessageSize τ remote max).init where
  rtc := .init parse dump ids remote max
  pair := .init parse dump ids remote max
  refs i := .init parse (remote i) (max i)
  ends p := by
    have hnone : ((RtcData.lts parse dump ids maxMessageSize τ remote max).init).net.setters p = ∅ :=
      Set.eq_empty_of_forall_notMem fun t ht => by cases ht
    refine ⟨fun _ => ⟨rfl, rfl, rfl, rfl, rfl⟩, nofun, Inbox.upTo_empty _, nofun, ?_, fun hne => ?_, fun _ => rfl⟩
    · rw [hnone]
      exact Set.subsingleton_empty
    · rw [hnone] at hne
      exact absurd hne Set.not_nonempty_empty
  peers := nofun
  flows := nofun

/-- In every run without glare in which peer connections connect as they were described, an end of
a data channel has the other end at the one link that faces its own. What was sent there came in
order: to the link before its handler was set, to the handler, to the link after it was disconnected
or gone; or it is on its way, or was lost when the channel closed. -/
theorem data_delivered {max : ι → Nat} (hread : Reads parse dump) (hids : Function.Injective ids)
    (hg : NoGlare ids remote)
    (h : (RtcData.lts parse dump ids maxMessageSize τ remote max).Reach (Connects ids) s) (p : LinkName ι) :
    ((s.ends p).peer = none → (s.ends p).received = []) ∧
    ∀ q, (s.ends p).peer = some q → s.net.Facing ids p.1 p.2 q.1 q.2 ∧
      (∀ j l, s.net.Facing ids p.1 p.2 j l → (j, l) = q) ∧
      (∀ m ∈ (s.ends q).sent, 0 < m.length ∧ m.length ≤ maxMessageSize q.1) ∧
      ((s.phase p = .opening → (s.ends p).received = []) ∧ (s.phase p ≠ .closed → (s.ends p).inbox.ignored = [])) ∧
      ∃ lost, (s.ends q).sent = (s.ends p).inbox.missed ++ (s.ends p).received ++ (s.ends p).inbox.ignored ++
          (s.ends p).incoming ++ lost ∧ (lost ≠ [] → (s.ends p).isOpen = false) := by
  have hi : DataInv ids remote maxMessageSize s :=
    h.invariant (.init parse dump ids remote maxMessageSize max) fun hI ho he =>
      (DataStep.of_step he).dataInv hI hread hids hg ho
  refine ⟨fun hp => ?_, fun q hq => ?_⟩
  · obtain ⟨-, -, -, -, hbox⟩ := (hi.ends p).unpeered hp
    rw [ChannelEnd.received, hbox]
  · have hf := hi.facing hids hg hq
    obtain ⟨lost, hl, hc⟩ := hi.flows p q hq
    refine ⟨hf, fun j l hf' => ?_, (hi.ends q).sizes, ⟨(hi.ends p).upTo.taken, (hi.ends p).upTo.ignored⟩,
      lost, hl, fun hne => (hc hne).2⟩
    obtain ⟨rfl, rfl⟩ := hi.pair.unique hi.rtc hids hf' hf
    rfl

end

/-! ## Runs -/

instance {ι τ : Type} [DecidableEq ι] (ids : ι → PeerId) (s : RtcNetwork ι τ) (p q : LinkName ι) :
    Decidable (s.Given ids p q) :=
  inferInstanceAs (Decidable (∃ e ∈ (s.nodes p.1).log, ∃ d ∈ e.given p.2,
    ⟨q.1, q.2, ids p.1, .description d.type d.sdp⟩ ∈ s.wire.sent))

instance {ι τ : Type} [DecidableEq ι] (ids : ι → PeerId) (s : RtcData ι τ) (a : DataAction ι τ) :
    Decidable (Connects ids s a) :=
  match a with
  | .net a => inferInstanceAs (Decidable (Negotiates s.net a ∧ DescribesOnce s.net a))
  | .connect p q => inferInstanceAs (Decidable (s.net.Given ids p q ∧ s.net.Given ids q p))
  | .channel _ _ | .setHandler _ _ _ | .send _ _ | .deliver _ | .close _ => .isTrue trivial

namespace RtcData

open RtcNetwork (going toB)
open WsSignaling (pairId pairId_injective)

/-- Two transports with messages of four bytes, one of which makes an offer to the other. -/
abbrev pair : Lts (RtcData Bool Unit) (DataAction Bool Unit) :=
  lts RtcNetwork.fieldsParse RtcNetwork.fieldsDump pairId (fun _ => 4) Unit toB fun _ => 2

/-- The offer is made and answered. -/
def negotiating : List (RtcAction Bool Unit) :=
  [.node false (.joined () none), .node true (.joined () none)] ++ going false 2 ++
    [.report false 0 (.description .offer "v=0"), .arrive true () 0] ++ going true 6 ++
    [.report true 0 (.description .answer "v=1"), .arrive false () 0] ++ going false 4

/-- Their peer connections connect. -/
def connecting : List (DataAction Bool Unit) := negotiating.map .net ++ [.connect (false, 0) (true, 0)]

/-- The acceptor keeps the link, and its handler has an `onReceived`. -/
def accepting (i : Bool) : List (DataAction Bool Unit) :=
  [.net (.node i (.onLink () true ⟨true⟩)), .setHandler i () true]

end RtcData

open RtcData (pair connecting accepting)
open RtcNetwork (toB)
open WsSignaling (pairId pairId_injective)

/-- A message that is larger than the option is cut. -/
theorem data_delivered_cut : ∃ s, pair.Reach (Connects pairId) s ∧
    (s.ends (true, 0)).received = [[1, 2, 3], [4, 5, 6, 7]] ∧
    s.net.Facing pairId true 0 false 0 ∧ ∃ lost, (s.ends (false, 0)).sent =
      (s.ends (true, 0)).inbox.missed ++ (s.ends (true, 0)).received ++ (s.ends (true, 0)).inbox.ignored ++
        (s.ends (true, 0)).incoming ++ lost := by
  obtain ⟨s, hs, hq⟩ := Lts.Reach.of_run pair (Connects pairId)
    (connecting ++ [.channel () (true, 0)] ++ accepting true ++ [.channel () (false, 0)] ++ accepting false ++
      [.send (false, 0) (.bytes [1, 2, 3]), .send (false, 0) (.bytes [4, 5, 6, 7, 8]),
        .deliver (true, 0), .deliver (true, 0)])
    (fun s => (s.ends (true, 0)).received = [[1, 2, 3], [4, 5, 6, 7]] ∧
      (s.ends (true, 0)).peer = some (false, 0)) (by decide +kernel)
  obtain ⟨hr, hp⟩ := of_decide_eq_true hq
  obtain ⟨hf, -, -, -, lost, hl, -⟩ := (data_delivered RtcNetwork.fields_reads pairId_injective
    RtcNetwork.toB_noGlare hs (true, 0)).2 (false, 0) hp
  exact ⟨s, hs, hr, hf, lost, hl⟩

/-- A message that comes after `Attach` and before `SetHandler` is dropped. -/
theorem data_missed : ∃ s, pair.Reach (Connects pairId) s ∧
    (s.ends (false, 0)).inbox.missed = [[1]] ∧ (s.ends (false, 0)).received = [[2]] := by
  obtain ⟨s, hs, hq⟩ := Lts.Reach.of_run pair (Connects pairId)
    (connecting ++ [.channel () (true, 0)] ++ accepting true ++ [.send (true, 0) (.bytes [1]),
      .channel () (false, 0), .deliver (false, 0)] ++ accepting false ++
      [.send (true, 0) (.bytes [2]), .deliver (false, 0)])
    (fun s => (s.ends (false, 0)).inbox.missed = [[1]] ∧ (s.ends (false, 0)).received = [[2]])
    (by decide +kernel)
  exact ⟨s, hs, of_decide_eq_true hq⟩

end TX.Rtt
