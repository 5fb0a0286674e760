import TxPkgAux.Proof.Rtt.DcHeard
import TxPkgAux.Proof.Rtt.DcOrigins
import TxPkgAux.Proof.Rtt.WsSignaling

/-!
# Transports that negotiate: agreement

In a network of transports no two of which make offers to each other, whatever signaling
loses, reorders or repeats: a peer connection is given what the peer connection of a link
on the other side reported, and the answer it is given answers an offer of its own
(`negotiation_agrees`). The condition is needed: where two transports make offers to each
other, an answer is applied to the link that was made for the other's offer
(`negotiation_glare`).
-/

namespace TX.Rtt

open Function (update)

/-- `json::parse` takes back what `json::dump` made of the payloads. -/
def Reads (parse : Parse) (dump : Dump) : Prop :=
  ∀ e : LocalEvent, parse (dump e.payload) = some e.payload

/-- No transport makes offers to one that makes offers to it. -/
def NoGlare {ι : Type} (ids remote : ι → PeerId) : Prop := ∀ i j, remote i = ids j → remote j ≠ ids i

/-- The link that `pc.setRemoteDescription` was made on. -/
def DcEvent.describes : DcEvent → Option Nat
  | .described l _ => some l
  | _ => none

/-- The type of what the peer connection of a link describes. -/
def DcRtcLink.describesAs (r : DcRtcLink) : DescriptionType := if r.inbound then .answer else .offer

section

variable {ι τ : Type} [DecidableEq ι] [DecidableEq τ]

/-- The peer connection of `OpenOfferer` describes an offer, and one that was made for an
offer an answer, after the offer was applied to it. -/
def Negotiates (s : RtcNetwork ι τ) : RtcAction ι τ → Prop
  | .report i l (.description type _) => type = ((s.nodes i).links l).describesAs ∧
    (type = .answer → ∃ e ∈ (s.nodes i).log, e.describes = some l)
  | _ => True

namespace RtcNetwork

/-- `src` sent the event to the transport `i`. -/
def Came (ids : ι → PeerId) (s : RtcNetwork ι τ) (i : ι) (src : PeerId) (e : LocalEvent) : Prop :=
  ∃ p ∈ s.wire.sent, ids p.node = src ∧ p.dst = ids i ∧ p.event = e

/-- The packet comes from its link, to the peer of that. -/
structure Genuine (s : RtcNetwork ι τ) (p : Packet ι) : Prop where
  link : p.link < (s.nodes p.node).created
  dst : ((s.nodes p.node).links p.link).remoteId = p.dst
  type : ∀ type sdp, p.event = .description type sdp →
    type = ((s.nodes p.node).links p.link).describesAs ∧
      (type = .answer → ∃ e ∈ (s.nodes p.node).log, e.describes = some p.link)

end RtcNetwork

structure RtcInv (ids remote : ι → PeerId) (s : RtcNetwork ι τ) : Prop where
  remoteId : ∀ i, (s.nodes i).remoteId = remote i
  opened : ∀ i, Opened (s.nodes i)
  heard : ∀ i, HeardInv (s.Came ids i) (s.nodes i)
  wire : s.wire.Valid
  genuine : ∀ p ∈ s.wire.sent, s.Genuine p

/-! ## The steps of the network -/

inductive RtcStep (parse : Parse) (dump : Dump) (ids : ι → PeerId) (s : RtcNetwork ι τ) :
    RtcAction ι τ → RtcNetwork ι τ → Prop where
  | node (i : ι) (a : DcAction τ) {n : DcRtcTransport τ} (hm : ∀ t m, a ≠ .onMessage t m)
      (he : (s.nodes i).step parse a = some n) : RtcStep parse dump ids s (.node i a) (s.setNode i n)
  | report (i : ι) (l : Nat) (e : LocalEvent) (hl : l < (s.nodes i).created) :
    RtcStep parse dump ids s (.report i l e)
      { s with wire := s.wire.send ⟨i, l, ((s.nodes i).links l).remoteId, e⟩ }
  | arrive (i : ι) (t : τ) (k : Nat) (p : Packet ι) {n : DcRtcTransport τ}
      (hp : s.wire.flight[k]? = some p) (hd : p.dst = ids i)
      (he : (s.nodes i).step parse (.onMessage t (RtcNetwork.message dump ids p)) = some n) :
    RtcStep parse dump ids s (.arrive i t k) { s.setNode i n with wire := s.wire.take k p }
  | lose (k : Nat) : RtcStep parse dump ids s (.lose k) { s with wire := s.wire.lose k }
  | duplicate (k : Nat) : RtcStep parse dump ids s (.duplicate k) { s with wire := s.wire.duplicate k }

variable {parse : Parse} {dump : Dump} {ids remote : ι → PeerId} {s s' : RtcNetwork ι τ}
  {a : RtcAction ι τ}

theorem RtcNetwork.step_node {i : ι} {b : DcAction τ}
    (hb : ∀ t m, b ≠ .onMessage t m) :
    s.step parse dump ids (.node i b) = ((s.nodes i).step parse b).map (s.setNode i) := by
  cases b with
  | onMessage t m => exact absurd rfl (hb t m)
  | _ => rfl

theorem RtcStep.of_step (he : s.step parse dump ids a = some s') : RtcStep parse dump ids s a s' := by
  cases a with
  | node i b =>
    have hb : ∀ t m, b ≠ .onMessage t m := fun t m hb => by
      subst hb
      cases he
    rw [RtcNetwork.step_node hb] at he
    obtain ⟨n, hn, rfl⟩ := Option.map_eq_some_iff.mp he
    exact .node i b hb hn
  | report i l e =>
    simp only [RtcNetwork.step] at he
    split at he <;> cases he
    exact .report i l e ‹_›
  | arrive i t k =>
    simp only [RtcNetwork.step] at he
    split at he
    · cases he
    · split at he
      · obtain ⟨n, hn, rfl⟩ := Option.map_eq_some_iff.mp he
        exact .arrive i t k _ ‹_› ‹_› hn
      · cases he
  | lose k =>
    cases he
    exact .lose k
  | duplicate k =>
    cases he
    exact .duplicate k

theorem DcStep.log_subset {s s' : DcRtcTransport τ} {a : DcAction τ} (h : DcStep parse s a s') :
    s.log ⊆ s'.log := by
  cases h <;> first
    | exact List.Subset.refl _
    | exact List.subset_cons_self _ _
    | (simp only; split <;> first | exact List.subset_cons_self _ _ | exact List.Subset.refl _)

/-- A packet stays genuine when its transport goes on. -/
theorem RtcNetwork.Genuine.setNode {p : Packet ι} (hp : s.Genuine p) {i : ι} {b : DcAction τ}
    {n : DcRtcTransport τ} (h : DcStep parse (s.nodes i) b n) : (s.setNode i n).Genuine p := by
  by_cases hi : p.node = i
  · subst hi
    obtain ⟨-, hle, hid⟩ := h.identity
    obtain ⟨hin, hrem⟩ := hid p.link hp.link
    have hn : (s.setNode p.node n).nodes p.node = n := Function.update_self ..
    refine ⟨?_, ?_, fun type sdp he => ?_⟩
    · rw [hn]
      exact Nat.lt_of_lt_of_le hp.link hle
    · rw [hn, hrem, hp.dst]
    · rw [hn, DcRtcLink.describesAs, hin]
      obtain ⟨ht, ha⟩ := hp.type type sdp he
      exact ⟨ht, fun hta => (ha hta).imp fun e he => ⟨h.log_subset he.1, he.2⟩⟩
  · have hn : (s.setNode i n).nodes p.node = s.nodes p.node := Function.update_of_ne hi ..
    exact ⟨hn ▸ hp.link, hn ▸ hp.dst, hn ▸ hp.type⟩

omit [DecidableEq τ] in
theorem nodes_setNode {C : ι → DcRtcTransport τ → Prop} {i : ι} {n : DcRtcTransport τ}
    (h : ∀ j, C j (s.nodes j)) (hn : C i n) (j : ι) : C j ((s.setNode i n).nodes j) :=
  (Function.forall_update_iff s.nodes C).mpr ⟨hn, fun j _ => h j⟩ j

/-- One transport goes on. -/
theorem RtcInv.setNode (hi : RtcInv ids remote s) {i : ι} {b : DcAction τ} {n : DcRtcTransport τ}
    (h : DcStep parse (s.nodes i) b n) (hn : HeardInv (s.Came ids i) n) :
    RtcInv ids remote (s.setNode i n) where
  remoteId := nodes_setNode (C := fun j n => n.remoteId = remote j) hi.remoteId
    (h.identity.1.trans (hi.remoteId i))
  opened := nodes_setNode (C := fun _ n => Opened n) hi.opened (h.opened (hi.opened i))
  heard := nodes_setNode (C := fun j n => HeardInv (s.Came ids j) n) hi.heard hn
  wire := hi.wire
  genuine p hp := (hi.genuine p hp).setNode h

omit [DecidableEq ι] [DecidableEq τ] in
/-- Packets move, are lost or repeated. -/
theorem RtcInv.setWire (hi : RtcInv ids remote s) {w : Wire (Packet ι)} (hw : w.Valid)
    (hs : w.sent = s.wire.sent) : RtcInv ids remote { s with wire := w } where
  remoteId := hi.remoteId
  opened := hi.opened
  heard i := (hi.heard i).mono fun src e ⟨p, hp, h⟩ => ⟨p, show p ∈ w.sent from hs ▸ hp, h⟩
  wire := hw
  genuine p hp := by
    obtain ⟨hl, hd, ht⟩ := hi.genuine p (hs ▸ hp)
    exact ⟨hl, hd, ht⟩

/-! ## Who talks to whom -/

omit [DecidableEq ι] [DecidableEq τ] in
/-- An offer comes from a transport that makes its offers to the receiver. -/
theorem RtcInv.offer (hi : RtcInv ids remote s) {i : ι} {src : PeerId} {sdp : String}
    (h : s.Came ids i src (.description .offer sdp)) :
    ∃ p ∈ s.wire.sent, ids p.node = src ∧ p.event = .description .offer sdp ∧ p.dst = ids i ∧
      ((s.nodes p.node).links p.link).inbound = false ∧ remote p.node = ids i := by
  obtain ⟨p, hp, hsrc, hdst, he⟩ := h
  obtain ⟨hl, hd, ht⟩ := hi.genuine p hp
  obtain ⟨ht, -⟩ := ht .offer sdp he
  have hin : ((s.nodes p.node).links p.link).inbound = false := by
    by_contra hin
    simp [DcRtcLink.describesAs, hin] at ht
  refine ⟨p, hp, hsrc, he, hdst, hin, ?_⟩
  rw [← hi.remoteId, ← (hi.heard p.node).base.outbound p.link hl hin, hd, hdst]

omit [DecidableEq ι] [DecidableEq τ] in
/-- The peer of an inbound link makes its offers to it. -/
theorem RtcInv.inbound (hi : RtcInv ids remote s) {i : ι} {l : Nat} (hl : l < (s.nodes i).created)
    (hin : ((s.nodes i).links l).inbound = true) :
    ∃ j, ids j = ((s.nodes i).links l).remoteId ∧ remote j = ids i := by
  obtain ⟨sdp, hs⟩ := (hi.heard i).inbound l hl hin
  obtain ⟨p, -, hsrc, -, -, -, hr⟩ := hi.offer hs
  exact ⟨p.node, hsrc, hr⟩

omit [DecidableEq ι] [DecidableEq τ] in
/-- An answer comes from the transport that the receiver makes its offers to. -/
theorem RtcInv.answer (hi : RtcInv ids remote s) (hids : Function.Injective ids) {i : ι} {src : PeerId}
    {sdp : String} (h : s.Came ids i src (.description .answer sdp)) :
    ∃ p ∈ s.wire.sent, ids p.node = src ∧ p.event = .description .answer sdp ∧ p.dst = ids i ∧
      ((s.nodes p.node).links p.link).inbound = true ∧ remote i = src := by
  obtain ⟨p, hp, hsrc, hdst, he⟩ := h
  obtain ⟨hl, hd, ht⟩ := hi.genuine p hp
  obtain ⟨ht, -⟩ := ht .answer sdp he
  have hin : ((s.nodes p.node).links p.link).inbound = true := by
    by_contra hin
    simp [DcRtcLink.describesAs, hin] at ht
  obtain ⟨j, hj, hr⟩ := hi.inbound hl hin
  obtain rfl : j = i := hids (by rw [hj, hd, hdst])
  exact ⟨p, hp, hsrc, he, hdst, hin, hr.trans hsrc⟩

/-- The links of two transports to each other: one was made by `OpenOfferer`, the other for
its offer. -/
structure RtcNetwork.Facing (ids : ι → PeerId) (s : RtcNetwork ι τ) (i : ι) (l : Nat) (j : ι) (l' : Nat) :
    Prop where
  here : l < (s.nodes i).created
  there : l' < (s.nodes j).created
  remoteId : ((s.nodes i).links l).remoteId = ids j
  back : ((s.nodes j).links l').remoteId = ids i
  inbound : ((s.nodes j).links l').inbound = !((s.nodes i).links l).inbound

omit [DecidableEq ι] [DecidableEq τ] in
theorem RtcInv.facing (hi : RtcInv ids remote s) (hids : Function.Injective ids) (hg : NoGlare ids remote)
    {i j : ι} {l l' : Nat} (hl : l < (s.nodes i).created) (hl' : l' < (s.nodes j).created)
    (hr : ((s.nodes i).links l).remoteId = ids j) (hr' : ((s.nodes j).links l').remoteId = ids i) :
    s.Facing ids i l j l' := by
  refine ⟨hl, hl', hr, hr', ?_⟩
  have hout : ∀ {i j : ι} {l : Nat}, l < (s.nodes i).created → ((s.nodes i).links l).remoteId = ids j →
      ((s.nodes i).links l).inbound = false → remote i = ids j := fun {i j l} hl hr hin => by
    rw [← hi.remoteId, ← (hi.heard i).base.outbound l hl hin, hr]
  have hinb : ∀ {i j : ι} {l : Nat}, l < (s.nodes i).created → ((s.nodes i).links l).remoteId = ids j →
      ((s.nodes i).links l).inbound = true → remote j = ids i := fun {i j l} hl hr hin => by
    obtain ⟨k, hk, hrk⟩ := hi.inbound hl hin
    exact hids (hk.trans hr) ▸ hrk
  cases hin : ((s.nodes i).links l).inbound <;> cases hin' : ((s.nodes j).links l').inbound
  · exact absurd (hout hl' hr' hin') (hg i j (hout hl hr hin))
  · rfl
  · rfl
  · exact absurd (hinb hl hr hin) (hg i j (hinb hl' hr' hin'))

omit [DecidableEq ι] [DecidableEq τ] in
/-- Without glare, answers fit. -/
theorem RtcInv.answersFit (hi : RtcInv ids remote s) (hids : Function.Injective ids)
    (hg : NoGlare ids remote) (i : ι) (b : DcAction τ) : AnswersFit (s.nodes i) b := by
  cases b with
  | next t accepted =>
    intro src hsrc l hl
    obtain ⟨sdp, hc⟩ : ∃ sdp, (s.nodes i).calls t = some (.answer src sdp) := by
      rw [Option.mem_def, DcRtcTransport.answering] at hsrc
      split at hsrc <;> cases hsrc
      exact ⟨_, ‹_›⟩
    obtain ⟨p, -, hp, -, -, -, hr⟩ := hi.answer hids ((hi.heard i).calls t _ hc)
    obtain ⟨hlt, hrem, -⟩ := (hi.heard i).base.base.stored _ l hl
    rw [hi.remoteId] at hrem ⊢
    refine ⟨hr.symm, ?_⟩
    by_contra hin
    obtain ⟨j, hj, hrj⟩ := hi.inbound hlt (by simpa using hin)
    obtain rfl : j = p.node := hids (by rw [hj, hrem, hr, hp])
    exact hg i p.node (hr.trans hp.symm) hrj
  | _ => trivial

/-! ## Every run -/

omit [DecidableEq ι] [DecidableEq τ] in
theorem RtcInv.report (hi : RtcInv ids remote s) {i : ι} {l : Nat} {e : LocalEvent}
    (hl : l < (s.nodes i).created) (hn : Negotiates s (.report i l e)) :
    RtcInv ids remote { s with wire := s.wire.send ⟨i, l, ((s.nodes i).links l).remoteId, e⟩ } where
  remoteId := hi.remoteId
  opened := hi.opened
  heard j := (hi.heard j).mono fun src e ⟨p, hp, h⟩ => ⟨p, List.mem_cons_of_mem _ hp, h⟩
  wire := hi.wire.send _
  genuine p hp := by
    rcases List.mem_cons.mp hp with rfl | hp
    · refine ⟨hl, rfl, fun type sdp he => ?_⟩
      subst he
      exact hn
    · obtain ⟨hl, hd, ht⟩ := hi.genuine p hp
      exact ⟨hl, hd, ht⟩

theorem RtcStep.rtcInv (h : RtcStep parse dump ids s a s') (hi : RtcInv ids remote s)
    (hread : Reads parse dump) (hids : Function.Injective ids) (hg : NoGlare ids remote)
    (hn : Negotiates s a) : RtcInv ids remote s' := by
  cases h with
  | node i b hm he =>
    have hs := DcStep.of_step he
    exact hi.setNode hs (hs.heardInv (hi.heard i) (hi.answersFit hids hg i b) hm)
  | report i l e hl => exact hi.report hl hn
  | arrive i t k p hp hd he =>
    have hmem := hi.wire.flight_sent (List.mem_of_getElem? hp)
    have hh := (hi.heard i).onMessage he (hread p.event) ⟨p, hmem, rfl, hd, rfl⟩
    exact (hi.setNode (DcStep.of_step he) hh).setWire (hi.wire.take hp) rfl
  | lose k => exact hi.setWire (hi.wire.lose k) rfl
  | duplicate k => exact hi.setWire (hi.wire.duplicate k) rfl

theorem RtcInv.init (parse : Parse) (dump : Dump) (ids remote : ι → PeerId) (max : ι → Nat) :
    RtcInv ids remote (RtcNetwork.lts τ parse dump ids remote max).init where
  remoteId _ := rfl
  opened i := .init parse (remote i) (max i)
  heard i := .init _ parse (remote i) (max i)
  wire := Wire.valid_empty
  genuine := by simp [RtcNetwork.lts]

theorem RtcInv.reach {max : ι → Nat} (hread : Reads parse dump) (hids : Function.Injective ids)
    (hg : NoGlare ids remote) (h : (RtcNetwork.lts τ parse dump ids remote max).Reach Negotiates s) :
    RtcInv ids remote s :=
  h.invariant (.init parse dump ids remote max) fun hI hn he =>
    (RtcStep.of_step he).rtcInv hI hread hids hg hn

omit [DecidableEq ι] [DecidableEq τ] in
/-- A description that is applied was reported on the other side. -/
theorem RtcInv.described (hi : RtcInv ids remote s) (hids : Function.Injective ids)
    (hg : NoGlare ids remote) {i : ι} {l : Nat} {d : Description}
    (hd : .described l d ∈ (s.nodes i).log) : ∃ j l', s.Facing ids i l j l' ∧
      ⟨j, l', ids i, .description d.type d.sdp⟩ ∈ s.wire.sent := by
  obtain ⟨⟨hl, hsrc, -⟩, p, hp, hid, hdst, he⟩ := (hi.heard i).described l d hd
  obtain ⟨hl', hback, -⟩ := hi.genuine p hp
  refine ⟨p.node, p.link, hi.facing hids hg hl hl' (hsrc.symm.trans hid.symm) (hback.trans hdst), ?_⟩
  rw [← hdst, ← he]
  exact hp

omit [DecidableEq ι] [DecidableEq τ] in
theorem RtcInv.candidate (hi : RtcInv ids remote s) (hids : Function.Injective ids)
    (hg : NoGlare ids remote) {i : ι} {l : Nat} {c : Candidate}
    (hc : .candidate l c ∈ (s.nodes i).log) : ∃ j l', s.Facing ids i l j l' ∧
      ⟨j, l', ids i, .candidate c⟩ ∈ s.wire.sent := by
  obtain ⟨hl, p, hp, hid, hdst, he⟩ := (hi.heard i).candidates l c hc
  obtain ⟨hl', hback, -⟩ := hi.genuine p hp
  refine ⟨p.node, p.link, hi.facing hids hg hl hl' hid.symm (hback.trans hdst), ?_⟩
  rw [← hdst, ← he]
  exact hp

omit [DecidableEq ι] [DecidableEq τ] in
/-- A link that sends an answer had an offer applied to it, which came from the link that the
answer goes to. -/
theorem RtcInv.answered (hi : RtcInv ids remote s) (hids : Function.Injective ids) {i j : ι} {l l' : Nat}
    {sdp : String} (hf : s.Facing ids i l j l') (hin : ((s.nodes i).links l).inbound = false)
    (hp : ⟨j, l', ids i, .description .answer sdp⟩ ∈ s.wire.sent) :
    ∃ d', .described l' d' ∈ (s.nodes j).log ∧ d'.type = .offer ∧
      ⟨i, l, ids j, .description .offer d'.sdp⟩ ∈ s.wire.sent := by
  obtain ⟨-, hlog⟩ := (hi.genuine _ hp).type .answer sdp rfl
  obtain ⟨e, hmem, hlink⟩ := hlog rfl
  obtain ⟨d', rfl⟩ : ∃ d', e = .described l' d' := by
    cases e <;> cases hlink
    exact ⟨_, rfl⟩
  obtain ⟨⟨-, hsrc, hoff⟩, hcame⟩ := (hi.heard j).described l' d' hmem
  have ho : d'.type = .offer := hoff.mp (by rw [hf.inbound, hin, Bool.not_false])
  rw [ho] at hcame
  obtain ⟨q, hq, hqsrc, hqe, hqdst, hqin, -⟩ := hi.offer hcame
  obtain rfl : q.node = i := hids (hqsrc.trans (hsrc.trans hf.back))
  obtain rfl : q.link = l := (hi.opened _).outbound_unique (hi.genuine q hq).link hf.here hqin hin
  refine ⟨d', hmem, ho, ?_⟩
  rw [← hqdst, ← hqe]
  exact hq

/-- In every run without glare, what a peer connection is given was reported by the peer
connection of a link on the other side, for it; and where it is an answer, the offer that was
applied on the other side is one that its own peer connection described. -/
theorem negotiation_agrees {max : ι → Nat} (hread : Reads parse dump) (hids : Function.Injective ids)
    (hg : NoGlare ids remote) (h : (RtcNetwork.lts τ parse dump ids remote max).Reach Negotiates s) (i : ι) :
    (∀ l d, .described l d ∈ (s.nodes i).log → ∃ j l', s.Facing ids i l j l' ∧
      ⟨j, l', ids i, .description d.type d.sdp⟩ ∈ s.wire.sent ∧
      (d.type = .offer ↔ ((s.nodes i).links l).inbound = true) ∧
      (d.type = .answer → ∃ d', .described l' d' ∈ (s.nodes j).log ∧ d'.type = .offer ∧
        ⟨i, l, ids j, .description .offer d'.sdp⟩ ∈ s.wire.sent)) ∧
    ∀ l c, .candidate l c ∈ (s.nodes i).log → ∃ j l', s.Facing ids i l j l' ∧
      ⟨j, l', ids i, .candidate c⟩ ∈ s.wire.sent := by
  have hi := RtcInv.reach hread hids hg h
  refine ⟨fun l d hd => ?_, fun l c => hi.candidate hids hg⟩
  obtain ⟨j, l', hf, hp⟩ := hi.described hids hg hd
  obtain ⟨⟨-, -, hin⟩, -⟩ := (hi.heard i).described l d hd
  refine ⟨j, l', hf, hp, hin.symm, fun ha => ?_⟩
  have hout : ((s.nodes i).links l).inbound = false := by
    have hne := mt hin.mp (by simp [ha])
    simpa using hne
  exact hi.answered hids hf hout (ha ▸ hp)

end

/-! ## Runs -/

namespace RtcNetwork

open WsSignaling (quote escape unescape skip skip_append unescape_escape pairId pairId_injective)

def opening : Char := Char.ofNat 123

def closing : Char := Char.ofNat 125

def comma : Char := Char.ofNat 44

def colon : Char := Char.ofNat 58

def writeField (f : String × String) (rest : List Char) : List Char :=
  quote :: (escape f.1.toList ++ quote :: colon :: quote :: (escape f.2.toList ++ quote :: rest))

def writeFields (f : String × String) : List (String × String) → List Char
  | [] => writeField f [closing]
  | f' :: fields => writeField f (comma :: writeFields f' fields)

/-- `json::dump` of an object with string fields. -/
def fieldsDump : Dump
  | .object ((k, .string v) :: fields) =>
    String.ofList (opening :: writeFields (k, v) (fields.map fun f => (f.1, (f.2.getString).getD "")))
  | _ => ""

def readField (cs : List Char) : Option ((String × String) × List Char) :=
  (skip [quote] cs).bind fun cs => (unescape false cs).bind fun k =>
    (skip [colon, quote] k.2).bind fun cs => (unescape false cs).map fun v =>
      ((String.ofList k.1, String.ofList v.1), v.2)

def readFields : Nat → List Char → Option (List (String × String))
  | 0, _ => none
  | n + 1, cs => (readField cs).bind fun f =>
    if f.2 = [closing] then some [f.1]
    else (skip [comma] f.2).bind fun cs => (readFields n cs).map fun fields => f.1 :: fields

/-- `json::parse` of such a text. -/
def fieldsParse (text : String) : Option Json :=
  (skip [opening] text.toList).bind fun cs => (readFields cs.length cs).map Json.ofFields

theorem readField_writeField (f : String × String) (rest : List Char) :
    readField (writeField f rest) = some (f, rest) := by
  simp [readField, writeField, skip, unescape_escape]

theorem readFields_writeFields (f : String × String) (fields : List (String × String)) (n : Nat)
    (hn : fields.length < n) : readFields n (writeFields f fields) = some (f :: fields) := by
  induction fields generalizing f n with
  | nil =>
    obtain ⟨n, rfl⟩ := Nat.exists_eq_add_of_lt hn
    simp [readFields, writeFields, readField_writeField]
  | cons f' fields ih =>
    obtain ⟨n, rfl⟩ : ∃ m, n = m + 1 := ⟨n - 1, by simp at hn; omega⟩
    have hne : comma ≠ closing := by decide
    simp [readFields, writeFields, readField_writeField, skip, hne, ih f' n (by simpa using hn)]

theorem length_writeFields (f : String × String) (fields : List (String × String)) :
    fields.length < (writeFields f fields).length := by
  induction fields generalizing f with
  | nil => simp [writeFields, writeField]
  | cons f' fields ih =>
    have := ih f'
    simp only [writeFields, writeField, List.length_cons, List.length_append]
    omega

theorem fieldsParse_dump (f : String × String) (fields : List (String × String)) :
    fieldsParse (fieldsDump (.ofFields (f :: fields))) = some (.ofFields (f :: fields)) := by
  simp [fieldsParse, fieldsDump, Json.ofFields, skip, Function.comp_def, Json.getString,
    readFields_writeFields _ _ _ (length_writeFields f fields)]

theorem fields_reads : Reads fieldsParse fieldsDump := fun e => by
  cases e <;> exact fieldsParse_dump _ _

/-- Two transports with one thread each, which make offers to `remote`. -/
abbrev pair (remote : Bool → PeerId) : Lts (RtcNetwork Bool Unit) (RtcAction Bool Unit) :=
  lts Unit fieldsParse fieldsDump pairId remote fun _ => 2

/-- The thread of a transport goes on. -/
def going (i : Bool) (n : Nat) : List (RtcAction Bool Unit) := List.replicate n (.node i (.next () true))

/-- `a` makes an offer to `b`, which waits for offers. -/
def toB (i : Bool) : PeerId := if i then ⟨""⟩ else ⟨"b"⟩

theorem toB_noGlare : NoGlare pairId toB := by
  intro i j
  cases i <;> cases j <;> decide

/-- `a` and `b` make offers to each other. -/
def each (i : Bool) : PeerId := pairId !i

instance {ι τ : Type} (s : RtcNetwork ι τ) (a : RtcAction ι τ) : Decidable (Negotiates s a) :=
  match a with
  | .report i l (.description type _) => inferInstanceAs (Decidable (
      type = ((s.nodes i).links l).describesAs ∧
        (type = .answer → ∃ e ∈ (s.nodes i).log, e.describes = some l)))
  | .report _ _ (.candidate _) | .node _ _ | .arrive _ _ _ | .lose _ | .duplicate _ => .isTrue trivial

end RtcNetwork

open RtcNetwork (pair going toB each)
open WsSignaling (pairId pairId_injective)

/-- The candidate of `b` overtakes its answer. -/
theorem negotiation_agrees_pair : ∃ s, (pair toB).Reach Negotiates s ∧
    .described 0 ⟨"v=1", .answer, ⟨"b"⟩⟩ ∈ (s.nodes false).log ∧
    .candidate 0 ⟨"udp", "0"⟩ ∈ (s.nodes false).log ∧
    ∃ j l', s.Facing pairId false 0 j l' ∧ ∃ d', .described l' d' ∈ (s.nodes j).log ∧ d'.type = .offer := by
  obtain ⟨s, hs, hq⟩ := Lts.Reach.of_run (pair toB) Negotiates
    ([.node false (.joined () none), .node true (.joined () none)] ++ going false 2 ++
      [.report false 0 (.description .offer "v=0"), .arrive true () 0] ++ going true 6 ++
      [.report true 0 (.description .answer "v=1"), .report true 0 (.candidate ⟨"udp", "0"⟩),
        .arrive false () 0] ++ going false 2 ++ [.arrive false () 0] ++ going false 5)
    (fun s => .described 0 ⟨"v=1", .answer, ⟨"b"⟩⟩ ∈ (s.nodes false).log ∧
      .candidate 0 ⟨"udp", "0"⟩ ∈ (s.nodes false).log) (by decide +kernel)
  obtain ⟨hd, hc⟩ := of_decide_eq_true hq
  obtain ⟨j, l', hf, -, -, ha⟩ := (negotiation_agrees RtcNetwork.fields_reads pairId_injective
    RtcNetwork.toB_noGlare hs false).1 0 _ hd
  obtain ⟨d', hd', ho, -⟩ := ha rfl
  exact ⟨s, hs, hd, hc, j, l', hf, d', hd', ho⟩

/-- The offer of `b` takes the place of the one that `a` made: the answer of `b` is applied
to the link that was made for it. -/
theorem negotiation_glare : ∃ s, (pair each).Reach Negotiates s ∧
    .described 1 ⟨"v=1", .answer, ⟨"b"⟩⟩ ∈ (s.nodes false).log ∧
    ((s.nodes false).links 1).inbound = true := by
  obtain ⟨s, hs, hq⟩ := Lts.Reach.of_run (pair each) Negotiates
    ([.node false (.joined () none), .node true (.joined () none)] ++ going false 2 ++ going true 2 ++
      [.report false 0 (.description .offer "v=0"), .arrive true () 0] ++ going true 6 ++
      [.report true 0 (.description .offer "v=0"), .arrive false () 0] ++ going false 6 ++
      [.report true 1 (.description .answer "v=1"), .arrive false () 0] ++ going false 2)
    (fun s => .described 1 ⟨"v=1", .answer, ⟨"b"⟩⟩ ∈ (s.nodes false).log ∧
      ((s.nodes false).links 1).inbound = true) (by decide +kernel)
  exact ⟨s, hs, of_decide_eq_true hq⟩

end TX.Rtt
