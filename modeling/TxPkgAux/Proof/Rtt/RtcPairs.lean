import TxPkgAux.Proof.Rtt.RtcNetwork

/-!
# Transports that negotiate: pairs of links

Where signaling repeats no message and a peer connection describes itself once, an offer makes
one link at most (`PairInv`). So links are paired with each other, and all that a peer
connection is given comes from the one it is paired with (`negotiation_pairs`). A repeated
offer makes a second link, which takes the place of the first (`negotiation_repeated`).
-/

namespace TX.Rtt

def LocalEvent.isDescription : LocalEvent → Bool
  | .description _ _ => true
  | .candidate _ => false

def LocalEvent.isOffer : LocalEvent → Bool
  | .description .offer _ => true
  | _ => false

section

variable {ι τ : Type} [DecidableEq ι] [DecidableEq τ]

/-- The packet is an offer of the transport. -/
def Packet.offerOf (i : ι) (p : Packet ι) : Bool := p.node = i ∧ p.event.isOffer = true

/-- No message is repeated, and a peer connection describes itself once. -/
def DescribesOnce (s : RtcNetwork ι τ) : RtcAction ι τ → Prop
  | .duplicate _ => False
  | .report i l (.description _ _) =>
    ∀ p ∈ s.wire.sent, p.node = i → p.link = l → p.event.isDescription = false
  | _ => True

/-- An offer is in flight, or with one call or one link of its receiver. -/
structure PairInv (ids : ι → PeerId) (s : RtcNetwork ι τ) : Prop where
  copied : s.wire.copied = []
  offers : ∀ i, s.wire.sent.countP (Packet.offerOf i) ≤ 1
  arrived : ∀ i j, ((s.nodes j).carriers (some (ids i))).Nonempty →
    ∃ p ∈ s.wire.arrived, p.offerOf i = true
  single : ∀ i j, ((s.nodes j).carriers (some (ids i))).Subsingleton

variable {parse : Parse} {dump : Dump} {ids remote : ι → PeerId} {s s' : RtcNetwork ι τ}
  {a : RtcAction ι τ}

theorem isOffer_of_type {e : LocalEvent} (h : e.payload.value "type" = some "offer") : e.isOffer = true := by
  rw [LocalEvent.type_payload] at h
  cases e with
  | candidate c => simp at h
  | description type sdp => cases type <;> simp_all [DescriptionType.typeString, LocalEvent.isOffer]

/-- A transport goes on by itself. -/
theorem PairInv.setNode (hi : PairInv ids s) {i : ι} {b : DcAction τ} {n : DcRtcTransport τ}
    (h : DcStep parse (s.nodes i) b n) (hm : ∀ t m, b ≠ .onMessage t m) : PairInv ids (s.setNode i n) := by
  have hp : ∀ j, Passes ((s.nodes i).carriers (some (ids j))) (n.carriers (some (ids j))) := fun j => by
    rcases h.carriers (some (ids j)) with hp | ⟨t, -, ⟨hk, -⟩ | ⟨m, -, hb, -⟩⟩
    · exact hp
    · cases hk
    · exact absurd hb (hm t m)
  refine ⟨hi.copied, hi.offers, fun j => ?_, fun j => ?_⟩
  · refine nodes_setNode (C := fun _ n => (n.carriers (some (ids j))).Nonempty → _) (hi.arrived j) fun hn => ?_
    refine hi.arrived j i (Set.nonempty_iff_ne_empty.mpr fun he => ?_)
    exact (Set.nonempty_iff_ne_empty.mp hn) ((hp j).empty he)
  · exact nodes_setNode (C := fun _ n => (n.carriers (some (ids j))).Subsingleton) (hi.single j)
      ((hp j).subsingleton (hi.single j i))

/-- A message arrives: where it is an offer, it is the first of its sender. -/
theorem PairInv.arrive (hi : PairInv ids s) (hw : s.wire.Valid) (hread : Reads parse dump) (hids : Function.Injective ids) {i : ι}
    {t : τ} {k : Nat} {p : Packet ι} {n : DcRtcTransport τ} (hk : s.wire.flight[k]? = some p)
    (h : DcStep parse (s.nodes i) (.onMessage t (RtcNetwork.message dump ids p)) n) :
    PairInv ids { s.setNode i n with wire := s.wire.take k p } := by
  have hp : ∀ j, Passes ((s.nodes i).carriers (some (ids j))) (n.carriers (some (ids j))) ∨
      (p.offerOf j = true ∧ ∃ t, n.carriers (some (ids j)) ⊆
        insert (.inl t) ((s.nodes i).carriers (some (ids j)))) := fun j => by
    rcases h.carriers (some (ids j)) with hp | ⟨t', hsub, ⟨hk, -⟩ | ⟨m, v, hb, hk, hv, ht⟩⟩
    · exact .inl hp
    · cases hk
    · cases hb
      obtain rfl : j = p.node := hids (Option.some.inj hk)
      obtain rfl : p.event.payload = v := Option.some.inj ((hread p.event).symm.trans hv)
      exact .inr ⟨decide_eq_true ⟨rfl, isOffer_of_type ht⟩, t, hsub⟩
  have hnone : ∀ j, p.offerOf j = true → (s.nodes i).carriers (some (ids j)) = ∅ := fun j hj => by
    by_contra hne
    obtain ⟨q, hq, hqj⟩ := hi.arrived j i (Set.nonempty_iff_ne_empty.mpr hne)
    have hf := hw.not_arrived hi.copied (hi.offers j) (List.mem_of_getElem? hk) hj q hq
    simp [hqj] at hf
  refine ⟨hi.copied, hi.offers, fun j => ?_, fun j => ?_⟩
  · refine nodes_setNode (C := fun _ n => (n.carriers (some (ids j))).Nonempty → _)
      (fun x hx => (hi.arrived j x hx).imp fun q hq => ⟨List.mem_cons_of_mem p hq.1, hq.2⟩) fun hn => ?_
    rcases hp j with hp | ⟨hj, -⟩
    · have hne : ((s.nodes i).carriers (some (ids j))).Nonempty :=
        Set.nonempty_iff_ne_empty.mpr fun he => (Set.nonempty_iff_ne_empty.mp hn) (hp.empty he)
      exact (hi.arrived j i hne).imp fun q hq => ⟨List.mem_cons_of_mem p hq.1, hq.2⟩
    · exact ⟨p, List.mem_cons_self, hj⟩
  · refine nodes_setNode (C := fun _ n => (n.carriers (some (ids j))).Subsingleton) (hi.single j) ?_
    rcases hp j with hp | ⟨hj, t', hsub⟩
    · exact hp.subsingleton (hi.single j i)
    · rw [hnone j hj] at hsub
      exact subsingleton_of_insert_empty hsub

omit [DecidableEq τ] in
/-- A peer connection reports something: where that is an offer, it is the first. -/
theorem PairInv.report (hi : PairInv ids s) (hr : RtcInv ids remote s) {i : ι} {l : Nat} {e : LocalEvent}
    (hl : l < (s.nodes i).created) (hn : Negotiates s (.report i l e))
    (ho : DescribesOnce s (.report i l e)) :
    PairInv ids { s with wire := s.wire.send ⟨i, l, ((s.nodes i).links l).remoteId, e⟩ } where
  copied := hi.copied
  arrived := hi.arrived
  single := hi.single
  offers j := by
    have hle := hi.offers j
    by_cases hj : Packet.offerOf j ⟨i, l, ((s.nodes i).links l).remoteId, e⟩ = true
    · obtain ⟨rfl, he⟩ := of_decide_eq_true hj
      obtain ⟨sdp, rfl⟩ : ∃ sdp, e = .description .offer sdp := by
        rcases e with ⟨_ | _, sdp⟩ | c <;> simp_all [LocalEvent.isOffer]
      have hout : ((s.nodes i).links l).inbound = false := by
        have ht := hn.1
        by_contra hin
        simp [DcRtcLink.describesAs, hin] at ht
      have hzero : s.wire.sent.countP (Packet.offerOf i) = 0 := by
        refine List.countP_eq_zero.mpr fun p hp hpi => ?_
        obtain ⟨hnode, hpe⟩ := of_decide_eq_true hpi
        obtain ⟨sdp', he'⟩ : ∃ sdp', p.event = .description .offer sdp' := by
          rcases hev : p.event with ⟨_ | _, sdp'⟩ | c <;> simp_all [LocalEvent.isOffer]
        subst hnode
        obtain ⟨hlt, -, ht⟩ := hr.genuine p hp
        obtain ⟨ht, -⟩ := ht .offer sdp' he'
        have hout' : ((s.nodes p.node).links p.link).inbound = false := by
          by_contra hin
          simp [DcRtcLink.describesAs, hin] at ht
        have hd := ho p hp rfl ((hr.opened p.node).outbound_unique hlt hl hout' hout)
        simp [he', LocalEvent.isDescription] at hd
      simp [Wire.send, hj, hzero]
    · simpa [Wire.send, List.countP_cons, hj] using hle

theorem RtcStep.pairInv (h : RtcStep parse dump ids s a s') (hi : PairInv ids s) (hr : RtcInv ids remote s)
    (hread : Reads parse dump) (hids : Function.Injective ids) (hn : Negotiates s a)
    (ho : DescribesOnce s a) : PairInv ids s' := by
  cases h with
  | node i b hm he => exact hi.setNode (DcStep.of_step he) hm
  | report i l e hl => exact hi.report hr hl hn ho
  | arrive i t k p hp hd he => exact hi.arrive hr.wire hread hids hp (DcStep.of_step he)
  | lose k => exact ⟨hi.copied, hi.offers, hi.arrived, hi.single⟩
  | duplicate k => exact absurd ho id

theorem PairInv.init (parse : Parse) (dump : Dump) (ids remote : ι → PeerId) (max : ι → Nat) :
    PairInv ids (RtcNetwork.lts τ parse dump ids remote max).init := by
  have he : ∀ i j, ((RtcNetwork.lts τ parse dump ids remote max).init.nodes j).carriers
      (some (ids i)) = ∅ := fun i j => by
    refine Set.eq_empty_of_forall_notMem ?_
    rintro (t | l) hx
    · cases hx
    · exact absurd hx.1 (Nat.not_lt_zero l)
  refine ⟨rfl, by simp [RtcNetwork.lts], fun i j hn => ?_, fun i j => ?_⟩
  · rw [he] at hn
    exact absurd hn Set.not_nonempty_empty
  · rw [he]
    exact Set.subsingleton_empty

omit [DecidableEq τ] in
theorem PairInv.unique (hi : PairInv ids s) (hr : RtcInv ids remote s) (hids : Function.Injective ids)
    {i j j' : ι} {l l₁ l₂ : Nat} (h₁ : s.Facing ids i l j l₁) (h₂ : s.Facing ids i l j' l₂) :
    j = j' ∧ l₁ = l₂ := by
  obtain rfl : j = j' := hids (h₁.remoteId.symm.trans h₂.remoteId)
  refine ⟨rfl, ?_⟩
  cases hin : ((s.nodes i).links l).inbound with
  | true =>
    exact (hr.opened j).outbound_unique h₁.there h₂.there (by rw [h₁.inbound, hin]; rfl)
      (by rw [h₂.inbound, hin]; rfl)
  | false =>
    have hmem : ∀ {l'}, s.Facing ids i l j l' → .inr l' ∈ (s.nodes j).carriers (some (ids i)) :=
      fun {l'} h => ⟨h.there, by simp [DcRtcLink.origin, h.inbound, hin, h.back]⟩
    exact Sum.inr.inj (hi.single i j (hmem h₁) (hmem h₂))

omit [DecidableEq τ] in
/-- All that a peer connection is given was reported by the one link that faces it. -/
theorem PairInv.paired (hi : PairInv ids s) (hr : RtcInv ids remote s) (hids : Function.Injective ids)
    (hg : NoGlare ids remote) (i : ι) (l : Nat) :
    ∃ j l', (∀ d, .described l d ∈ (s.nodes i).log → s.Facing ids i l j l' ∧
        ⟨j, l', ids i, .description d.type d.sdp⟩ ∈ s.wire.sent) ∧
      ∀ c, .candidate l c ∈ (s.nodes i).log → s.Facing ids i l j l' ∧
        ⟨j, l', ids i, .candidate c⟩ ∈ s.wire.sent := by
  have hdesc := fun d => hr.described hids hg (i := i) (l := l) (d := d)
  have hcand := fun c => hr.candidate hids hg (i := i) (l := l) (c := c)
  by_cases hface : ∃ j l', s.Facing ids i l j l'
  · obtain ⟨j, l', hf⟩ := hface
    refine ⟨j, l', fun d hd => ?_, fun c hc => ?_⟩
    · obtain ⟨j', l'', hf', hm⟩ := hdesc d hd
      obtain ⟨rfl, rfl⟩ := hi.unique hr hids hf hf'
      exact ⟨hf, hm⟩
    · obtain ⟨j', l'', hf', hm⟩ := hcand c hc
      obtain ⟨rfl, rfl⟩ := hi.unique hr hids hf hf'
      exact ⟨hf, hm⟩
  · refine ⟨i, l, fun d hd => ?_, fun c hc => ?_⟩
    · obtain ⟨j', l'', hf', -⟩ := hdesc d hd
      exact absurd ⟨j', l'', hf'⟩ hface
    · obtain ⟨j', l'', hf', -⟩ := hcand c hc
      exact absurd ⟨j', l'', hf'⟩ hface

theorem PairInv.reach {max : ι → Nat} (hread : Reads parse dump) (hids : Function.Injective ids)
    (hg : NoGlare ids remote) (h : (RtcNetwork.lts τ parse dump ids remote max).Reach
      (fun s a => Negotiates s a ∧ DescribesOnce s a) s) : RtcInv ids remote s ∧ PairInv ids s :=
  h.invariant (I := fun s => RtcInv ids remote s ∧ PairInv ids s)
    ⟨.init parse dump ids remote max, .init parse dump ids remote max⟩ fun hI ho he =>
      have hs := RtcStep.of_step he
      ⟨hs.rtcInv hI.1 hread hids hg ho.1, hs.pairInv hI.2 hI.1 hread hids ho.1 ho.2⟩

/-- In every run without glare in which no message is repeated, two links that face a third are
one; and all that a peer connection is given was reported by one link, which faces it. -/
theorem negotiation_pairs {max : ι → Nat} (hread : Reads parse dump) (hids : Function.Injective ids)
    (hg : NoGlare ids remote) (h : (RtcNetwork.lts τ parse dump ids remote max).Reach
      (fun s a => Negotiates s a ∧ DescribesOnce s a) s) (i : ι) (l : Nat) :
    (∀ j j' l₁ l₂, s.Facing ids i l j l₁ → s.Facing ids i l j' l₂ → j = j' ∧ l₁ = l₂) ∧
    ∃ j l', (∀ d, .described l d ∈ (s.nodes i).log → s.Facing ids i l j l' ∧
        ⟨j, l', ids i, .description d.type d.sdp⟩ ∈ s.wire.sent) ∧
      ∀ c, .candidate l c ∈ (s.nodes i).log → s.Facing ids i l j l' ∧
        ⟨j, l', ids i, .candidate c⟩ ∈ s.wire.sent := by
  obtain ⟨hr, hi⟩ := PairInv.reach hread hids hg h
  exact ⟨fun _ _ _ _ => hi.unique hr hids, hi.paired hr hids hg i l⟩

end

instance {ι τ : Type} [DecidableEq ι] (s : RtcNetwork ι τ) (a : RtcAction ι τ) :
    Decidable (DescribesOnce s a) :=
  match a with
  | .duplicate _ => .isFalse id
  | .report i l (.description _ _) => inferInstanceAs (Decidable (
      ∀ p ∈ s.wire.sent, p.node = i → p.link = l → p.event.isDescription = false))
  | .report _ _ (.candidate _) | .node _ _ | .arrive _ _ _ | .lose _ => .isTrue trivial

open RtcNetwork (pair going toB)
open WsSignaling (pairId pairId_injective)

/-- `a` makes an offer, and `b` answers it and sends a candidate. -/
theorem negotiation_pairs_pair : ∃ s, (pair toB).Reach (fun s a => Negotiates s a ∧ DescribesOnce s a) s ∧
    .described 0 ⟨"v=1", .answer, ⟨"b"⟩⟩ ∈ (s.nodes false).log ∧
    .candidate 0 ⟨"udp", "0"⟩ ∈ (s.nodes false).log ∧
    ∃ j l', s.Facing pairId false 0 j l' ∧ ⟨j, l', ⟨"a"⟩, .description .answer "v=1"⟩ ∈ s.wire.sent ∧
      ⟨j, l', ⟨"a"⟩, .candidate ⟨"udp", "0"⟩⟩ ∈ s.wire.sent := by
  obtain ⟨s, hs, hq⟩ := Lts.Reach.of_run (pair toB) (fun s a => Negotiates s a ∧ DescribesOnce s a)
    ([.node false (.joined () none), .node true (.joined () none)] ++ going false 2 ++
      [.report false 0 (.description .offer "v=0"), .arrive true () 0] ++ going true 6 ++
      [.report true 0 (.description .answer "v=1"), .report true 0 (.candidate ⟨"udp", "0"⟩),
        .arrive false () 0] ++ going false 2 ++ [.arrive false () 0] ++ going false 5)
    (fun s => .described 0 ⟨"v=1", .answer, ⟨"b"⟩⟩ ∈ (s.nodes false).log ∧
      .candidate 0 ⟨"udp", "0"⟩ ∈ (s.nodes false).log) (by decide +kernel)
  obtain ⟨hd, hc⟩ := of_decide_eq_true hq
  obtain ⟨-, j, l', hdesc, hcand⟩ := negotiation_pairs RtcNetwork.fields_reads pairId_injective
    RtcNetwork.toB_noGlare hs false 0
  obtain ⟨hf, hm⟩ := hdesc _ hd
  exact ⟨s, hs, hd, hc, j, l', hf, hm, (hcand _ hc).2⟩

/-- A repeated offer makes a second link: the answer of the first is applied, and then the
candidate of the second. -/
theorem negotiation_repeated : ∃ s, (pair toB).Reach Negotiates s ∧
    .described 0 ⟨"v=1", .answer, ⟨"b"⟩⟩ ∈ (s.nodes false).log ∧
    .candidate 0 ⟨"udp", "0"⟩ ∈ (s.nodes false).log ∧
    s.wire.sent.map (fun p => (p.link, p.event)) = [(1, .candidate ⟨"udp", "0"⟩),
      (0, .description .answer "v=1"), (0, .description .offer "v=0")] := by
  obtain ⟨s, hs, hq⟩ := Lts.Reach.of_run (pair toB) Negotiates
    ([.node false (.joined () none), .node true (.joined () none)] ++ going false 2 ++
      [.report false 0 (.description .offer "v=0"), .duplicate 0, .arrive true () 0] ++ going true 6 ++
      [.arrive true () 0] ++ going true 6 ++
      [.report true 0 (.description .answer "v=1"), .arrive false () 0] ++ going false 4 ++
      [.report true 1 (.candidate ⟨"udp", "0"⟩), .arrive false () 0] ++ going false 3)
    (fun s => .described 0 ⟨"v=1", .answer, ⟨"b"⟩⟩ ∈ (s.nodes false).log ∧
      .candidate 0 ⟨"udp", "0"⟩ ∈ (s.nodes false).log ∧
      s.wire.sent.map (fun p => (p.link, p.event)) = [(1, .candidate ⟨"udp", "0"⟩),
        (0, .description .answer "v=1"), (0, .description .offer "v=0")]) (by decide +kernel)
  exact ⟨s, hs, of_decide_eq_true hq⟩

end TX.Rtt
