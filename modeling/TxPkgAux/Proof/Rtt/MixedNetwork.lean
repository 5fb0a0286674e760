import TxPkgAux.Proof.Rtt.JsContexts
import TxPkgAux.Proof.Rtt.JsNegotiation

/-!
# Browsers and native transports: agreement and pairs

A network with browsers does nothing to peer connections that one of native transports would
not do (`mixed_covered`): every transport in a browser is covered by a native one, whose limit of
inbound connections is that of the run. So what holds of the latter holds here: links agree
(`mixed_agrees`) and are paired (`mixed_pairs`) across the two implementations.

An answer is looked up by its sender in a browser, and by `remoteId` natively: both find the same
link since an answer comes from the transport that the receiver makes its offers to
(`RtcInv.answer`).
-/

namespace TX.Rtt

open Function (update update_self update_of_ne)

section

variable {ι κ τ : Type} [DecidableEq ι] [DecidableEq κ] [DecidableEq τ]

namespace MixedNetwork

/-- The type of what the peer connection of a link or a context describes. -/
def describesAs (s : MixedNetwork ι κ τ) (i : ι ⊕ κ) (l : Nat) : DescriptionType :=
  if s.inbound i l then .answer else .offer

/-- The peer connection of `OpenOfferer` describes an offer, and one that was made for an
offer an answer, after the offer was applied to it. -/
def Negotiates (s : MixedNetwork ι κ τ) : MixedAction ι κ τ → Prop
  | .report i l (.description type _) => type = s.describesAs i l ∧
    (type = .answer → ∃ x ∈ s.given i, x.1 = l ∧ x.2.isDescription = true)
  | _ => True

/-- No message is repeated, and a peer connection describes itself once. -/
def DescribesOnce (s : MixedNetwork ι κ τ) : MixedAction ι κ τ → Prop
  | .duplicate _ => False
  | .report i l (.description _ _) =>
    ∀ p ∈ s.wire.sent, p.node = i → p.link = l → p.event.isDescription = false
  | _ => True

/-- The links of two transports to each other, as `RtcNetwork.Facing` says. -/
structure Facing (ids : ι ⊕ κ → PeerId) (s : MixedNetwork ι κ τ) (i : ι ⊕ κ) (l : Nat) (j : ι ⊕ κ) (l' : Nat) :
    Prop where
  here : l < s.created i
  there : l' < s.created j
  remoteId : s.remoteId i l = ids j
  back : s.remoteId j l' = ids i
  inbound : s.inbound j l' = !s.inbound i l

end MixedNetwork

/-! ## The steps of the network -/

inductive MixedStep (parse : Parse) (dump : Dump) (ids : ι ⊕ κ → PeerId) (s : MixedNetwork ι κ τ) :
    MixedAction ι κ τ → MixedNetwork ι κ τ → Prop where
  | dc (i : ι) (a : DcAction τ) {r : DcRtcTransport τ} (hm : ∀ t m, a ≠ .onMessage t m)
      (he : (s.dc i).step parse a = some r) : MixedStep parse dump ids s (.dc i a) (s.setDc i r)
  | js (k : κ) (a : JsAction) {j : JsRtcTransport} (hm : ∀ m, a ≠ .onMessage m)
      (he : (s.js k).step parse a = some j) : MixedStep parse dump ids s (.js k a) (s.setJs k j)
  | report (i : ι ⊕ κ) (l : Nat) (e : LocalEvent) (hl : l < s.created i) :
    MixedStep parse dump ids s (.report i l e) { s with wire := s.wire.send ⟨i, l, s.remoteId i l, e⟩ }
  | arriveDc (i : ι) (t : τ) (n : Nat) (p : Packet (ι ⊕ κ)) {r : DcRtcTransport τ}
      (hp : s.wire.flight[n]? = some p) (hd : p.dst = ids (.inl i))
      (he : (s.dc i).step parse (.onMessage t (RtcNetwork.message dump ids p)) = some r) :
    MixedStep parse dump ids s (.arriveDc i t n) { s.setDc i r with wire := s.wire.take n p }
  | arriveJs (k : κ) (n : Nat) (p : Packet (ι ⊕ κ)) {j : JsRtcTransport}
      (hp : s.wire.flight[n]? = some p) (hd : p.dst = ids (.inr k))
      (he : (s.js k).step parse (.onMessage (RtcNetwork.message dump ids p)) = some j) :
    MixedStep parse dump ids s (.arriveJs k n) { s.setJs k j with wire := s.wire.take n p }
  | lose (n : Nat) : MixedStep parse dump ids s (.lose n) { s with wire := s.wire.lose n }
  | duplicate (n : Nat) : MixedStep parse dump ids s (.duplicate n) { s with wire := s.wire.duplicate n }

variable {parse : Parse} {dump : Dump} {ids remote : ι ⊕ κ → PeerId} {s s' : MixedNetwork ι κ τ}
  {a : MixedAction ι κ τ}

theorem MixedStep.of_step (he : s.step parse dump ids a = some s') : MixedStep parse dump ids s a s' := by
  cases a with
  | dc i b =>
    have hb : ∀ t m, b ≠ .onMessage t m := fun t m hb => by
      subst hb
      cases he
    have he' : ((s.dc i).step parse b).map (s.setDc i) = some s' := by
      cases b with
      | onMessage t m => exact absurd rfl (hb t m)
      | _ => exact he
    obtain ⟨r, hr, rfl⟩ := Option.map_eq_some_iff.mp he'
    exact .dc i b hb hr
  | js k b =>
    have hb : ∀ m, b ≠ .onMessage m := fun m hb => by
      subst hb
      cases he
    have he' : ((s.js k).step parse b).map (s.setJs k) = some s' := by
      cases b with
      | onMessage m => exact absurd rfl (hb m)
      | _ => exact he
    obtain ⟨j, hj, rfl⟩ := Option.map_eq_some_iff.mp he'
    exact .js k b hb hj
  | report i l e =>
    simp only [MixedNetwork.step] at he
    split at he <;> cases he
    exact .report i l e (And.left ‹_›)
  | arriveDc i t n =>
    simp only [MixedNetwork.step] at he
    split at he
    · cases he
    · split at he
      · obtain ⟨r, hr, rfl⟩ := Option.map_eq_some_iff.mp he
        exact .arriveDc i t n _ ‹_› ‹_› hr
      · cases he
  | arriveJs k n =>
    simp only [MixedNetwork.step] at he
    split at he
    · cases he
    · split at he
      · obtain ⟨j, hj, rfl⟩ := Option.map_eq_some_iff.mp he
        exact .arriveJs k n _ ‹_› ‹_› hj
      · cases he
  | lose n =>
    cases he
    exact .lose n
  | duplicate n =>
    cases he
    exact .duplicate n

/-! ## Native transports in the place of browsers -/

/-- A network of native transports, which `max` limits. -/
structure Mimics (max : ι ⊕ κ → Nat) (s : MixedNetwork ι κ τ) (n : RtcNetwork (ι ⊕ κ) τ) : Prop where
  dc : ∀ i, n.nodes (.inl i) = s.dc i
  js : ∀ k, Covers (max (.inr k)) (s.js k) (n.nodes (.inr k))
  flight : n.wire.flight = s.wire.flight
  sent : n.wire.sent = s.wire.sent
  copied : n.wire.copied = s.wire.copied

section Mimics

variable {max : ι ⊕ κ → Nat} {n : RtcNetwork (ι ⊕ κ) τ}

omit [DecidableEq ι] [DecidableEq κ] [DecidableEq τ] in
theorem Mimics.created (h : Mimics max s n) (i : ι ⊕ κ) : (n.nodes i).created = s.created i := by
  cases i with
  | inl i => rw [h.dc]; rfl
  | inr k => exact (h.js k).created

omit [DecidableEq ι] [DecidableEq κ] [DecidableEq τ] in
theorem Mimics.remoteId (h : Mimics max s n) (i : ι ⊕ κ) (l : Nat) :
    ((n.nodes i).links l).remoteId = s.remoteId i l := by
  cases i with
  | inl i => rw [h.dc]; rfl
  | inr k => exact ((h.js k).contexts l).remoteId

omit [DecidableEq ι] [DecidableEq κ] [DecidableEq τ] in
theorem Mimics.inbound (h : Mimics max s n) (i : ι ⊕ κ) (l : Nat) :
    ((n.nodes i).links l).inbound = s.inbound i l := by
  cases i with
  | inl i => rw [h.dc]; rfl
  | inr k => exact ((h.js k).contexts l).inbound

omit [DecidableEq ι] [DecidableEq κ] [DecidableEq τ] in
theorem Mimics.given (h : Mimics max s n) (i : ι ⊕ κ) : s.given i ⊆ (n.nodes i).given := by
  cases i with
  | inl i => exact h.dc i ▸ List.Subset.refl _
  | inr k => exact (h.js k).given

omit [DecidableEq ι] [DecidableEq κ] [DecidableEq τ] in
theorem Mimics.descriptions (h : Mimics max s n) (i : ι ⊕ κ) {x : Nat × LocalEvent} (hx : x ∈ (n.nodes i).given)
    (ht : x.2.isDescription = true) : x ∈ s.given i := by
  cases i with
  | inl i =>
    rw [h.dc] at hx
    exact hx
  | inr k => exact (h.js k).descriptions x hx ht

omit [DecidableEq ι] [DecidableEq κ] [DecidableEq τ] in
theorem Mimics.facing (h : Mimics max s n) {i j : ι ⊕ κ} {l l' : Nat} :
    n.Facing ids i l j l' ↔ s.Facing ids i l j l' := by
  constructor
  · intro hf
    exact ⟨h.created i ▸ hf.here, h.created j ▸ hf.there, h.remoteId i l ▸ hf.remoteId,
      h.remoteId j l' ▸ hf.back, h.inbound i l ▸ h.inbound j l' ▸ hf.inbound⟩
  · intro hf
    exact ⟨h.created i ▸ hf.here, h.created j ▸ hf.there, h.remoteId i l ▸ hf.remoteId,
      h.remoteId j l' ▸ hf.back, h.inbound i l ▸ h.inbound j l' ▸ hf.inbound⟩

omit [DecidableEq τ] in
theorem RtcNetwork.setNode_self (n : RtcNetwork ι τ) (i : ι) (r : DcRtcTransport τ) :
    (n.setNode i r).nodes i = r := update_self ..

omit [DecidableEq τ] in
theorem RtcNetwork.setNode_of_ne (n : RtcNetwork ι τ) {i i' : ι} (h : i' ≠ i) (r : DcRtcTransport τ) :
    (n.setNode i r).nodes i' = n.nodes i' := update_of_ne h ..

omit [DecidableEq ι] [DecidableEq τ] in
theorem MixedNetwork.setJs_self (s : MixedNetwork ι κ τ) (k : κ) (j : JsRtcTransport) :
    (s.setJs k j).js k = j := update_self ..

omit [DecidableEq τ] in
/-- One transport goes on, on both sides. -/
theorem Mimics.setDc (h : Mimics max s n) (i : ι) (r : DcRtcTransport τ) :
    Mimics max (s.setDc i r) (n.setNode (.inl i) r) where
  dc i' := by
    by_cases hi : i' = i
    · subst hi
      have hs : (s.setDc i' r).dc i' = r := update_self ..
      rw [n.setNode_self, hs]
    · have hs : (s.setDc i r).dc i' = s.dc i' := update_of_ne hi ..
      rw [n.setNode_of_ne (fun he => hi (Sum.inl.inj he)) r, hs]
      exact h.dc i'
  js k := by
    rw [n.setNode_of_ne Sum.inr_ne_inl r]
    exact h.js k
  flight := h.flight
  sent := h.sent
  copied := h.copied

omit [DecidableEq τ] in
theorem Mimics.setJs (h : Mimics max s n) {k : κ} {j : JsRtcTransport} {r : DcRtcTransport τ}
    (hc : Covers (max (.inr k)) j r) : Mimics max (s.setJs k j) (n.setNode (.inr k) r) where
  dc i := by
    rw [n.setNode_of_ne Sum.inl_ne_inr r]
    exact h.dc i
  js k' := by
    by_cases hk : k' = k
    · subst hk
      rw [n.setNode_self, s.setJs_self]
      exact hc
    · have hs : (s.setJs k j).js k' = s.js k' := update_of_ne hk ..
      rw [n.setNode_of_ne (fun he => hk (Sum.inr.inj he)) r, hs]
      exact h.js k'
  flight := h.flight
  sent := h.sent
  copied := h.copied

omit [DecidableEq τ] in
/-- A browser goes on, and the native transport in its place does nothing. -/
theorem Mimics.setJs_idle (h : Mimics max s n) {k : κ} {j : JsRtcTransport}
    (hc : Covers (max (.inr k)) j (n.nodes (.inr k))) : Mimics max (s.setJs k j) n := by
  have hs := h.setJs hc
  rwa [RtcNetwork.setNode, Function.update_eq_self] at hs

/-! ## Runs of native transports -/

/-- The condition `ok` on the reports of a mixed network carries over to the other one, where
messages may be lost and handled as they come. -/
structure Carries (ok : MixedNetwork ι κ τ → MixedAction ι κ τ → Prop)
    (ok' : RtcNetwork (ι ⊕ κ) τ → RtcAction (ι ⊕ κ) τ → Prop) : Prop where
  negotiates : ∀ n a, ok' n a → Negotiates n a
  node : ∀ n i a, ok' n (.node i a)
  arrive : ∀ n i t k, ok' n (.arrive i t k)
  lose : ∀ n k, ok' n (.lose k)
  report : ∀ {max s n i l e}, Mimics max s n → ok s (.report i l e) → ok' n (.report i l e)
  duplicate : ∀ {s n k}, ok s (.duplicate k) → ok' n (.duplicate k)

/-- A call of a transport runs to its end, in the network. -/
theorem DcRtcTransport.Returns.path {A : Acceptance} {t : τ} {r r' : DcRtcTransport τ}
    (h : DcRtcTransport.Returns A t r r') (parse : Parse) (dump : Dump) (ids remote : ι ⊕ κ → PeerId)
    (max : ι ⊕ κ → Nat) {ok' : RtcNetwork (ι ⊕ κ) τ → RtcAction (ι ⊕ κ) τ → Prop}
    (hok : ∀ n i a, ok' n (.node i a)) {i : ι ⊕ κ} (hn : n.nodes i = r) :
    (RtcNetwork.lts τ parse dump ids remote max).Path ok' n (n.setNode i r') := by
  induction h generalizing n with
  | done =>
    have he : n.setNode i (n.nodes i) = n := by rw [RtcNetwork.setNode, Function.update_eq_self]
    rw [← hn, he]
    exact .refl n
  | @next r r₁ r' he _ ih =>
    have hstep : (RtcNetwork.lts τ parse dump ids remote max).step n (.node i (.next t (r.accepted A t))) =
        some (n.setNode i r₁) := by
      subst hn
      exact congrArg (Option.map (n.setNode i)) he
    have hrest := ih (n := n.setNode i r₁) (n.setNode_self i r₁)
    have hset : (n.setNode i r₁).setNode i r' = n.setNode i r' := by
      simp only [RtcNetwork.setNode, Function.update_idem]
    rw [hset] at hrest
    exact Lts.Path.trans (.tail (.refl n) (hok n i _) hstep) hrest

/-- A transport in a browser joins. -/
theorem Mimics.joined [Inhabited τ] (hm : Mimics max s n)
    {ok' : RtcNetwork (ι ⊕ κ) τ → RtcAction (ι ⊕ κ) τ → Prop} (hok : ∀ n i a, ok' n (.node i a)) {k : κ}
    (hj : (s.js k).joined = false) : ∃ n', (RtcNetwork.lts τ parse dump ids remote max).Path ok' n n' ∧
      Mimics max (s.setJs k ((s.js k).onJoined none)) n' := by
  have hc := hm.js k
  have hnj : (n.nodes (.inr k)).joined = false := by
    by_contra hn
    simp [hc.joined (by simpa using hn)] at hj
  have hstep : (RtcNetwork.lts τ parse dump ids remote max).step n (.node (.inr k) (.joined default none)) =
      some (n.setNode (.inr k) ((n.nodes (.inr k)).onJoined default none)) :=
    congrArg (Option.map (n.setNode (.inr k))) (if_pos ⟨hnj, hc.alive, hc.calls default⟩)
  have hfirst := Lts.Path.tail (.refl n) (hok n _ _) hstep
  have hoff : (n.nodes (.inr k)).isOfferer = (s.js k).isOfferer := by
    rw [DcRtcTransport.isOfferer, hc.remoteId, JsRtcTransport.isOfferer]
  cases ho : (s.js k).isOfferer with
  | false =>
    have hn : (n.nodes (.inr k)).onJoined default none =
        { n.nodes (.inr k) with joined := true, handling := true } := if_neg (by simp [hoff, ho])
    have hs : (s.js k).onJoined none = { s.js k with joined := true, handling := true } :=
      if_neg (by simpa [JsRtcTransport.isOfferer] using ho)
    rw [hn] at hfirst
    rw [hs]
    exact ⟨_, hfirst, hm.setJs { hc with joined := fun _ => rfl, handling := fun _ => rfl }⟩
  | true =>
    have hn : (n.nodes (.inr k)).onJoined default none =
        { n.nodes (.inr k) with joined := true }.begin default .openOfferer := if_pos (hoff.trans ho)
    have hs : (s.js k).onJoined none = { s.js k with joined := true, handling := true }.openOfferer := if_pos ho
    rw [hn] at hfirst
    rw [hs]
    have hret := DcRtcTransport.openOfferer_all (n := { n.nodes (.inr k) with joined := true }) (t := default)
      (hc.calls default)
    have hrest := hret.path parse dump ids remote max hok
      (i := .inr k) (n.setNode_self _ _)
    refine ⟨_, hfirst.trans hrest, ?_⟩
    simp only [RtcNetwork.setNode, Function.update_idem]
    exact hm.setJs hc.openOfferer

omit [DecidableEq ι] [DecidableEq κ] [DecidableEq τ] in
/-- Messages move, are lost or repeated. -/
theorem Mimics.setWire (h : Mimics max s n) {w : Wire (Packet (ι ⊕ κ))} {w' : Wire (Packet (ι ⊕ κ))}
    (hf : w'.flight = w.flight) (hs : w'.sent = w.sent) (hc : w'.copied = w.copied) :
    Mimics max { s with wire := w } { n with wire := w' } :=
  ⟨h.dc, h.js, hf, hs, hc⟩

/-- A message arrives at a browser: the native transport in its place handles it too, or it is
lost. -/
theorem Mimics.arriveJs [Inhabited τ] (hm : Mimics max s n)
    {ok : MixedNetwork ι κ τ → MixedAction ι κ τ → Prop} {ok' : RtcNetwork (ι ⊕ κ) τ → RtcAction (ι ⊕ κ) τ → Prop}
    (hok : Carries ok ok') (hread : Reads parse dump) (hids : Function.Injective ids) (hi : RtcInv ids remote n)
    {k : κ} {f : Nat} {p : Packet (ι ⊕ κ)} {j : JsRtcTransport} (hp : s.wire.flight[f]? = some p)
    (hd : p.dst = ids (.inr k)) (he : (s.js k).step parse (.onMessage (RtcNetwork.message dump ids p)) = some j)
    (hroom : j.created ≤ max (.inr k)) :
    ∃ n', (RtcNetwork.lts τ parse dump ids remote max).Path ok' n n' ∧
      Mimics max { s.setJs k j with wire := s.wire.take f p } n' := by
  obtain ⟨hh, rfl⟩ : (s.js k).handling = true ∧ (s.js k).onMessage parse (RtcNetwork.message dump ids p) = j := by
    simp only [JsRtcTransport.step] at he
    split at he <;> cases he
    exact ⟨And.left ‹_›, rfl⟩
  have hflight : n.wire.flight[f]? = some p := hm.flight ▸ hp
  have hsent := hi.wire.flight_sent (List.mem_of_getElem? hflight)
  have hsrc : p.event.isAnswer = true → (s.js k).isOfferer = true → ids p.node = (s.js k).remoteId := fun ha _ => by
    obtain ⟨sdp, he⟩ : ∃ sdp, p.event = .description .answer sdp := by
      rcases hev : p.event with ⟨_ | _, sdp⟩ | c <;> simp_all [LocalEvent.isAnswer]
    obtain ⟨q, -, -, -, -, -, hr⟩ := hi.answer hids (i := .inr k) ⟨p, hsent, rfl, hd, he⟩
    rw [← (hm.js k).remoteId, hi.remoteId, hr]
  have herase : (s.wire.take f p).flight = (n.wire.lose f).flight := congrArg (·.eraseIdx f) hm.flight.symm
  rcases (hm.js k).onMessage default hh (m := RtcNetwork.message dump ids p) (hread p.event) hroom hsrc with
    hc | ⟨n₁, n₂, hstep, hret, hc⟩
  · refine ⟨{ n with wire := n.wire.lose f }, .tail (.refl n) (hok.lose n f) rfl, ?_⟩
    exact (hm.setJs_idle hc).setWire herase.symm hm.sent hm.copied
  · have harrive : (RtcNetwork.lts τ parse dump ids remote max).step n (.arrive (.inr k) default f) =
        some { n.setNode (.inr k) n₁ with wire := n.wire.take f p } := by
      simp only [RtcNetwork.lts, RtcNetwork.step, hflight, hd, if_true, hstep, Option.map_some]
    have hrest := hret.path parse dump ids remote max hok.node
      (n := { n.setNode (.inr k) n₁ with wire := n.wire.take f p }) (i := .inr k) (n.setNode_self _ _)
    refine ⟨_, .trans (.tail (.refl n) (hok.arrive n _ _ _) harrive) hrest, ?_⟩
    have hset : ({ n.setNode (.inr k) n₁ with wire := n.wire.take f p }).setNode (.inr k) n₂ =
        { n.setNode (.inr k) n₂ with wire := n.wire.take f p } := by
      simp only [RtcNetwork.setNode, Function.update_idem]
    rw [hset]
    exact (hm.setJs hc).setWire herase.symm hm.sent hm.copied

/-- A step of the mixed network, where no browser has more contexts after it than `max`. -/
theorem Mimics.step [Inhabited τ] (hm : Mimics max s n)
    {ok : MixedNetwork ι κ τ → MixedAction ι κ τ → Prop} {ok' : RtcNetwork (ι ⊕ κ) τ → RtcAction (ι ⊕ κ) τ → Prop}
    (hok : Carries ok ok') (hread : Reads parse dump) (hids : Function.Injective ids) (hi : RtcInv ids remote n)
    (ho : ok s a) (h : MixedStep parse dump ids s a s') (hmax : ∀ k, (s'.js k).created ≤ max (.inr k)) :
    ∃ n', (RtcNetwork.lts τ parse dump ids remote max).Path ok' n n' ∧ Mimics max s' n' := by
  cases h with
  | dc i b hb he =>
    refine ⟨_, .tail (.refl n) (hok.node n (.inl i) b) ?_, hm.setDc i _⟩
    refine (RtcNetwork.step_node hb).trans ?_
    rw [hm.dc, he]
    rfl
  | js k b hb he =>
    by_cases hj : b = .joined none
    · subst hj
      simp only [JsRtcTransport.step] at he
      split at he <;> cases he
      exact hm.joined hok.node (And.left ‹_›)
    · exact ⟨n, .refl n, hm.setJs_idle ((hm.js k).quiet (.of_step he hb hj))⟩
  | report i l e hl =>
    refine ⟨_, .tail (.refl n) (hok.report hm ho) (if_pos (hm.created i ▸ hl)), ?_⟩
    rw [hm.remoteId]
    exact hm.setWire (congrArg (_ :: ·) hm.flight) (congrArg (_ :: ·) hm.sent) hm.copied
  | @arriveDc i t f p r hp hd he =>
    have hflight : n.wire.flight[f]? = some p := hm.flight ▸ hp
    have hstep : (RtcNetwork.lts τ parse dump ids remote max).step n (.arrive (.inl i) t f) =
        some { n.setNode (.inl i) r with wire := n.wire.take f p } := by
      simp only [RtcNetwork.lts, RtcNetwork.step, hflight, hd, if_true, hm.dc, he, Option.map_some]
    refine ⟨_, .tail (.refl n) (hok.arrive n _ _ _) hstep, ?_⟩
    exact (hm.setDc i r).setWire (congrArg (·.eraseIdx f) hm.flight) hm.sent hm.copied
  | @arriveJs k f p j hp hd he =>
    refine hm.arriveJs hok hread hids hi hp hd he ?_
    have hk : ((s.setJs k j).js k).created ≤ max (.inr k) := hmax k
    rwa [s.setJs_self] at hk
  | lose f =>
    exact ⟨_, .tail (.refl n) (hok.lose n f) rfl, hm.setWire (congrArg (·.eraseIdx f) hm.flight) hm.sent hm.copied⟩
  | duplicate f =>
    refine ⟨_, .tail (.refl n) (hok.duplicate ho) rfl, hm.setWire ?_ hm.sent ?_⟩
    · simp only [Wire.duplicate, hm.flight]
    · simp only [Wire.duplicate, hm.flight, hm.copied]

theorem Mimics.init (parse : Parse) (dump : Dump) (ids remote : ι ⊕ κ → PeerId) (max₀ : ι ⊕ κ → Nat)
    (hmax : ∀ i, max (.inl i) = max₀ (.inl i)) : Mimics max (MixedNetwork.lts τ parse dump ids remote max₀).init
      (RtcNetwork.lts τ parse dump ids remote max).init where
  dc i := by simp only [RtcNetwork.lts, MixedNetwork.lts, hmax]
  js k := {
    remoteId := rfl
    max := rfl
    joined := nofun
    handling := nofun
    alive := rfl
    calls := fun _ => rfl
    created := rfl
    inboundCount := Nat.le_refl 0
    peers := nofun
    contexts := fun c => ⟨rfl, rfl, nofun, nofun, nofun⟩
    given := List.Subset.refl []
    descriptions := nofun }
  flight := rfl
  sent := rfl
  copied := rfl

end Mimics

/-! ## Every run -/

theorem JsEffect.created_le {j j' : JsRtcTransport} (h : JsEffect j j') : j.created ≤ j'.created := by
  cases h with
  | aside h => exact h.created.ge
  | stored h r hr ha hi e he => exact h.created ▸ Nat.le_succ _
  | ended h c hl hb => exact (destroyLink_created _ c).ge.trans' h.created.ge
  | _ => exact Nat.le_refl _

theorem MixedStep.created_le (h : MixedStep parse dump ids s a s') (k : κ) :
    (s.js k).created ≤ (s'.js k).created := by
  have hset : ∀ {k' : κ} {b : JsAction} {j : JsRtcTransport}, (s.js k').step parse b = some j →
      (s.js k).created ≤ ((s.setJs k' j).js k).created := fun {k' b j} he => by
    by_cases hk : k = k'
    · subst hk
      rw [s.setJs_self]
      exact (JsEffect.of_step he).created_le
    · have hs : (s.setJs k' j).js k = s.js k := update_of_ne hk ..
      rw [hs]
  cases h with
  | js k' b hb he => exact hset he
  | arriveJs k' f p hp hd he => exact hset he
  | _ => exact Nat.le_refl _

/-- Every run of the mixed network is covered by one of native transports. -/
theorem mixed_covered [Inhabited τ] {max₀ : ι ⊕ κ → Nat} {ok : MixedNetwork ι κ τ → MixedAction ι κ τ → Prop}
    {ok' : RtcNetwork (ι ⊕ κ) τ → RtcAction (ι ⊕ κ) τ → Prop} (hok : Carries ok ok') (hread : Reads parse dump)
    (hids : Function.Injective ids) (hg : NoGlare ids remote)
    (h : (MixedNetwork.lts τ parse dump ids remote max₀).Reach ok s) :
    ∃ max n, (RtcNetwork.lts τ parse dump ids remote max).Reach ok' n ∧ RtcInv ids remote n ∧ Mimics max s n := by
  -- as many inbound connections as the browsers have contexts in the end
  set max : ι ⊕ κ → Nat := Sum.elim (fun i => max₀ (.inl i)) (fun k => (s.js k).created) with hmax
  have hinv : ∀ {n}, (RtcNetwork.lts τ parse dump ids remote max).Reach ok' n → RtcInv ids remote n := fun hn =>
    RtcInv.reach hread hids hg (hn.mono hok.negotiates)
  have hbound := h.within (I := fun s' => ∀ k, (s'.js k).created ≤ max (.inr k)) (fun k => Nat.le_refl _)
    fun he hI k => ((MixedStep.of_step he).created_le k).trans (hI k)
  have hsim : ∃ n, (RtcNetwork.lts τ parse dump ids remote max).Path ok'
      (RtcNetwork.lts τ parse dump ids remote max).init n ∧
        ((RtcNetwork.lts τ parse dump ids remote max).Reach ok' n ∧ Mimics max s n) :=
    hbound.simulate (R := fun s n => (RtcNetwork.lts τ parse dump ids remote max).Reach ok' n ∧ Mimics max s n)
      (fun ⟨hn, hm⟩ ⟨ho, hI⟩ he => by
        obtain ⟨n', hp, hm'⟩ := hm.step hok hread hids (hinv hn) ho (.of_step he) (hI _ he)
        exact ⟨n', hp, hn.trans hp, hm'⟩)
      ⟨.refl _, .init parse dump ids remote max₀ fun _ => rfl⟩
  obtain ⟨n, -, hn, hm⟩ := hsim
  exact ⟨max, n, hn, hinv hn, hm⟩

/-! ## Agreement and pairs -/

section Conditions

variable {max : ι ⊕ κ → Nat} {n : RtcNetwork (ι ⊕ κ) τ}

theorem describes_of_gives {ev : DcEvent} {x : Nat × LocalEvent} (h : ev.gives = some x)
    (ht : x.2.isDescription = true) : ev.describes = some x.1 := by
  cases ev with
  | described l d =>
    cases h
    rfl
  | candidate l c =>
    cases h
    cases ht
  | _ => cases h

omit [DecidableEq ι] [DecidableEq κ] [DecidableEq τ] in
theorem Mimics.negotiates (hm : Mimics max s n) {i : ι ⊕ κ} {l : Nat} {e : LocalEvent}
    (ho : s.Negotiates (.report i l e)) : Negotiates n (.report i l e) := by
  cases e with
  | candidate c => trivial
  | description type sdp =>
    obtain ⟨ht, ha⟩ := ho
    refine ⟨?_, fun hta => ?_⟩
    · rw [DcRtcLink.describesAs, hm.inbound]
      exact ht
    · obtain ⟨x, hx, rfl, hd⟩ := ha hta
      obtain ⟨ev, hev, hg⟩ := List.mem_filterMap.mp (hm.given i hx)
      exact ⟨ev, hev, describes_of_gives hg hd⟩

omit [DecidableEq ι] [DecidableEq κ] [DecidableEq τ] in
theorem Mimics.describesOnce (hm : Mimics max s n) {i : ι ⊕ κ} {l : Nat} {e : LocalEvent}
    (ho : s.DescribesOnce (.report i l e)) : DescribesOnce n (.report i l e) := by
  cases e with
  | candidate c => trivial
  | description type sdp => exact fun p hp => ho p (hm.sent ▸ hp)

end Conditions

omit [DecidableEq ι] [DecidableEq κ] [DecidableEq τ] in
theorem carries_negotiates : Carries (MixedNetwork.Negotiates (ι := ι) (κ := κ) (τ := τ)) Negotiates where
  negotiates _ _ := id
  node _ _ _ := trivial
  arrive _ _ _ _ := trivial
  lose _ _ := trivial
  report hm := hm.negotiates
  duplicate _ := trivial

omit [DecidableEq ι] [DecidableEq κ] [DecidableEq τ] in
theorem carries_describesOnce :
    Carries (fun (s : MixedNetwork ι κ τ) a => s.Negotiates a ∧ s.DescribesOnce a)
      (fun n a => Negotiates n a ∧ DescribesOnce n a) where
  negotiates _ _ := And.left
  node _ _ _ := ⟨trivial, trivial⟩
  arrive _ _ _ _ := ⟨trivial, trivial⟩
  lose _ _ := ⟨trivial, trivial⟩
  report hm := And.imp hm.negotiates hm.describesOnce
  duplicate h := absurd h.2 id

theorem LocalEvent.isOffer_iff {type : DescriptionType} {sdp : String} :
    (description type sdp).isOffer = true ↔ type = .offer := by
  cases type <;> simp [isOffer]

theorem LocalEvent.isAnswer_iff {type : DescriptionType} {sdp : String} :
    (description type sdp).isAnswer = true ↔ type = .answer := by
  cases type <;> simp [isAnswer]

/-- In every run of native transports and browsers without glare, what a peer connection is given
was reported by the peer connection of a link on the other side, for it: an offer to a link that
was made for one, and an answer that answers an offer of its own. -/
theorem mixed_agrees [Inhabited τ] {max : ι ⊕ κ → Nat} (hread : Reads parse dump) (hids : Function.Injective ids)
    (hg : NoGlare ids remote)
    (h : (MixedNetwork.lts τ parse dump ids remote max).Reach MixedNetwork.Negotiates s) (i : ι ⊕ κ) (l : Nat)
    (e : LocalEvent) (he : (l, e) ∈ s.given i) : ∃ j l', s.Facing ids i l j l' ∧ ⟨j, l', ids i, e⟩ ∈ s.wire.sent ∧
      (e.isDescription = true → (e.isOffer = true ↔ s.inbound i l = true)) ∧
      (e.isAnswer = true → ∃ sdp, (l', .description .offer sdp) ∈ s.given j ∧
        ⟨i, l, ids j, .description .offer sdp⟩ ∈ s.wire.sent) := by
  obtain ⟨max', n, -, hi, hm⟩ := mixed_covered carries_negotiates hread hids hg h
  obtain ⟨ev, hev, hgives⟩ := List.mem_filterMap.mp (hm.given i he)
  rw [← hm.sent]
  cases ev with
  | described l' d =>
    cases hgives
    obtain ⟨j, l', hf, hp⟩ := hi.described hids hg hev
    obtain ⟨⟨-, -, hin⟩, -⟩ := (hi.heard i).described l d hev
    refine ⟨j, l', hm.facing.mp hf, hp, fun _ => ?_, fun ha => ?_⟩
    · rw [LocalEvent.isOffer_iff, ← hm.inbound]
      exact hin.symm
    · have ht : d.type = .answer := LocalEvent.isAnswer_iff.mp ha
      have hout : ((n.nodes i).links l).inbound = false := by
        have hne := mt hin.mp (by simp [ht])
        simpa using hne
      rw [ht] at hp
      obtain ⟨d', hd', ho, hq⟩ := hi.answered hids hf hout hp
      refine ⟨d'.sdp, hm.descriptions j (List.mem_filterMap.mpr ⟨_, hd', ?_⟩) rfl, hq⟩
      rw [DcEvent.gives, ho]
  | candidate l' c =>
    cases hgives
    obtain ⟨j, l', hf, hp⟩ := hi.candidate hids hg hev
    exact ⟨j, l', hm.facing.mp hf, hp, fun hd => absurd hd Bool.false_ne_true,
      fun ha => absurd ha Bool.false_ne_true⟩
  | _ => cases hgives

/-- In every run of native transports and browsers without glare in which no message is repeated,
two links that face a third are one; and all that a peer connection is given was reported by one
link, which faces it. -/
theorem mixed_pairs [Inhabited τ] {max : ι ⊕ κ → Nat} (hread : Reads parse dump) (hids : Function.Injective ids)
    (hg : NoGlare ids remote) (h : (MixedNetwork.lts τ parse dump ids remote max).Reach
      (fun s a => s.Negotiates a ∧ s.DescribesOnce a) s) (i : ι ⊕ κ) (l : Nat) :
    (∀ j j' l₁ l₂, s.Facing ids i l j l₁ → s.Facing ids i l j' l₂ → j = j' ∧ l₁ = l₂) ∧
    ∃ j l', ∀ e, (l, e) ∈ s.given i → s.Facing ids i l j l' ∧ ⟨j, l', ids i, e⟩ ∈ s.wire.sent := by
  obtain ⟨max', n, hn, hi, hm⟩ := mixed_covered carries_describesOnce hread hids hg h
  obtain ⟨-, hpair⟩ := PairInv.reach hread hids hg hn
  refine ⟨fun j j' l₁ l₂ h₁ h₂ => hpair.unique hi hids (hm.facing.mpr h₁) (hm.facing.mpr h₂), ?_⟩
  obtain ⟨j, l', hdesc, hcand⟩ := hpair.paired hi hids hg i l
  refine ⟨j, l', fun e he => ?_⟩
  obtain ⟨ev, hev, hgives⟩ := List.mem_filterMap.mp (hm.given i he)
  rw [← hm.sent, ← hm.facing]
  cases ev with
  | described l' d =>
    cases hgives
    exact hdesc d hev
  | candidate l' c =>
    cases hgives
    exact hcand c hev
  | _ => cases hgives

end

/-! ## Runs -/

namespace MixedNetwork

open RtcNetwork (fieldsParse fieldsDump)

instance {ι κ τ : Type} (s : MixedNetwork ι κ τ) (a : MixedAction ι κ τ) : Decidable (s.Negotiates a) :=
  match a with
  | .report i l (.description type _) => inferInstanceAs (Decidable (type = s.describesAs i l ∧
      (type = .answer → ∃ x ∈ s.given i, x.1 = l ∧ x.2.isDescription = true)))
  | .report _ _ (.candidate _) | .dc _ _ | .js _ _ | .arriveDc _ _ _ | .arriveJs _ _ | .lose _ | .duplicate _ =>
    .isTrue trivial

instance {ι κ τ : Type} [DecidableEq ι] [DecidableEq κ] (s : MixedNetwork ι κ τ) (a : MixedAction ι κ τ) :
    Decidable (s.DescribesOnce a) :=
  match a with
  | .duplicate _ => .isFalse id
  | .report i l (.description _ _) => inferInstanceAs (Decidable (
      ∀ p ∈ s.wire.sent, p.node = i → p.link = l → p.event.isDescription = false))
  | .report _ _ (.candidate _) | .dc _ _ | .js _ _ | .arriveDc _ _ _ | .arriveJs _ _ | .lose _ => .isTrue trivial

/-- A native transport `b`, and a browser `a`. -/
def pairId : Unit ⊕ Unit → PeerId
  | .inl _ => ⟨"b"⟩
  | .inr _ => ⟨"a"⟩

/-- The browser makes an offer to `b`, which waits for offers. -/
def toB : Unit ⊕ Unit → PeerId
  | .inl _ => ⟨""⟩
  | .inr _ => ⟨"b"⟩

theorem pairId_injective : Function.Injective pairId := by
  intro i j h
  cases i <;> cases j <;> simp_all [pairId]

theorem toB_noGlare : NoGlare pairId toB := by
  intro i j
  cases i <;> cases j <;> simp [toB, pairId]

abbrev pair : Lts (MixedNetwork Unit Unit Unit) (MixedAction Unit Unit Unit) :=
  lts Unit fieldsParse fieldsDump pairId toB fun _ => 2

/-- The candidate of `b` overtakes its answer, and is buffered. -/
theorem answered : ∃ s, pair.Reach (fun s a => s.Negotiates a ∧ s.DescribesOnce a) s ∧
    (0, .description .answer "v=1") ∈ s.given (.inr ()) ∧ (0, .candidate ⟨"udp", "0"⟩) ∈ s.given (.inr ()) := by
  obtain ⟨s, hs, hq⟩ := Lts.Reach.of_run pair (fun s a => s.Negotiates a ∧ s.DescribesOnce a)
    ([.js () (.joined none), .dc () (.joined () none), .report (.inr ()) 0 (.description .offer "v=0"),
        .arriveDc () () 0] ++ List.replicate 6 (.dc () (.next () true)) ++
      [.report (.inl ()) 0 (.description .answer "v=1"), .report (.inl ()) 0 (.candidate ⟨"udp", "0"⟩),
        .arriveJs () 0, .arriveJs () 0, .js () (.descSet 0)])
    (fun s => (0, .description .answer "v=1") ∈ s.given (.inr ()) ∧
      (0, .candidate ⟨"udp", "0"⟩) ∈ s.given (.inr ())) (by decide +kernel)
  exact ⟨s, hs, of_decide_eq_true hq⟩

end MixedNetwork

open MixedNetwork (pair)

theorem mixed_agrees_answered : ∃ s, pair.Reach MixedNetwork.Negotiates s ∧
    (0, .description .answer "v=1") ∈ s.given (.inr ()) ∧ ∃ j l', s.Facing MixedNetwork.pairId (.inr ()) 0 j l' ∧
      ∃ sdp, (l', .description .offer sdp) ∈ s.given j := by
  obtain ⟨s, hs, hd, -⟩ := MixedNetwork.answered
  have hs' := hs.mono fun _ _ => And.left
  obtain ⟨j, l', hf, -, -, ha⟩ := mixed_agrees RtcNetwork.fields_reads MixedNetwork.pairId_injective
    MixedNetwork.toB_noGlare hs' (.inr ()) 0 _ hd
  obtain ⟨sdp, ho, -⟩ := ha rfl
  exact ⟨s, hs', hd, j, l', hf, sdp, ho⟩

theorem mixed_pairs_answered : ∃ s, pair.Reach (fun s a => s.Negotiates a ∧ s.DescribesOnce a) s ∧
    (0, .description .answer "v=1") ∈ s.given (.inr ()) ∧ (0, .candidate ⟨"udp", "0"⟩) ∈ s.given (.inr ()) ∧
    ∃ j l', s.Facing MixedNetwork.pairId (.inr ()) 0 j l' ∧
      ⟨j, l', ⟨"a"⟩, .description .answer "v=1"⟩ ∈ s.wire.sent ∧
      ⟨j, l', ⟨"a"⟩, .candidate ⟨"udp", "0"⟩⟩ ∈ s.wire.sent := by
  obtain ⟨s, hs, hd, hc⟩ := MixedNetwork.answered
  obtain ⟨-, j, l', hgiven⟩ := mixed_pairs RtcNetwork.fields_reads MixedNetwork.pairId_injective
    MixedNetwork.toB_noGlare hs (.inr ()) 0
  obtain ⟨hf, hm⟩ := hgiven _ hd
  exact ⟨s, hs, hd, hc, j, l', hf, hm, (hgiven _ hc).2⟩

end TX.Rtt
