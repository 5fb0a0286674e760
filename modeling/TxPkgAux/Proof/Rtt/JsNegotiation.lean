import TxPkgAux.Impl.Rtt.MixedNetwork
import TxPkgAux.Proof.Rtt.DcMalformed
import TxPkgAux.Proof.Rtt.RtcPairs

/-!
# `JsRtcTransport`: a native transport in its place

`Covers` relates a transport in a browser to a native one that has made the same links, and
whose peer connections have been given all that the browser's were. Where the browser handles a
message, a native transport that handles it from its call to its end (`Returns`) covers it
again, or one that never got it (`Covers.onMessage`); all other steps of the browser leave it
covered (`Covers.quiet`), but for `onJoined`, which opens the offerer on both sides.

The browser drops more: a native transport ends no link here, and its `inboundCount` only grows.
-/

namespace TX.Rtt

open Function (update)

/-- A description was given to its peer connection. -/
def JsRtcPeerContext.told (r : JsRtcPeerContext) : Bool := r.descSet || r.describing

/-- The link is in the place of the context, where its peer connection was given the
candidates `given`. -/
structure JsRtcPeerContext.CoveredBy (r : JsRtcPeerContext) (r' : DcRtcLink) (given : Candidate → Prop) :
    Prop where
  remoteId : r'.remoteId = r.remoteId
  inbound : r'.inbound = r.inbound
  told : r.told = true → r'.remoteDescSet = true
  taken : r'.remoteDescSet = true → r'.pendingCandidates = []
  pending : ∀ cand ∈ r.pendingCandidates, cand ∈ r'.pendingCandidates ∨ given cand

section

variable {τ : Type} [DecidableEq τ]

structure Covers (max : Nat) (j : JsRtcTransport) (n : DcRtcTransport τ) : Prop where
  remoteId : n.remoteId = j.remoteId
  max : n.maxInboundConnections = max
  joined : n.joined = true → j.joined = true
  handling : j.handling = true → n.handling = true
  alive : n.alive = true
  calls : ∀ t, n.calls t = none
  created : n.created = j.created
  inboundCount : n.inboundCount ≤ n.created
  peers : ∀ id c, j.peers id = some c → n.peers id = some c
  contexts : ∀ c, (j.contexts c).CoveredBy (n.links c) fun cand => (c, .candidate cand) ∈ n.given
  given : j.given ⊆ n.given
  descriptions : ∀ x ∈ n.given, x.2.isDescription = true → x ∈ j.given

/-! ## What a native transport does from call to end -/

/-- libdatachannel takes whatever it is handed. -/
def Acceptance.all : Acceptance := ⟨fun _ _ => true, fun _ _ => true⟩

theorem DcRtcLink.acquire_release (r : DcRtcLink) : r.acquire.release = r := rfl

namespace DcRtcTransport

variable {A : Acceptance} {t : τ} {n : DcRtcTransport τ}

/-- The candidates are handed to the peer connection. -/
def handed (n : DcRtcTransport τ) (l : Nat) (cs : List Candidate) : DcRtcTransport τ :=
  { n with log := (cs.map (DcEvent.candidate l)).reverse ++ n.log }

/-- The description is applied, and the pending candidates are handed over. -/
def negotiated (n : DcRtcTransport τ) (l : Nat) (d : Description) : DcRtcTransport τ :=
  ((n.emit (.described l d)).setLink l (n.links l).takePending).handed l (n.links l).pendingCandidates

theorem flushing_all {l : Nat} {d : Description} (cs : List Candidate)
    (hc : n.calls t = some (.flushing l d cs)) : Returns .all t n ((n.handed l cs).finishLink t l) := by
  induction cs generalizing n with
  | nil =>
    refine .next ?_ (.done ?_)
    · simp [next, hc, linkNext, handed]
    · simp [finishLink, finish, setCall]
  | cons c cs ih =>
    set n₁ := (n.emit (.candidate l c)).setCall t (some (.flushing l d cs)) with hn₁
    have he : n.next t (n.accepted .all t) = some n₁ := by
      simp [next, hc, linkNext, accepted, Acceptance.all, hn₁]
    have hr := ih (n := n₁) (by simp [hn₁, setCall])
    have hf : (n₁.handed l cs).finishLink t l = (n.handed l (c :: cs)).finishLink t l := by
      simp [hn₁, handed, finishLink, finish, setLink, setCall, emit]
    exact .next he (hf ▸ hr)

theorem setRemoteDescription_all {l : Nat} {d : Description}
    (hc : n.calls t = some (.setRemoteDescription l d)) :
    Returns .all t n ((n.negotiated l d).finishLink t l) := by
  set n₁ := (n.emit (.described l d)).setCall t (some (.takePending l d)) with hn₁
  set n₂ := (n₁.setLink l (n₁.links l).takePending).setCall t
    (some (.flushing l d (n₁.links l).pendingCandidates)) with hn₂
  have h₁ : n.next t (n.accepted .all t) = some n₁ := by
    simp [next, hc, linkNext, accepted, Acceptance.all, hn₁]
  have h₂ : n₁.next t (n₁.accepted .all t) = some n₂ := by
    simp [next, hn₁, hn₂, setCall, linkNext]
  have hr := flushing_all (n := n₂) (t := t) (l := l) (d := d) (n₁.links l).pendingCandidates
    (by simp [hn₂, setCall])
  have hf : (n₂.handed l (n₁.links l).pendingCandidates).finishLink t l =
      (n.negotiated l d).finishLink t l := by
    simp [hn₁, hn₂, negotiated, handed, finishLink, finish, setLink, setCall, emit]
  exact .next h₁ (.next h₂ (hf ▸ hr))

theorem onDataChannel_all {l : Nat} {d : Description} (hc : n.calls t = some (.onDataChannel l d)) :
    Returns .all t n (((n.setLink l { n.links l with wired := true }).negotiated l d).finishLink t l) := by
  have he : n.next t (n.accepted .all t) = some ((n.setLink l { n.links l with wired := true }).setCall t
      (some (.setRemoteDescription l d))) := by
    simp only [next, hc]
  have hr := setRemoteDescription_all (n := (n.setLink l { n.links l with wired := true }).setCall t
    (some (.setRemoteDescription l d))) (t := t) (l := l) (d := d) (Function.update_self ..)
  refine .next he ?_
  convert hr using 1
  simp [negotiated, handed, finishLink, finish, setLink, setCall, emit]

/-- A link is made for an offer, which is applied. -/
def accepting (n : DcRtcTransport τ) (src : PeerId) (sdp : String) : DcRtcTransport τ :=
  { n with
    links := update n.links n.created
      { remoteId := src, inbound := true, wired := true, remoteDescSet := true }
    created := n.created + 1
    peers := update n.peers src (some n.created)
    inboundCount := n.inboundCount + 1
    log := .described n.created ⟨sdp, .offer, src⟩ :: n.log }

theorem handleOffer_all {src : PeerId} {sdp : String} (hc : n.calls t = some (.handleOffer src sdp)) :
    Returns .all t n ((n.accepting src sdp).finish t) := by
  have he : n.next t (n.accepted .all t) = some ({ n.store src true with
      inboundCount := n.inboundCount + 1 }.setCall t
        (some (.onDataChannel n.created ⟨sdp, .offer, src⟩))) := by
    simp only [next, hc]
  have hr := onDataChannel_all (n := { n.store src true with inboundCount := n.inboundCount + 1 }.setCall t
    (some (.onDataChannel n.created ⟨sdp, .offer, src⟩))) (t := t) (Function.update_self ..)
  refine .next he ?_
  convert hr using 1
  simp [accepting, negotiated, handed, finishLink, finish, setLink, setCall, emit, store,
    DcRtcLink.takePending, DcRtcLink.release]

/-- An offer, where there is room. -/
theorem offer_all (src : PeerId) {j : Json} {sdp : String} (hc : n.calls t = none)
    (hf : n.inboundCount < n.maxInboundConnections) (hd : j.value "description" = some sdp) :
    Returns .all t (n.begin t (.offer src j)) (n.accepting src sdp) := by
  have hf' : ¬ ((n.begin t (.offer src j)).maxInboundConnections = 0 ∨
      (n.begin t (.offer src j)).inboundCount ≥ (n.begin t (.offer src j)).maxInboundConnections) := by
    show ¬ (n.maxInboundConnections = 0 ∨ n.inboundCount ≥ n.maxInboundConnections)
    omega
  have he : (n.begin t (.offer src j)).next t ((n.begin t (.offer src j)).accepted .all t) =
      some ((n.begin t (.offer src j)).setCall t (some (.handleOffer src sdp))) := by
    simp only [next, begin_calls, hf', if_false, hd]
  have hr := handleOffer_all (n := (n.begin t (.offer src j)).setCall t (some (.handleOffer src sdp)))
    (t := t) (Function.update_self ..)
  refine .next he ?_
  convert hr using 1
  simp [accepting, finish, setCall, begin, ← hc]

/-- An answer, or a candidate, for a link that is looked up. -/
theorem lookup_all {c : Call} {id : PeerId} {k : Nat → Call} {l : Nat} {n' : DcRtcTransport τ}
    (hn : (n.begin t c).next t ((n.begin t c).accepted .all t) = some ((n.begin t c).lookup t id k))
    (hp : n.peers id = some l)
    (hr : Returns .all t (((n.begin t c).setLink l (n.links l).acquire).setCall t (some (k l))) n') :
    Returns .all t (n.begin t c) n' := by
  have hl : (n.begin t c).lookup t id k =
      ((n.begin t c).setLink l (n.links l).acquire).setCall t (some (k l)) := by
    have hp' : (n.begin t c).peers id = some l := hp
    simp only [lookup, hp']
    rfl
  exact .next (hl ▸ hn) hr

theorem answer_all {src : PeerId} {sdp : String} {l : Nat} (hc : n.calls t = none)
    (hp : n.peers n.remoteId = some l) :
    Returns .all t (n.begin t (.answer src sdp)) (n.negotiated l ⟨sdp, .answer, src⟩) := by
  have hn : (n.begin t (.answer src sdp)).next t ((n.begin t (.answer src sdp)).accepted .all t) =
      some ((n.begin t (.answer src sdp)).lookup t n.remoteId fun l => .setRemoteDescription l ⟨sdp, .answer, src⟩) := by
    simp only [next, begin_calls]
    rfl
  refine lookup_all hn hp ?_
  have hr := setRemoteDescription_all (n := ((n.begin t (.answer src sdp)).setLink l
    (n.links l).acquire).setCall t (some (.setRemoteDescription l ⟨sdp, .answer, src⟩))) (t := t)
    (Function.update_self ..)
  convert hr using 1
  simp [negotiated, handed, finishLink, finish, setLink, setCall, emit, begin, DcRtcLink.takePending,
    DcRtcLink.acquire, DcRtcLink.release, ← hc]

/-- A candidate is handed to the peer connection, or buffered. -/
def withCandidate (n : DcRtcTransport τ) (l : Nat) (c : Candidate) : DcRtcTransport τ :=
  if (n.links l).remoteDescSet then n.handed l [c] else n.setLink l ((n.links l).buffer c)

theorem candidate_all {src : PeerId} {c : Candidate} {l : Nat} (hc : n.calls t = none)
    (hp : n.peers src = some l) :
    Returns .all t (n.begin t (.candidate src c)) (n.withCandidate l c) := by
  have hn : (n.begin t (.candidate src c)).next t ((n.begin t (.candidate src c)).accepted .all t) =
      some ((n.begin t (.candidate src c)).lookup t src fun l => .addRemoteCandidate l c) := by
    simp only [next, begin_calls]
  refine lookup_all hn hp ?_
  set n₁ := ((n.begin t (.candidate src c)).setLink l (n.links l).acquire).setCall t
    (some (.addRemoteCandidate l c)) with hn₁
  by_cases hd : (n.links l).remoteDescSet = true
  · have h₁ : n₁.next t (n₁.accepted .all t) = some (n₁.setCall t (some (.addDirect l c))) := by
      simp [next, linkNext, hn₁, setCall, setLink, DcRtcLink.acquire, hd]
    have h₂ : (n₁.setCall t (some (.addDirect l c))).next t
        ((n₁.setCall t (some (.addDirect l c))).accepted .all t) = some (n.withCandidate l c) := by
      simp [next, linkNext, accepted, Acceptance.all, withCandidate, hd, handed, finishLink, finish, setLink, setCall,
        emit, begin, DcRtcLink.acquire_release, hn₁, ← hc]
    exact .next h₁ (.next h₂ (.done (by simpa [withCandidate, hd, handed] using hc)))
  · have h₁ : n₁.next t (n₁.accepted .all t) = some (n.withCandidate l c) := by
      simp [next, linkNext, hn₁, withCandidate, hd, finishLink, finish, setLink, setCall, begin,
        DcRtcLink.acquire, DcRtcLink.release, DcRtcLink.buffer, ← hc]
    exact .next h₁ (.done (by simpa [withCandidate, hd, setLink] using hc))

/-- The offerer's link is made, and the state becomes the signaling's handler. -/
def offering (n : DcRtcTransport τ) : DcRtcTransport τ :=
  { n with
    links := update n.links n.created { remoteId := n.remoteId, inbound := false, wired := true }
    created := n.created + 1
    peers := update n.peers n.remoteId (some n.created)
    handling := true }

theorem openOfferer_all (hc : n.calls t = none) : Returns .all t (n.begin t .openOfferer) n.offering := by
  set n₁ := ((n.begin t .openOfferer).store n.remoteId false).setCall t (some (.onOpen n.created)) with hn₁
  have h₁ : (n.begin t .openOfferer).next t ((n.begin t .openOfferer).accepted .all t) = some n₁ := by
    simp only [next, begin_calls]
    rfl
  have h₂ : n₁.next t (n₁.accepted .all t) = some n.offering := by
    simp [next, hn₁, offering, finishLink, finish, setLink, setCall, begin, store, DcRtcLink.release, ← hc]
  exact .next h₁ (.next h₂ (.done hc))

end DcRtcTransport

/-! ## Steps on both sides -/

theorem JsRtcPeerContext.CoveredBy.mono {r : JsRtcPeerContext} {r' : DcRtcLink} {P Q : Candidate → Prop}
    (h : r.CoveredBy r' P) (hPQ : ∀ cand, P cand → Q cand) : r.CoveredBy r' Q :=
  { h with pending := fun cand hc => (h.pending cand hc).imp_right (hPQ cand) }

/-- One context and its link go on. -/
theorem coveredBy_update {f : Nat → JsRtcPeerContext} {g : Nat → DcRtcLink} {P : Nat → Candidate → Prop}
    (h : ∀ c, (f c).CoveredBy (g c) (P c)) {k : Nat} {r : JsRtcPeerContext} {u : DcRtcLink}
    (hr : r.CoveredBy u (P k)) (c : Nat) : (update f k r c).CoveredBy (update g k u c) (P c) := by
  by_cases hc : c = k
  · subst hc
    rw [Function.update_self, Function.update_self]
    exact hr
  · rw [Function.update_of_ne hc, Function.update_of_ne hc]
    exact h c

theorem peers_update {p q : PeerId → Option Nat} (h : ∀ id c, p id = some c → q id = some c) {id₀ : PeerId}
    {v : Option Nat} (id : PeerId) (c : Nat) (hc : update p id₀ v id = some c) : update q id₀ v id = some c := by
  by_cases hid : id = id₀
  · subst hid
    rwa [Function.update_self] at hc ⊢
  · rw [Function.update_of_ne hid] at hc ⊢
    exact h id c hc

section Both

variable {max : Nat} {j : JsRtcTransport} {n : DcRtcTransport τ}

omit [DecidableEq τ] in
theorem Covers.handleOffer (h : Covers max j n) (src : PeerId) (sdp : String) :
    Covers max (j.handleOffer src sdp) (n.accepting src sdp) := by
  have hg : (n.accepting src sdp).given = (n.created, .description .offer sdp) :: n.given := rfl
  have hg' : (j.handleOffer src sdp).given = (j.created, .description .offer sdp) :: j.given := rfl
  refine { h with
    created := congrArg (· + 1) h.created
    inboundCount := Nat.succ_le_succ h.inboundCount
    peers := fun id c hp => ?_
    contexts := fun c => ?_
    given := ?_
    descriptions := fun x hx ht => ?_ }
  · have hp' := peers_update h.peers id c hp
    rwa [← h.created] at hp'
  · have hc := coveredBy_update h.contexts (k := j.created)
      (r := { remoteId := src, inbound := true, describing := true })
      (u := { remoteId := src, inbound := true, wired := true, remoteDescSet := true })
      ⟨rfl, rfl, fun _ => rfl, fun _ => rfl, fun _ hm => absurd hm List.not_mem_nil⟩ c
    have hl : (n.accepting src sdp).links = update n.links j.created
        { remoteId := src, inbound := true, wired := true, remoteDescSet := true } := h.created ▸ rfl
    rw [hl]
    exact hc.mono fun cand hm => hg ▸ List.mem_cons_of_mem _ hm
  · rw [hg, hg', h.created]
    exact List.cons_subset_cons _ h.given
  · rw [hg, h.created] at hx
    rw [hg']
    exact List.mem_cons.mpr ((List.mem_cons.mp hx).imp_right fun hx => h.descriptions x hx ht)

omit [DecidableEq τ] in
theorem Covers.openOfferer (h : Covers max j n) :
    Covers max { j with joined := true, handling := true }.openOfferer { n with joined := true }.offering := by
  refine { h with
    joined := fun _ => rfl
    handling := fun _ => rfl
    created := congrArg (· + 1) h.created
    inboundCount := Nat.le_succ_of_le h.inboundCount
    peers := fun id c hp => ?_
    contexts := fun c => ?_ }
  · have hp' := peers_update h.peers id c hp
    rwa [← h.created, ← h.remoteId] at hp'
  · have hc := coveredBy_update h.contexts (k := j.created)
      (r := { remoteId := j.remoteId, inbound := false })
      (u := { remoteId := n.remoteId, inbound := false, wired := true })
      ⟨h.remoteId, rfl, fun ht => absurd ht Bool.false_ne_true, fun _ => rfl,
        fun _ hm => absurd hm List.not_mem_nil⟩ c
    have hl : ({ n with joined := true } : DcRtcTransport τ).offering.links = update n.links j.created
        { remoteId := n.remoteId, inbound := false, wired := true } := h.created ▸ rfl
    rw [hl]
    exact hc

omit [DecidableEq τ] in
theorem Covers.setRemoteAnswer (h : Covers max j n) {c : Nat} {d : Description} (hm : (j.contexts c).mapped = true) :
    Covers max (j.setRemoteAnswer c d) (n.negotiated c d) := by
  have hj : j.setRemoteAnswer c d =
      (j.setContext c { j.contexts c with describing := true }).emit (.described c d) := by
    simp only [JsRtcTransport.setRemoteAnswer, hm, if_true]
  have hg : ∀ x, x ∈ (n.negotiated c d).given ↔ (∃ cand ∈ (n.links c).pendingCandidates, x = (c, .candidate cand)) ∨
      x = (c, .description d.type d.sdp) ∨ x ∈ n.given := fun x => by
    simp [DcRtcTransport.given, DcRtcTransport.negotiated, DcRtcTransport.handed, DcRtcTransport.emit,
      DcRtcTransport.setLink, DcEvent.gives, eq_comm]
  rw [hj]
  refine { h with contexts := fun c' => ?_, given := fun x hx => ?_, descriptions := fun x hx ht => ?_ }
  · have hold := h.contexts c
    refine coveredBy_update (r := { j.contexts c with describing := true }) (u := (n.links c).takePending)
      (fun c' => (h.contexts c').mono fun cand hx => (hg _).mpr (.inr (.inr hx)))
      ⟨hold.remoteId, hold.inbound, fun _ => rfl, fun _ => rfl, fun cand hc => .inr ?_⟩ c'
    exact (hold.pending cand hc).elim (fun hp => (hg _).mpr (.inl ⟨cand, hp, rfl⟩))
      fun hp => (hg _).mpr (.inr (.inr hp))
  · rcases List.mem_cons.mp hx with rfl | hx
    · exact (hg _).mpr (.inr (.inl rfl))
    · exact (hg x).mpr (.inr (.inr (h.given hx)))
  · rcases (hg x).mp hx with ⟨cand, -, rfl⟩ | rfl | hx
    · cases ht
    · exact List.mem_cons_self
    · exact List.mem_cons_of_mem _ (h.descriptions x hx ht)

omit [DecidableEq τ] in
theorem Covers.addIceCandidate (h : Covers max j n) {c : Nat} {cand : Candidate}
    (hm : (j.contexts c).mapped = true) : Covers max (j.addIceCandidate c cand) (n.withCandidate c cand) := by
  set r := j.contexts c with hr
  have hold : r.CoveredBy (n.links c) fun cand => (c, .candidate cand) ∈ n.given := h.contexts c
  have hj : j.addIceCandidate c cand = if r.descSet then j.emit (.candidate c cand)
      else j.setContext c { r with pendingCandidates := r.pendingCandidates ++ [cand] } := if_pos hm
  by_cases hd : (n.links c).remoteDescSet = true
  · have hn : n.withCandidate c cand = n.handed c [cand] := if_pos hd
    have hg : (n.handed c [cand]).given = (c, .candidate cand) :: n.given := rfl
    have hmono : ∀ c', (j.contexts c').CoveredBy (n.links c') fun cand' =>
        (c', .candidate cand') ∈ (n.handed c [cand]).given := fun c' =>
      (h.contexts c').mono fun cand' hm => hg ▸ List.mem_cons_of_mem _ hm
    have hdesc : ∀ x ∈ (n.handed c [cand]).given, x.2.isDescription = true → x ∈ j.given := fun x hx ht => by
      rcases List.mem_cons.mp (hg ▸ hx) with rfl | hx
      · cases ht
      · exact h.descriptions x hx ht
    rw [hj, hn]
    split
    · exact { h with
        contexts := hmono
        given := hg ▸ List.cons_subset_cons _ h.given
        descriptions := fun x hx ht => List.mem_cons_of_mem _ (hdesc x hx ht) }
    · have hc := coveredBy_update hmono (k := c)
        (r := { r with pendingCandidates := r.pendingCandidates ++ [cand] })
        (u := n.links c) { hmono c with pending := fun cand' hm' => ?_ }
      · rw [Function.update_eq_self] at hc
        exact { h with
          contexts := hc
          given := fun x hx => hg ▸ List.mem_cons_of_mem _ (h.given hx)
          descriptions := hdesc }
      · rcases List.mem_append.mp hm' with hm' | hm'
        · exact (hmono c).pending cand' hm'
        · rw [List.mem_singleton.mp hm', hg]
          exact .inr List.mem_cons_self
  · have hn : n.withCandidate c cand = n.setLink c ((n.links c).buffer cand) := if_neg hd
    have hset : ¬ r.descSet = true := fun hs => hd (hold.told (by rw [JsRtcPeerContext.told, hs, Bool.true_or]))
    rw [hj, hn, if_neg hset]
    refine { h with contexts := coveredBy_update h.contexts { hold with
      taken := fun hr => absurd hr hd
      pending := fun cand' hm' => ?_ } }
    rcases List.mem_append.mp hm' with hm' | hm'
    · exact (hold.pending cand' hm').imp_left (List.mem_append_left _)
    · exact .inl (List.mem_append_right _ hm')

end Both

/-! ## Steps of the browser alone -/

/-- The context goes on without a message. -/
structure JsRtcPeerContext.Settles (r r' : JsRtcPeerContext) : Prop where
  remoteId : r'.remoteId = r.remoteId
  inbound : r'.inbound = r.inbound
  told : r'.told = true → r.told = true
  pending : r'.pendingCandidates ⊆ r.pendingCandidates

/-- No context is made, and no peer connection is given more than what its context buffers. -/
structure JsQuiet (j j' : JsRtcTransport) : Prop where
  remoteId : j'.remoteId = j.remoteId
  created : j'.created = j.created
  joined : j.joined = true → j'.joined = true
  handling : j'.handling = j.handling
  peers : ∀ id c, j'.peers id = some c → j.peers id = some c
  contexts : ∀ c, (j.contexts c).Settles (j'.contexts c)
  given : ∀ x ∈ j'.given, x ∈ j.given ∨ ∃ c, (j.contexts c).told = true ∧
    ∃ cand ∈ (j.contexts c).pendingCandidates, x = (c, .candidate cand)
  kept : j.given ⊆ j'.given

section Quiet

variable {j j' j'' : JsRtcTransport} {c : Nat}

theorem JsRtcPeerContext.Settles.refl (r : JsRtcPeerContext) : r.Settles r :=
  ⟨rfl, rfl, id, List.Subset.refl _⟩

theorem settles_update {r : JsRtcPeerContext} (hr : (j.contexts c).Settles r) (c' : Nat) :
    (j.contexts c').Settles (update j.contexts c r c') := by
  by_cases hc : c' = c
  · subst hc
    rwa [Function.update_self]
  · rw [Function.update_of_ne hc]
    exact .refl _

theorem JsQuiet.refl (j : JsRtcTransport) : JsQuiet j j :=
  ⟨rfl, rfl, id, rfl, fun _ _ => id, fun _ => .refl _, fun _ => .inl, List.Subset.refl _⟩

theorem JsQuiet.trans (h : JsQuiet j j') (h' : JsQuiet j' j'') : JsQuiet j j'' where
  remoteId := h'.remoteId.trans h.remoteId
  created := h'.created.trans h.created
  joined hj := h'.joined (h.joined hj)
  handling := h'.handling.trans h.handling
  peers id c hp := h.peers id c (h'.peers id c hp)
  contexts c :=
    have hc := h.contexts c
    have hc' := h'.contexts c
    ⟨hc'.remoteId.trans hc.remoteId, hc'.inbound.trans hc.inbound, fun ht => hc.told (hc'.told ht),
      List.Subset.trans hc'.pending hc.pending⟩
  given x hx := by
    rcases h'.given x hx with hx | ⟨c, ht, cand, hm, rfl⟩
    · exact h.given x hx
    · exact .inr ⟨c, (h.contexts c).told ht, cand, (h.contexts c).pending hm, rfl⟩
  kept := List.Subset.trans h.kept h'.kept

theorem JsQuiet.emit {e : JsEvent} (he : e.gives = none) : JsQuiet j (j.emit e) := by
  have hg : (j.emit e).given = j.given := List.filterMap_cons_none he
  exact { JsQuiet.refl j with
    given := fun x hx => .inl (hg ▸ hx)
    kept := hg ▸ List.Subset.refl _ }

theorem JsQuiet.setContext {r : JsRtcPeerContext} (hr : (j.contexts c).Settles r) :
    JsQuiet j (j.setContext c r) :=
  { JsQuiet.refl j with contexts := settles_update hr }

theorem JsQuiet.destroyLink (j : JsRtcTransport) (c : Nat) : JsQuiet j (j.destroyLink c) := by
  simp only [JsRtcTransport.destroyLink]
  split
  · refine { JsQuiet.refl j with
      contexts := settles_update ⟨rfl, rfl, id, List.Subset.refl _⟩
      peers := fun id c' hp => ?_ }
    change update j.peers (j.contexts c).remoteId none id = some c' at hp
    rw [Function.update_apply] at hp
    split at hp
    · cases hp
    · exact hp
  · exact .setContext ⟨rfl, rfl, id, List.Subset.refl _⟩

theorem JsQuiet.onDescSet (hd : (j.contexts c).describing = true) : JsQuiet j (j.onDescSet c) := by
  have ht : (j.contexts c).told = true := by rw [JsRtcPeerContext.told, hd, Bool.or_true]
  refine { JsQuiet.refl j with
    contexts := settles_update ⟨rfl, rfl, fun _ => ht, List.nil_subset _⟩
    given := fun x hx => ?_
    kept := ?_ }
  · rw [JsRtcTransport.given, JsRtcTransport.onDescSet, List.filterMap_append, List.mem_append] at hx
    refine hx.symm.imp_right fun hx => ⟨c, ht, ?_⟩
    simpa [JsEvent.gives, eq_comm] using hx
  · rw [JsRtcTransport.given, JsRtcTransport.given, JsRtcTransport.onDescSet, List.filterMap_append]
    exact List.subset_append_right _ _

/-- A step that is neither a message nor the end of `Join`. -/
theorem JsQuiet.of_step {parse : Parse} {a : JsAction} (he : j.step parse a = some j')
    (hm : ∀ m, a ≠ .onMessage m) (hj : a ≠ .joined none) : JsQuiet j j' := by
  cases a <;> simp only [JsRtcTransport.step] at he <;> split at he <;> cases he <;> rename_i h
  case onMessage m => exact absurd rfl (hm m)
  case joined result =>
    cases result with
    | none => exact absurd rfl hj
    | some e =>
      have hs : JsQuiet { j with joined := true } ({ j with joined := true }.emit (.refused e)) := .emit rfl
      exact { hs with joined := fun _ => rfl }
  case onLeft ec =>
    split
    · exact .emit rfl
    · exact .refl j
  case descSet c => exact .onDescSet h.2
  case onDataChannelOpen c =>
    simp only [JsRtcTransport.onDataChannelOpen]
    split
    · exact .refl j
    · split
      · have hs : JsQuiet j (j.setContext c { j.contexts c with opened := true, linked := true, inOnLink := true }) :=
          .setContext ⟨rfl, rfl, id, List.Subset.refl _⟩
        have hl := hs.trans (.emit (e := .linked c) rfl)
        exact { hl with }
      · exact .setContext ⟨rfl, rfl, id, List.Subset.refl _⟩
  case onLink c keep handler =>
    have hs : JsQuiet j (j.setHandler c keep handler) :=
      { JsQuiet.refl j with contexts := settles_update ⟨rfl, rfl, id, List.Subset.refl _⟩ }
    simp only [JsRtcTransport.onLink]
    split
    · exact hs.trans (.destroyLink _ c)
    · exact hs
  case onDataChannelClose c =>
    have hs : JsQuiet j (j.setContext c { j.contexts c with closedFired := true }) :=
      .setContext ⟨rfl, rfl, id, List.Subset.refl _⟩
    simp only [JsRtcTransport.onClose]
    split
    · split
      · exact hs.trans (.emit rfl)
      · exact hs
    · exact .refl j
  case disconnect c =>
    split
    · exact .refl j
    · exact .setContext ⟨rfl, rfl, id, List.Subset.refl _⟩
  case dropLink c =>
    have hs : JsQuiet j (j.setContext c { j.contexts c with held := (j.contexts c).held - 1 }) :=
      .setContext ⟨rfl, rfl, id, List.Subset.refl _⟩
    simp only [JsRtcTransport.dropLink]
    split
    · exact hs.trans (.destroyLink _ c)
    · exact hs
  case destroy => exact { JsQuiet.refl j with peers := fun id c hp => by cases hp }

omit [DecidableEq τ] in
theorem Covers.quiet {max : Nat} {n : DcRtcTransport τ} (h : Covers max j n) (hq : JsQuiet j j') :
    Covers max j' n := by
  have hpend : ∀ c, (j.contexts c).told = true → ∀ cand ∈ (j.contexts c).pendingCandidates,
      (c, .candidate cand) ∈ n.given := fun c ht cand hm => by
    have hc := h.contexts c
    refine (hc.pending cand hm).resolve_left fun hp => ?_
    rw [hc.taken (hc.told ht)] at hp
    exact List.not_mem_nil hp
  refine { h with
    remoteId := h.remoteId.trans hq.remoteId.symm
    joined := fun hn => hq.joined (h.joined hn)
    handling := fun hj => h.handling (hq.handling ▸ hj)
    created := h.created.trans hq.created.symm
    peers := fun id c hp => h.peers id c (hq.peers id c hp)
    contexts := fun c => ?_
    given := fun x hx => ?_
    descriptions := fun x hx ht => hq.kept (h.descriptions x hx ht) }
  · have hc := h.contexts c
    have hs := hq.contexts c
    exact ⟨hc.remoteId.trans hs.remoteId.symm, hc.inbound.trans hs.inbound.symm, fun ht => hc.told (hs.told ht),
      hc.taken, fun cand hm => hc.pending cand (hs.pending hm)⟩
  · rcases hq.given x hx with hx | ⟨c, ht, cand, hm, rfl⟩
    · exact h.given hx
    · exact hpend c ht cand hm

end Quiet

/-! ## Messages -/

section Messages

variable {max : Nat} {parse : Parse} {j : JsRtcTransport} {n : DcRtcTransport τ} {m : SigMessage} {e : LocalEvent}

/-- `OnMessage` reads back what the callbacks of a link or a context sent. -/
theorem JsRtcTransport.onMessage_payload (hp : parse m.payload = some e.payload) :
    j.onMessage parse m = match e with
      | .description .offer _ => j.onOffer m.src e.payload
      | .description .answer _ => j.onAnswer m.src e.payload
      | .candidate _ => j.onCandidate m.src e.payload := by
  simp only [JsRtcTransport.onMessage, hp, LocalEvent.type_payload]
  cases e with
  | candidate cand => simp only
  | description type sdp => cases type <;> simp only [DescriptionType.typeString]

/-- A native transport that handles the message too, from its call to its end, or has never got
it. -/
theorem Covers.onMessage (h : Covers max j n) (t : τ) (hj : j.handling = true)
    (hp : parse m.payload = some e.payload) (hroom : (j.onMessage parse m).created ≤ max)
    (hsrc : e.isAnswer = true → j.isOfferer = true → m.src = j.remoteId) :
    Covers max (j.onMessage parse m) n ∨ ∃ n₁ n', n.step parse (.onMessage t m) = some n₁ ∧
      DcRtcTransport.Returns .all t n₁ n' ∧ Covers max (j.onMessage parse m) n' := by
  have hstep : n.step parse (.onMessage t m) = some (n.onMessage parse t m) :=
    if_pos ⟨h.handling hj, h.alive, h.calls t⟩
  have hoff : n.isOfferer = j.isOfferer := by rw [DcRtcTransport.isOfferer, h.remoteId, JsRtcTransport.isOfferer]
  have hbegin : (e.isAnswer = true → j.isOfferer = true) → n.onMessage parse t m = n.begin t (e.call m.src) :=
    fun ha => (TX.Rtt.onMessage_payload n t hp).trans (if_neg fun hn => by simp [hoff, ha hn.1] at hn)
  rw [JsRtcTransport.onMessage_payload hp] at hroom ⊢
  cases e with
  | candidate cand =>
    obtain ⟨hcand, hmid⟩ := LocalEvent.candidate_payload cand
    simp only [JsRtcTransport.onCandidate, hcand, hmid]
    split
    · exact .inl h
    · rename_i c hc
      by_cases hm : (j.contexts c).mapped = true
      · refine .inr ⟨_, _, hstep, ?_, h.addIceCandidate hm⟩
        rw [hbegin fun ha => by cases ha]
        exact DcRtcTransport.candidate_all (h.calls t) (h.peers _ c hc)
      · have hj : j.addIceCandidate c cand = j := if_neg hm
        exact .inl (hj.symm ▸ h)
  | description type sdp =>
    have hd := LocalEvent.description_payload type sdp
    cases type with
    | offer =>
      simp only [JsRtcTransport.onOffer, hd] at hroom ⊢
      split
      · exact .inl h
      · rename_i hf
        rw [if_neg hf] at hroom
        have hlt : n.inboundCount < n.maxInboundConnections := by
          have h₁ := h.inboundCount
          have h₂ := h.created
          have h₃ : j.created + 1 ≤ max := hroom
          rw [h.max]
          omega
        refine .inr ⟨_, _, hstep, ?_, h.handleOffer m.src sdp⟩
        rw [hbegin fun ha => by cases ha]
        exact DcRtcTransport.offer_all m.src (h.calls t) hlt hd
    | answer =>
      simp only [JsRtcTransport.onAnswer, hd]
      split
      · rename_i ho
        split
        · exact .inl h
        · rename_i c hc
          by_cases hm : (j.contexts c).mapped = true
          · refine .inr ⟨_, _, hstep, ?_, h.setRemoteAnswer hm⟩
            rw [hbegin fun _ => ho]
            refine DcRtcTransport.answer_all (h.calls t) ?_
            rw [h.remoteId, ← hsrc rfl ho]
            exact h.peers _ c hc
          · have hj : j.setRemoteAnswer c ⟨sdp, .answer, m.src⟩ = j := if_neg hm
            exact .inl (hj.symm ▸ h)
      · exact .inl h

end Messages

end

end TX.Rtt
