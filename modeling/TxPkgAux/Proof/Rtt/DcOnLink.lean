import TxPkgAux.Proof.Rtt.DcStep

/-!
# `DcRtcTransport`: `OnLink` of a client

A client makes one link, and its acceptor is to hear of it once. `OnLink` is called
from four places: the failed join, the open channel, the failed connection and the loss
of signaling. `LinkOnce` is the condition that the last two only happen before the
channel opened, and `client_onLink_once` says that then `OnLink` is called at most
once; `client_onLink_failed` is a connection that fails after its channel opened.
-/

namespace TX.Rtt

open Function (update)

variable {τ : Type} [DecidableEq τ]

/-- A call of `OnLink`. -/
def DcEvent.isOnLink : DcEvent → Bool
  | .linked _ | .refused _ => true
  | _ => false

/-- The call handles an offer. -/
def Call.offers : Call → Bool
  | .offer _ _ | .handleOffer _ _ | .onDataChannel _ _ => true
  | _ => false

/-- The calls of `OnLink` so far. -/
def DcRtcTransport.onLinks (s : DcRtcTransport τ) : Nat := s.log.countP DcEvent.isOnLink

/-- No offer arrives. -/
def NoOffers (parse : Parse) : DcAction τ → Prop
  | .onMessage _ m => ∀ j ∈ parse m.payload, j.value "type" ≠ some "offer"
  | _ => True

/-- Signaling is lost once at most, before the channel opened, and the channel does not
open after it; when `onFailed` comes to the acceptor, it is gone. -/
def LinkOnce (s : DcRtcTransport τ) : DcAction τ → Prop
  | .onLeft ec => ec = true → (∀ l < s.created, (s.links l).attached = false) ∧
    .refused .transportClosed ∉ s.log
  | .channel _ l => s.owned l = true → s.acceptorAlive = true → s.alive = true →
    .refused .transportClosed ∉ s.log
  | .changeNext l => (s.links l).change = some .refusing → s.acceptorAlive = false
  | _ => True

/-- `OnLink` is yet to be called: the client has not joined, or is in `OpenOfferer`, or
its channel is yet to open, or its callback is at `OnLink`. -/
def DcRtcTransport.Unlinked (s : DcRtcTransport τ) : Prop :=
  s.joined = false ∨ (∃ t, s.calls t = some .openOfferer) ∨
    (∃ l < s.created, (s.links l).attached = false ∧ .refused .transportClosed ∉ s.log) ∨
    ∃ t l, s.calls t = some (.onLink l)

/-- A client makes one link, after it joined, and its channel opens once. -/
structure ClientInv (s : DcRtcTransport τ) : Prop where
  offerer : s.isOfferer = true
  calls : ∀ t c, s.calls t = some c → c.offers = false
  unjoined : s.joined = false → s.created = 0 ∧ s.handling = false ∧ ∀ t, s.calls t ≠ some .openOfferer
  opening : ∀ t, s.calls t = some .openOfferer → s.created = 0 ∧ s.handling = false ∧
    ∀ t', s.calls t' = some .openOfferer → t' = t
  onOpen : ∀ t l, s.calls t = some (.onOpen l) → 0 < s.created
  handling : s.handling = true → 0 < s.created
  created : s.created ≤ 1
  outbound : ∀ l < s.created, (s.links l).inbound = false ∧
    ((s.links l).attached = true → (s.links l).opened = true)
  linking : ∀ t l, s.calls t = some (.onLink l) → l < s.created ∧ (s.links l).attached = true ∧
    ∀ t' l', s.calls t' = some (.onLink l') → t' = t

/-! ## The steps of a client -/

/-- The call leads to `OnLink`, or handles an offer. -/
def Call.leads : Call → Bool
  | .openOfferer | .onOpen _ | .onLink _ => true
  | c => c.offers

/-- What the steps on a link leave as it is. -/
structure DcRtcLink.Similar (r r' : DcRtcLink) : Prop where
  inbound : r'.inbound = r.inbound
  attached : r'.attached = r.attached
  opened : r.opened = true → r'.opened = true

/-- A step that is of no concern to the calls of `OnLink`. -/
structure Aside (s s' : DcRtcTransport τ) : Prop where
  remoteId : s'.remoteId = s.remoteId
  joined : s'.joined = s.joined
  created : s'.created = s.created
  handling : s'.handling = s.handling
  calls : ∀ t c, s'.calls t = some c → c.leads = true → s.calls t = some c
  links : ∀ l, (s.links l).Similar (s'.links l)
  log : .refused .transportClosed ∈ s.log → .refused .transportClosed ∈ s'.log
  onLinks : s'.onLinks = s.onLinks

/-- The steps of a client to which no offer arrives. -/
inductive ClientStep (s : DcRtcTransport τ) : DcRtcTransport τ → Prop where
  | aside {s' : DcRtcTransport τ} (h : Aside s s') : ClientStep s s'
  | joinFailed (e : Error) (hj : s.joined = false) :
    ClientStep s { s with joined := true, log := .refused e :: s.log }
  | joined (t : τ) (hj : s.joined = false) (hc : s.calls t = none) :
    ClientStep s { s with
      joined := true
      calls := update s.calls t (some .openOfferer)
      inUse := s.inUse + 1 }
  | openOfferer (t : τ) (hc : s.calls t = some .openOfferer) :
    ClientStep s { s with
      links := update s.links s.created { remoteId := s.remoteId, inbound := false, refs := 1 }
      created := s.created + 1
      peers := update s.peers s.remoteId (some s.created)
      calls := update s.calls t (some (.onOpen s.created)) }
  | onOpen (t : τ) {l : Nat} (hc : s.calls t = some (.onOpen l)) :
    ClientStep s { s with
      links := update s.links l { s.links l with wired := true, refs := (s.links l).refs - 1 }
      calls := update s.calls t none
      inUse := s.inUse - 1
      handling := true }
  | left (hh : s.handling = true) (ha : ∀ l < s.created, (s.links l).attached = false)
      (hn : .refused .transportClosed ∉ s.log) :
    ClientStep s { s with log := .refused .transportClosed :: s.log }
  | channel (t : τ) (l : Nat) (hl : l < s.created) (hc : s.calls t = none)
      (ho : (s.links l).opened = false) (hn : .refused .transportClosed ∉ s.log) :
    ClientStep s { s with
      links := update s.links l { s.links l with
        attached := true, opened := true, refs := (s.links l).refs + 1 }
      calls := update s.calls t (some (.onLink l))
      inUse := if (s.links l).inbound then s.inUse else s.inUse + 1 }
  | onLink (t : τ) {l : Nat} (keep : Bool) (h : LinkHandler) (hc : s.calls t = some (.onLink l)) :
    ClientStep s { s with
      links := update s.links l { s.links l with
        held := if keep then (s.links l).held + 1 else (s.links l).held }
      calls := update s.calls t (some (.setHandler l h))
      log := .linked l :: s.log }

section Step

variable {parse : Parse} {s s' : DcRtcTransport τ} {a : DcAction τ}

theorem DcRtcLink.Similar.refl (r : DcRtcLink) : r.Similar r := ⟨rfl, rfl, id⟩

omit [DecidableEq τ] in
theorem similar_update {l : Nat} {r : DcRtcLink} (h : (s.links l).Similar r) (l' : Nat) :
    (s.links l').Similar (update s.links l r l') := by
  by_cases hl : l' = l
  · subst hl
    simpa using h
  · simpa [hl] using DcRtcLink.Similar.refl (s.links l')

theorem leads_update {t : τ} {c : Option Call} (h : ∀ c' ∈ c, c'.leads = false) (t' : τ) (c' : Call)
    (hc : update s.calls t c t' = some c') (hl : c'.leads = true) : s.calls t' = some c' := by
  by_cases ht : t' = t
  · subst ht
    simp [h c' (by simpa using hc)] at hl
  · simpa [ht] using hc

theorem DcStep.clientStep (h : DcStep parse s a s') (hi : ClientInv s) (hn : NoOffers parse a)
    (ha : LinkOnce s a) : ClientStep s s' := by
  have hoff : ∀ {t c}, s.calls t = some c → c.offers = true → False :=
    fun hc ho => by simp [hi.calls _ _ hc] at ho
  cases h
  case joinFailed t e hj => exact .joinFailed e hj
  case joinAnswerer t ho => simp [hi.offerer] at ho
  case joinOfferer t hj hc ho => exact .joined t hj hc
  case offer t m j hc hp ht => exact absurd ht (hn j hp)
  case left hh => exact .left hh (ha rfl).1 (ha rfl).2
  case openOfferer t b hc => exact .openOfferer t hc
  case onOpen t b l hc => exact .onOpen t hc
  case channel t l hl hc hr ho hacc hs =>
    have hin := (hi.outbound l hl).1
    simp only [hin, Bool.false_eq_true, false_or] at hr hs
    exact .channel t l hl hc hr (ha ho hacc hs)
  case onLink t l keep lh hc => exact .onLink t keep lh hc
  case offerRejected hc _ | offerThrew hc _ | offerPassed hc _ _ | handleOffer hc | onDataChannel hc =>
    exact (hoff hc rfl).elim
  case channelLost t l hl =>
    exact .aside ⟨rfl, rfl, rfl, rfl, fun _ _ h _ => h, similar_update ⟨rfl, rfl, fun _ => rfl⟩, id, rfl⟩
  case addDirect t accepted l c hc =>
    refine .aside ⟨rfl, rfl, rfl, rfl, leads_update (by simp), similar_update ⟨rfl, rfl, id⟩,
      List.mem_cons_of_mem _, ?_⟩
    cases accepted <;> rfl
  case refused l hc =>
    simp only [ha hc, Bool.false_eq_true, if_false]
    exact .aside ⟨rfl, rfl, rfl, rfl, fun _ _ h _ => h, similar_update ⟨rfl, rfl, id⟩, id, rfl⟩
  case notified l hc ho hf =>
    split
    · exact .aside ⟨rfl, rfl, rfl, rfl, fun _ _ h _ => h, similar_update ⟨rfl, rfl, id⟩,
        List.mem_cons_of_mem _, rfl⟩
    · exact .aside ⟨rfl, rfl, rfl, rfl, fun _ _ h _ => h, similar_update ⟨rfl, rfl, id⟩, id, rfl⟩
  all_goals
    refine .aside ⟨rfl, rfl, rfl, rfl, ?_, ?_, ?_, rfl⟩
    · first | exact fun _ _ h _ => h | exact leads_update (by simp [Call.leads, Call.offers])
    · first | exact fun _ => .refl _ | exact similar_update ⟨rfl, rfl, id⟩
    · first | exact id | exact List.mem_cons_of_mem _

omit [DecidableEq τ] in
theorem ClientInv.aside (hi : ClientInv s) (h : Aside s s') : ClientInv s' where
  offerer := by simpa [DcRtcTransport.isOfferer, h.remoteId] using hi.offerer
  calls t c hc := by
    by_contra ho
    have hl : c.leads = true := by cases c <;> simp_all [Call.leads]
    exact ho (hi.calls t c (h.calls t c hc hl))
  unjoined hj := by
    obtain ⟨hc, hh, ho⟩ := hi.unjoined (h.joined ▸ hj)
    exact ⟨h.created ▸ hc, h.handling ▸ hh, fun t ht => ho t (h.calls t _ ht rfl)⟩
  opening t ht := by
    obtain ⟨hc, hh, ho⟩ := hi.opening t (h.calls t _ ht rfl)
    exact ⟨h.created ▸ hc, h.handling ▸ hh, fun t' ht' => ho t' (h.calls t' _ ht' rfl)⟩
  onOpen t l ht := h.created ▸ hi.onOpen t l (h.calls t _ ht rfl)
  handling hh := h.created ▸ hi.handling (h.handling ▸ hh)
  created := h.created ▸ hi.created
  outbound l hl := by
    obtain ⟨hin, hop⟩ := hi.outbound l (h.created ▸ hl)
    refine ⟨(h.links l).inbound.trans hin, fun ha => (h.links l).opened (hop ?_)⟩
    rw [← ha, (h.links l).attached]
  linking t l ht := by
    obtain ⟨hl, ha, ho⟩ := hi.linking t l (h.calls t _ ht rfl)
    exact ⟨h.created ▸ hl, (h.links l).attached.trans ha, fun t' l' ht' => ho t' l' (h.calls t' _ ht' rfl)⟩

theorem calls_update {t t' : τ} {o : Option Call} {c : Call} (h : update s.calls t o t' = some c) :
    t' = t ∧ o = some c ∨ t' ≠ t ∧ s.calls t' = some c := by
  by_cases ht : t' = t
  · subst ht
    exact .inl ⟨rfl, by simpa using h⟩
  · exact .inr ⟨ht, by simpa [ht] using h⟩

/-- The call is not the one that changed. -/
theorem calls_other {t t' : τ} {o : Option Call} {c : Call} (h : update s.calls t o t' = some c)
    (ho : o ≠ some c) : t' ≠ t ∧ s.calls t' = some c :=
  (calls_update h).resolve_left fun h => ho h.2

omit [DecidableEq τ] in
theorem ClientInv.outbound_update (hi : ClientInv s) {l : Nat} {r : DcRtcLink} (h : (s.links l).Similar r)
    (k : Nat) (hk : k < s.created) : (update s.links l r k).inbound = false ∧
      ((update s.links l r k).attached = true → (update s.links l r k).opened = true) := by
  have hs := similar_update h k
  obtain ⟨hin, hop⟩ := hi.outbound k hk
  exact ⟨hs.inbound.trans hin, fun ha => hs.opened (hop (hs.attached ▸ ha))⟩

theorem ClientInv.joined (hi : ClientInv s) {t : τ} (hj : s.joined = false) : ClientInv { s with
    joined := true
    calls := update s.calls t (some .openOfferer)
    inUse := s.inUse + 1 } where
  offerer := hi.offerer
  calls t' c h := by
    rcases calls_update h with ⟨-, he⟩ | ⟨-, h⟩
    · cases he
      rfl
    · exact hi.calls t' c h
  unjoined h := Bool.noConfusion h
  opening t' h := by
    obtain ⟨hc, hh, hno⟩ := hi.unjoined hj
    have hone : ∀ t', update s.calls t (some .openOfferer) t' = some .openOfferer → t' = t := fun t' h => by
      rcases calls_update h with ⟨ht, -⟩ | ⟨-, h⟩
      · exact ht
      · exact absurd h (hno t')
    exact ⟨hc, hh, fun t'' h' => (hone t'' h').trans (hone t' h).symm⟩
  onOpen t' l h := hi.onOpen t' l (calls_other h nofun).2
  handling := hi.handling
  created := hi.created
  outbound := hi.outbound
  linking t' l h := by
    obtain ⟨hl, ha, hone⟩ := hi.linking t' l (calls_other h nofun).2
    exact ⟨hl, ha, fun t'' l' h' => hone t'' l' (calls_other h' nofun).2⟩

theorem ClientInv.openOfferer (hi : ClientInv s) {t : τ} (hc : s.calls t = some .openOfferer) :
    ClientInv { s with
      links := update s.links s.created { remoteId := s.remoteId, inbound := false, refs := 1 }
      created := s.created + 1
      peers := update s.peers s.remoteId (some s.created)
      calls := update s.calls t (some (.onOpen s.created)) } := by
  obtain ⟨hc0, -, hone⟩ := hi.opening t hc
  exact {
    offerer := hi.offerer
    calls := fun t' c h => by
      rcases calls_update h with ⟨-, he⟩ | ⟨-, h⟩
      · cases he
        rfl
      · exact hi.calls t' c h
    unjoined := fun hj => absurd hc ((hi.unjoined hj).2.2 t)
    opening := fun t' h => by
      obtain ⟨ht, h⟩ := calls_other h nofun
      exact absurd (hone t' h) ht
    onOpen := fun _ _ _ => Nat.succ_pos _
    handling := fun _ => Nat.succ_pos _
    created := by simp [hc0]
    outbound := fun l hl => by
      obtain rfl : l = s.created := by
        have : l < s.created + 1 := hl
        omega
      simp
    linking := fun t' l h => by
      have := (hi.linking t' l (calls_other h nofun).2).1
      omega }

theorem ClientInv.onOpen_ends (hi : ClientInv s) {t : τ} {l : Nat} (hc : s.calls t = some (.onOpen l)) :
    ClientInv { s with
      links := update s.links l { s.links l with wired := true, refs := (s.links l).refs - 1 }
      calls := update s.calls t none
      inUse := s.inUse - 1
      handling := true } where
  offerer := hi.offerer
  calls t' c h := hi.calls t' c (calls_other h nofun).2
  unjoined hj := by
    have := hi.onOpen t l hc
    have := (hi.unjoined hj).1
    omega
  opening t' h := by
    have := hi.onOpen t l hc
    have := (hi.opening t' (calls_other h nofun).2).1
    omega
  onOpen t' l' h := hi.onOpen t' l' (calls_other h nofun).2
  handling _ := hi.onOpen t l hc
  created := hi.created
  outbound := hi.outbound_update ⟨rfl, rfl, id⟩
  linking t' l' h := by
    obtain ⟨hl, ha, hone⟩ := hi.linking t' l' (calls_other h nofun).2
    refine ⟨hl, (DcRtcLink.Similar.attached (similar_update ?_ l')).trans ha,
      fun t'' l'' h' => hone t'' l'' (calls_other h' nofun).2⟩
    exact ⟨rfl, rfl, id⟩

theorem ClientInv.channel (hi : ClientInv s) {t : τ} {l : Nat} (hl : l < s.created)
    (ho : (s.links l).opened = false) : ClientInv { s with
      links := update s.links l { s.links l with
        attached := true, opened := true, refs := (s.links l).refs + 1 }
      calls := update s.calls t (some (.onLink l))
      inUse := if (s.links l).inbound then s.inUse else s.inUse + 1 } := by
  have h1 := hi.created
  -- A call at `OnLink` would be for this link, whose channel is not open.
  have hno : ∀ t' l', s.calls t' ≠ some (.onLink l') := fun t' l' h => by
    obtain ⟨hl', ha, -⟩ := hi.linking t' l' h
    obtain rfl : l' = l := by omega
    simp [(hi.outbound l' hl).2 ha] at ho
  have hone : ∀ {t' l'}, update s.calls t (some (.onLink l)) t' = some (.onLink l') → t' = t ∧ l' = l :=
    fun {t' l'} h => by
      rcases calls_update h with ⟨ht, he⟩ | ⟨-, h⟩
      · cases he
        exact ⟨ht, rfl⟩
      · exact absurd h (hno t' l')
  exact {
    offerer := hi.offerer
    calls := fun t' c h => by
      rcases calls_update h with ⟨-, he⟩ | ⟨-, h⟩
      · cases he
        rfl
      · exact hi.calls t' c h
    unjoined := fun hj => by
      have := (hi.unjoined hj).1
      omega
    opening := fun t' h => by
      have := (hi.opening t' (calls_other h nofun).2).1
      omega
    onOpen := fun t' l' h => hi.onOpen t' l' (calls_other h nofun).2
    handling := hi.handling
    created := h1
    outbound := fun k hk => by
      by_cases hkl : k = l
      · subst hkl
        simpa using (hi.outbound k hl).1
      · simpa [hkl] using hi.outbound k hk
    linking := fun t' l' h => by
      obtain ⟨rfl, rfl⟩ := hone h
      exact ⟨hl, by simp, fun t'' l'' h' => (hone h').1⟩ }

theorem ClientInv.onLink (hi : ClientInv s) {t : τ} {l : Nat} (keep : Bool) (lh : LinkHandler)
    (hc : s.calls t = some (.onLink l)) : ClientInv { s with
      links := update s.links l { s.links l with
        held := if keep then (s.links l).held + 1 else (s.links l).held }
      calls := update s.calls t (some (.setHandler l lh))
      log := .linked l :: s.log } where
  offerer := hi.offerer
  calls t' c h := by
    rcases calls_update h with ⟨-, he⟩ | ⟨-, h⟩
    · cases he
      rfl
    · exact hi.calls t' c h
  unjoined hj := by
    have := (hi.unjoined hj).1
    have := (hi.linking t l hc).1
    omega
  opening t' h := by
    have := (hi.opening t' (calls_other h nofun).2).1
    have := (hi.linking t l hc).1
    omega
  onOpen t' l' h := hi.onOpen t' l' (calls_other h nofun).2
  handling := hi.handling
  created := hi.created
  outbound := hi.outbound_update ⟨rfl, rfl, id⟩
  linking t' l' h := by
    obtain ⟨ht, h⟩ := calls_other h nofun
    exact absurd ((hi.linking t l hc).2.2 t' l' h) ht

theorem ClientStep.clientInv (h : ClientStep s s') (hi : ClientInv s) : ClientInv s' := by
  cases h with
  | aside h => exact hi.aside h
  | joinFailed e hj =>
    exact ⟨hi.offerer, hi.calls, fun h => Bool.noConfusion h, hi.opening, hi.onOpen, hi.handling, hi.created,
      hi.outbound, hi.linking⟩
  | left hh ha hn =>
    exact ⟨hi.offerer, hi.calls, hi.unjoined, hi.opening, hi.onOpen, hi.handling, hi.created, hi.outbound,
      hi.linking⟩
  | joined t hj hc => exact hi.joined hj
  | openOfferer t hc => exact hi.openOfferer hc
  | onOpen t hc => exact hi.onOpen_ends hc
  | channel t l hl hc ho hn => exact hi.channel hl ho
  | onLink t keep lh hc => exact hi.onLink keep lh hc

/-- `OnLink` is not to be called again once it was. -/
theorem ClientStep.unlinked (h : ClientStep s s') (hi : ClientInv s) (hu : s'.Unlinked) :
    s.Unlinked := by
  cases h with
  | aside h =>
    rcases hu with hj | ⟨t, ht⟩ | ⟨l, hl, ha, hn⟩ | ⟨t, l, ht⟩
    · exact .inl (h.joined ▸ hj)
    · exact .inr (.inl ⟨t, h.calls t _ ht rfl⟩)
    · exact .inr (.inr (.inl ⟨l, h.created ▸ hl, (h.links l).attached ▸ ha, fun hm => hn (h.log hm)⟩))
    · exact .inr (.inr (.inr ⟨t, l, h.calls t _ ht rfl⟩))
  | joinFailed e hj | joined t hj hc => exact .inl hj
  | openOfferer t hc => exact .inr (.inl ⟨t, hc⟩)
  | onLink t keep lh hc => exact .inr (.inr (.inr ⟨t, _, hc⟩))
  | left hh ha hn => exact .inr (.inr (.inl ⟨0, hi.handling hh, ha 0 (hi.handling hh), hn⟩))
  | channel t l hl hc ho hn =>
    -- the channel of the link opens once
    have ha : (s.links l).attached = false := by
      by_contra ha
      simp [(hi.outbound l hl).2 (by simpa using ha)] at ho
    exact .inr (.inr (.inl ⟨l, hl, ha, hn⟩))
  | onOpen t hc =>
    unfold DcRtcTransport.Unlinked at *
    grind -linarith -order [Function.update_apply]

/-- A step calls `OnLink` when it is yet to be called, and then it no longer is, or
leaves the number of calls as it is. -/
theorem ClientStep.onLinks (h : ClientStep s s') (hi : ClientInv s) :
    s'.onLinks = s.onLinks ∨ s'.onLinks = s.onLinks + 1 ∧ s.Unlinked ∧ ¬ s'.Unlinked := by
  cases h with
  | aside h => exact .inl h.onLinks
  | joined | openOfferer | onOpen | channel => exact .inl rfl
  | joinFailed e hj =>
    obtain ⟨hc, -, hno⟩ := hi.unjoined hj
    refine .inr ⟨List.countP_cons_of_pos rfl, .inl hj, ?_⟩
    rintro (h | ⟨t', h⟩ | ⟨l, hl, -⟩ | ⟨t', l, h⟩)
    · cases h
    · exact hno t' h
    · exact absurd (show l < s.created from hl) (by omega)
    · exact absurd (hi.linking t' l h).1 (by omega)
  | left hh hat hlog =>
    have hc := hi.handling hh
    refine .inr ⟨List.countP_cons_of_pos rfl, .inr (.inr (.inl ⟨0, hc, hat 0 hc, hlog⟩)), ?_⟩
    rintro (h | ⟨t, h⟩ | ⟨l, -, -, hm⟩ | ⟨t, l, h⟩)
    · exact absurd (hi.unjoined h).1 (by omega)
    · exact absurd (hi.opening t h).1 (by omega)
    · exact hm (by simp)
    · obtain ⟨hl, hatt, -⟩ := hi.linking t l h
      simp [hat l hl] at hatt
  | @onLink t l keep lh hc =>
    obtain ⟨hl, hatt, hone⟩ := hi.linking t l hc
    refine .inr ⟨List.countP_cons_of_pos rfl, .inr (.inr (.inr ⟨t, l, hc⟩)), ?_⟩
    have hop := hi.opening
    have h1 := hi.created
    rintro (h | ⟨t', h⟩ | ⟨l', hl', hat', -⟩ | ⟨t', l', h⟩)
    · exact absurd (hi.unjoined h).1 (by omega)
    · grind -linarith -order [Function.update_apply]
    · grind -linarith -order [Function.update_apply]
    · grind -linarith -order [Function.update_apply]

end Step

theorem ClientInv.init (parse : Parse) {remoteId : PeerId} (hr : remoteId.value ≠ "") (max : Nat) :
    ClientInv (DcRtcTransport.lts τ parse remoteId max).init := by
  constructor <;> simp [DcRtcTransport.lts, DcRtcTransport.isOfferer, hr]

/-- In a run of a client in which no offer arrives, and signaling and the connection are
lost only before the channel opened, `OnLink` is called at most once. -/
theorem client_onLink_once {parse : Parse} {remoteId : PeerId} (hr : remoteId.value ≠ "") {max : Nat}
    {s : DcRtcTransport τ} (h : (DcRtcTransport.lts τ parse remoteId max).Reach
      (fun s a => NoOffers parse a ∧ LinkOnce s a) s) : s.onLinks ≤ 1 := by
  have hI : ClientInv s ∧ (s.Unlinked → s.onLinks = 0) ∧ s.onLinks ≤ 1 := by
    refine h.invariant (I := fun s => ClientInv s ∧ (s.Unlinked → s.onLinks = 0) ∧ s.onLinks ≤ 1)
      ⟨.init parse hr max, fun _ => rfl, Nat.zero_le 1⟩ fun {s s' a} hI hok he => ?_
    obtain ⟨hi, h0, h1⟩ := hI
    have hstep := (DcStep.of_step he).clientStep hi hok.1 hok.2
    refine ⟨hstep.clientInv hi, fun hu => ?_, ?_⟩
    · rcases hstep.onLinks hi with hn | ⟨-, -, hn⟩
      · rw [hn, h0 (hstep.unlinked hi hu)]
      · exact absurd hu hn
    · rcases hstep.onLinks hi with hn | ⟨hn, hu, -⟩
      · omega
      · have := h0 hu
        omega
  exact hI.2.2

instance (parse : Parse) (a : DcAction τ) : Decidable (NoOffers parse a) :=
  match a with
  | .onMessage _ m => inferInstanceAs (Decidable (∀ j ∈ parse m.payload, j.value "type" ≠ some "offer"))
  | .joined _ _ | .onLeft _ | .next _ _ | .channel _ _ | .onLink _ _ _ | .stateChange _ _
  | .changeNext _ | .disconnect _ | .dropLink _ | .dropAcceptor | .destroy => .isTrue trivial

instance (s : DcRtcTransport τ) (a : DcAction τ) : Decidable (LinkOnce s a) :=
  match a with
  | .onLeft ec => inferInstanceAs (Decidable (ec = true →
      (∀ l < s.created, (s.links l).attached = false) ∧ .refused .transportClosed ∉ s.log))
  | .channel _ l => inferInstanceAs (Decidable (s.owned l = true → s.acceptorAlive = true →
      s.alive = true → .refused .transportClosed ∉ s.log))
  | .changeNext l => inferInstanceAs (Decidable ((s.links l).change = some .refusing →
      s.acceptorAlive = false))
  | .joined _ _ | .onMessage _ _ | .next _ _ | .onLink _ _ _ | .stateChange _ _
  | .disconnect _ | .dropLink _ | .dropAcceptor | .destroy => .isTrue trivial

/-- The channel opens, and the connection closes. -/
theorem client_onLink_once_closed : ∃ s, (DcRtcTransport.offerer "b" 1).Reach
    (fun s a => NoOffers DcRtcTransport.sampleParse a ∧ LinkOnce s a) s ∧
    s.log = [.onDisconnected 0, .linked 0] ∧ s.onLinks ≤ 1 := by
  obtain ⟨s, hs, hq⟩ := Lts.Reach.of_run (DcRtcTransport.offerer "b" 1)
    (fun s a => NoOffers DcRtcTransport.sampleParse a ∧ LinkOnce s a)
    (.joined () none :: .next () true :: .next () true :: (DcRtcTransport.opening 0 true ++
      DcRtcTransport.reporting 0 .closed 3))
    (fun s => s.log = [.onDisconnected 0, .linked 0]) (by decide +kernel)
  exact ⟨s, hs, of_decide_eq_true hq, client_onLink_once (by decide) hs⟩

/-- The channel opens, and the connection fails: `OnLink` is called with the link, and
then with an error. -/
theorem client_onLink_failed : ∃ s, (DcRtcTransport.offerer "b" 1).Reach
    (fun _ a => NoOffers DcRtcTransport.sampleParse a) s ∧
    s.log = [.refused .unknown, .linked 0] ∧ ¬ s.onLinks ≤ 1 := by
  obtain ⟨s, hs, hq⟩ := Lts.Reach.of_run (DcRtcTransport.offerer "b" 1)
    (fun _ a => NoOffers DcRtcTransport.sampleParse a)
    (.joined () none :: .next () true :: .next () true :: (DcRtcTransport.opening 0 true ++
      DcRtcTransport.reporting 0 .failed 2))
    (fun s => s.log = [.refused .unknown, .linked 0] ∧ ¬ s.onLinks ≤ 1) (by decide +kernel)
  exact ⟨s, hs, of_decide_eq_true hq⟩

end TX.Rtt
