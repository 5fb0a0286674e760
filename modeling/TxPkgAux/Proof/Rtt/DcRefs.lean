import TxPkgAux.Framework.Holders
import TxPkgAux.Proof.Rtt.DcAnswers

/-!
# `DcRtcTransport`: references to links

A call that refers to a link holds a `shared_ptr` to it, and so does its state-change callback
inside `onDisconnected`: no more of them do than `refs` counts (`RefInv`). So a link that is
gone stays gone (`DcStep.gone_stays`), and no step of a call finds its link gone.

The handler of a link is set by the call that its data channel opened in, and by no other
(`DcStep.linking`).
-/

namespace TX.Rtt

open Function (update)

variable {τ : Type}

/-- The link that the call has a reference to. -/
def Call.holds : Call → Option Nat
  | .onDataChannel l _ | .onOpen l | .setRemoteDescription l _ | .takePending l _ | .flushing l _ _
  | .addRemoteCandidate l _ | .addDirect l _ | .onLink l | .setHandler l _ => some l
  | .offer _ _ | .handleOffer _ _ | .openOfferer | .answer _ _ | .candidate _ _ => none

/-- The link whose handler the call is to set. -/
def Call.links : Call → Option Nat
  | .onLink l | .setHandler l _ => some l
  | _ => none

namespace DcRtcTransport

/-- A call has a reference to the link, or its state-change callback (`none`) has. -/
def Holds (s : DcRtcTransport τ) (l : Nat) : Option τ → Prop
  | none => (s.links l).change = some .inHandler
  | some t => (s.calls t).bind Call.holds = some l

/-- No more hold the link than are counted. -/
def Counts (s : DcRtcTransport τ) (l : Nat) : Prop := Counted (s.Holds l) (s.links l).refs

theorem owned_eq_false {s : DcRtcTransport τ} {l : Nat} : s.owned l = false ↔
    s.peers (s.links l).remoteId ≠ some l ∧ (s.links l).held = 0 ∧ (s.links l).refs = 0 := by
  simp [owned]

end DcRtcTransport

structure RefInv (s : DcRtcTransport τ) : Prop where
  base : DcInv s
  counted : ∀ l, s.Counts l
  created : ∀ t l, (s.calls t).bind Call.holds = some l → l < s.created

variable [DecidableEq τ] {parse : Parse} {s s' : DcRtcTransport τ} {a : DcAction τ} {t : τ} {l k : Nat}
  {o : Option Call} {r : DcRtcLink}

/-! ## The references of a call -/

omit [DecidableEq τ] in
theorem RefInv.owned (hi : RefInv s) (h : (s.calls t).bind Call.holds = some l) : s.owned l = true := by
  have hpos := (hi.counted l).pos (x := some t) h
  by_contra hn
  have := (DcRtcTransport.owned_eq_false.mp (by simpa using hn)).2.2
  omega

theorem holds_other (hc : s'.calls = update s.calls t o)
    (hl : (s'.links l).change = some .inHandler → (s.links l).change = some .inHandler) :
    ∀ y ≠ some t, s'.Holds l y → s.Holds l y := by
  rintro (_ | t') hy hh
  · exact hl hh
  · have ht : t' ≠ t := fun ht => hy (congrArg some ht)
    rwa [DcRtcTransport.Holds, hc, Function.update_of_ne ht] at hh

theorem holds_update (ho : ∀ l, o.bind Call.holds = some l → (s.calls t).bind Call.holds = some l) (t' : τ)
    (l : Nat) (hc : (update s.calls t o t').bind Call.holds = some l) : (s.calls t').bind Call.holds = some l := by
  by_cases ht : t' = t
  · subst ht
    exact ho l (by simpa using hc)
  · rwa [Function.update_of_ne ht] at hc

omit [DecidableEq τ] in
/-- The calls go on with the references that they have. -/
theorem counted_pass (hi : RefInv s)
    (hc : ∀ t l, (s'.calls t).bind Call.holds = some l → (s.calls t).bind Call.holds = some l)
    (hr : ∀ l, (s'.links l).refs = (s.links l).refs)
    (hl : ∀ l, (s'.links l).change = some .inHandler → (s.links l).change = some .inHandler) : s'.Counts l := by
  rw [DcRtcTransport.Counts, hr]
  refine (hi.counted l).mono (fun y hy => ?_) le_rfl
  cases y with
  | none => exact hl l hy
  | some t => exact hc t l hy

/-- The call takes a reference to `k`. -/
theorem counted_take (hi : RefInv s) (hc : s'.calls = update s.calls t o)
    (hl : s'.links = update s.links k r) (ho : o.bind Call.holds = some k)
    (hr : (s.links k).refs + 1 ≤ r.refs)
    (hch : r.change = some .inHandler → (s.links k).change = some .inHandler) :
    s'.Counts l := by
  by_cases hk : l = k
  · subst hk
    rw [DcRtcTransport.Counts, hl, Function.update_self]
    refine (hi.counted l).update (x := some t) (holds_other hc ?_) (.inr ⟨by omega, fun _ => hr⟩)
    rwa [hl, Function.update_self]
  · rw [DcRtcTransport.Counts, hl, Function.update_of_ne hk]
    refine (hi.counted l).mono (fun y hy => ?_) le_rfl
    by_cases hyt : y = some t
    · subst hyt
      rw [DcRtcTransport.Holds, hc, Function.update_self, ho] at hy
      exact absurd (Option.some.inj hy).symm hk
    · refine holds_other hc ?_ y hyt hy
      rw [hl, Function.update_of_ne hk]
      exact id

/-- The call drops its reference to `k`. -/
theorem counted_drop (hi : RefInv s) (hc : s'.calls = update s.calls t none)
    (hl : s'.links = update s.links k r) (ho : (s.calls t).bind Call.holds = some k)
    (hr : (s.links k).refs ≤ r.refs + 1)
    (hch : r.change = some .inHandler → (s.links k).change = some .inHandler) :
    s'.Counts l := by
  have hnone : ¬ s'.Holds l (some t) := by simp [DcRtcTransport.Holds, hc]
  by_cases hk : l = k
  · subst hk
    rw [DcRtcTransport.Counts, hl, Function.update_self]
    refine (hi.counted l).update (x := some t) (holds_other hc ?_)
      (.inl ⟨ho, hr, fun hh => absurd hh hnone⟩)
    rwa [hl, Function.update_self]
  · rw [DcRtcTransport.Counts, hl, Function.update_of_ne hk]
    refine (hi.counted l).mono (fun y hy => ?_) le_rfl
    refine holds_other hc ?_ y (fun hyt => hnone (hyt ▸ hy)) hy
    rw [hl, Function.update_of_ne hk]
    exact id

/-- The call makes a link, and has the first reference to it. -/
theorem counted_make (hi : RefInv s) (hc : s'.calls = update s.calls t o)
    (hl : s'.links = update s.links s.created r) (ho : o.bind Call.holds = some s.created)
    (hr : r.refs = 1) (hch : r.change = none) : s'.Counts l := by
  by_cases hk : l = s.created
  · subst hk
    have hnone : ∀ y, ¬ s.Holds s.created y := by
      rintro (_ | t') hh
      · have hne : (s.links s.created).change ≠ none := fun hn => by
          rw [DcRtcTransport.Holds, hn] at hh
          cases hh
        exact absurd (hi.base.changing _ hne).1 (lt_irrefl _)
      · exact absurd (hi.created t' _ hh) (lt_irrefl _)
    rw [DcRtcTransport.Counts, hl, Function.update_self, hr]
    refine (counted_none hnone 0).update (x := some t) (holds_other hc ?_) (.inr ⟨by omega, fun _ => le_rfl⟩)
    rw [hl, Function.update_self, hch]
    exact nofun
  · rw [DcRtcTransport.Counts, hl, Function.update_of_ne hk]
    refine (hi.counted l).mono (fun y hy => ?_) le_rfl
    by_cases hyt : y = some t
    · subst hyt
      rw [DcRtcTransport.Holds, hc, Function.update_self, ho] at hy
      exact absurd (Option.some.inj hy).symm hk
    · refine holds_other hc ?_ y hyt hy
      rw [hl, Function.update_of_ne hk]
      exact id

/-- The state-change callback of `k` goes on. -/
theorem counted_change (hi : RefInv s) (hc : s'.calls = s.calls) (hl : s'.links = update s.links k r)
    (hr : (s.links k).change = some .inHandler ∧ (s.links k).refs ≤ r.refs + 1 ∧
        (r.change = some .inHandler → (s.links k).refs ≤ r.refs) ∨
      (s.links k).refs ≤ r.refs ∧ (r.change = some .inHandler → (s.links k).refs + 1 ≤ r.refs)) :
    s'.Counts l := by
  have hcall : ∀ {l} (t : τ), s'.Holds l (some t) → s.Holds l (some t) := fun {l} t hh => by
    rwa [DcRtcTransport.Holds, hc] at hh
  by_cases hk : l = k
  · subst hk
    rw [DcRtcTransport.Counts, hl, Function.update_self]
    refine (hi.counted l).update (x := none) (fun y hy hh => ?_) ?_
    · obtain ⟨t, rfl⟩ := Option.ne_none_iff_exists'.mp hy
      exact hcall t hh
    · rwa [DcRtcTransport.Holds, DcRtcTransport.Holds, hl, Function.update_self]
  · rw [DcRtcTransport.Counts, hl, Function.update_of_ne hk]
    refine (hi.counted l).mono (fun y hy => ?_) le_rfl
    cases y with
    | none => rwa [DcRtcTransport.Holds, hl, Function.update_of_ne hk] at hy
    | some t => exact hcall t hy

/-! ## Every run -/

/-- A call refers to the link that it referred to, or to one it was given. -/
theorem DcStep.holds (h : DcStep parse s a s') (hi : RefInv s) (t : τ) (l : Nat)
    (hl : (s'.calls t).bind Call.holds = some l) : l < s'.created := by
  have hold : ∀ {c}, s.calls t = some c → c.holds = some l → l < s'.created := fun {c} hc hl =>
    Nat.lt_of_lt_of_le (hi.created t l (by rw [hc]; exact hl)) h.created_le
  have hcall : ∀ {t' o}, (update s.calls t' o t).bind Call.holds = some l →
      (t = t' ∧ o.bind Call.holds = some l) ∨ l < s'.created := fun {t' o} hl => by
    by_cases ht : t = t'
    · subst ht
      exact .inl ⟨rfl, by simpa using hl⟩
    · rw [Function.update_of_ne ht] at hl
      exact .inr (Nat.lt_of_lt_of_le (hi.created t l hl) h.created_le)
  cases h
  case handleOffer | openOfferer =>
    rcases hcall hl with ⟨-, ho⟩ | hlt
    · cases ho
      exact Nat.lt_succ_self _
    · exact hlt
  case answerFound l' hc hp | candidateFound l' hc hp =>
    rcases hcall hl with ⟨-, ho⟩ | hlt
    · cases ho
      exact (hi.base.stored _ _ hp).1
    · exact hlt
  case channel hlt _ _ _ _ _ =>
    rcases hcall hl with ⟨-, ho⟩ | hlt'
    · cases ho
      exact hlt
    · exact hlt'
  case onDataChannel hc | described hc | takePending hc | flush hc | addDescribed hc _ | onLink hc =>
    rcases hcall hl with ⟨rfl, ho⟩ | hlt
    · exact hold hc ho
    · exact hlt
  all_goals first
    | exact hi.created t l hl
    | rcases hcall hl with ⟨-, ho⟩ | hlt
      · cases ho
      · exact hlt

theorem DcStep.counted (h : DcStep parse s a s') (hi : RefInv s) (l : Nat) : s'.Counts l := by
  have hchange : ∀ {k r}, (r.change = some .inHandler → (s.links k).change = some .inHandler) →
      ∀ l, (update s.links k r l).change = some .inHandler → (s.links l).change = some .inHandler :=
    fun {k r} hr l hl => by
      by_cases hk : l = k
      · subst hk
        exact hr (by simpa using hl)
      · rwa [Function.update_of_ne hk] at hl
  cases h
  case joinOfferer | offer | answer | candidate | offerRejected | offerThrew | offerPassed | answerLost
      | candidateLost =>
    exact counted_pass hi (holds_update (by simp [Call.holds])) (fun _ => rfl) (fun _ => id)
  case onDataChannel hc | takePending hc | onLink hc =>
    exact counted_pass hi (holds_update (by simp [hc, Call.holds])) (links_field DcRtcLink.refs rfl)
      (by exact hchange id)
  case described hc | flush hc | addDescribed hc _ =>
    exact counted_pass hi (holds_update (by simp [hc, Call.holds])) (fun _ => rfl) (fun _ => id)
  case answerFound | candidateFound | channel =>
    exact counted_take hi rfl rfl rfl le_rfl id
  case onOpen hc | descriptionRejected hc | flushed hc | flushRejected hc | addBuffered hc _ | addDirect hc
      | setHandler hc =>
    exact counted_drop hi rfl rfl (by rw [hc]; rfl) (by simp only; omega) id
  case handleOffer | openOfferer => exact counted_make hi rfl rfl rfl rfl rfl
  case notified => exact counted_change hi rfl rfl (.inr ⟨Nat.le_succ _, fun _ => le_rfl⟩)
  case handled hc => exact counted_change hi rfl rfl (.inl ⟨hc, by simp only; omega, nofun⟩)
  case channelLost | reported | changed | gone | goneDead | refused | unnotified | disconnect | dropLink =>
    exact counted_pass hi (fun _ _ => id) (links_field DcRtcLink.refs rfl) (by exact hchange (by grind))
  all_goals exact hi.counted l

theorem DcStep.refInv (h : DcStep parse s a s') (hi : RefInv s) : RefInv s' :=
  ⟨h.dcInv hi.base, h.counted hi, h.holds hi⟩

theorem RefInv.init (parse : Parse) (remoteId : PeerId) (max : Nat) :
    RefInv (DcRtcTransport.lts τ parse remoteId max).init where
  base := .init parse remoteId max
  counted l := counted_none (by rintro (_ | t) hh <;> cases hh) _
  created t l hl := by cases hl

/-- The references to a link that is gone. -/
theorem DcStep.unheld (h : DcStep parse s a s') (hi : RefInv s) (hl : l < s.created)
    (ho : s.owned l = false) : (s'.links l).held = 0 ∧ (s'.links l).refs = 0 := by
  obtain ⟨hp, hheld, hrefs⟩ := DcRtcTransport.owned_eq_false.mp ho
  have hother : ∀ {k r}, (l = k → r.held = 0 ∧ r.refs = 0) →
      (update s.links k r l).held = 0 ∧ (update s.links k r l).refs = 0 := fun {k r} hr => by
    by_cases hk : l = k
    · subst hk
      simpa using hr rfl
    · rw [Function.update_of_ne hk]
      exact ⟨hheld, hrefs⟩
  have hcall : ∀ {t : τ} {c : Call}, s.calls t = some c → c.holds ≠ some l := fun {t c} hc hh => by
    have hown := hi.owned (t := t) (l := l) (by rw [hc]; exact hh)
    simp [ho] at hown
  have hstored : ∀ id, s.peers id ≠ some l := fun id hs => by
    obtain ⟨-, rfl, -⟩ := hi.base.stored id l hs
    exact hp hs
  cases h
  case handleOffer | openOfferer => exact hother fun hk => absurd hk (Nat.ne_of_lt hl)
  case answerFound hp' | candidateFound hp' => exact hother fun hk => absurd (hk ▸ hp') (hstored _)
  case channel ho' _ _ | notified ho' _ => exact hother fun hk => by simp [← hk, ho] at ho'
  case onLink hc => exact hother fun hk => absurd (congrArg some hk.symm) (hcall hc)
  all_goals first
    | exact ⟨hheld, hrefs⟩
    | refine hother fun hk => ?_
      subst hk
      simp [hheld, hrefs]

/-- `lock` of a `weak_ptr` that has failed fails. -/
theorem DcStep.gone_stays (h : DcStep parse s a s') (hi : RefInv s) (hl : l < s.created)
    (ho : s.owned l = false) : s'.owned l = false := by
  refine DcRtcTransport.owned_eq_false.mpr ⟨fun hs => ?_, h.unheld hi hl ho⟩
  obtain ⟨-, -, hid⟩ := h.identity
  rcases h.peers hs with hs | ⟨rfl, -⟩
  · rw [(hid l hl).2] at hs
    exact (DcRtcTransport.owned_eq_false.mp ho).1 hs
  · exact lt_irrefl _ hl

theorem DcStep.disconnectRequested (h : DcStep parse s a s') (hl : l < s.created)
    (hd : (s.links l).disconnectRequested = true) : (s'.links l).disconnectRequested = true := by
  have hother : ∀ {k r}, (l = k → r.disconnectRequested = true) →
      (update s.links k r l).disconnectRequested = true := fun {k r} hr => by
    by_cases hk : l = k
    · subst hk
      simpa using hr rfl
    · rwa [Function.update_of_ne hk]
  cases h
  case handleOffer | openOfferer => exact hother fun hk => absurd hk (Nat.ne_of_lt hl)
  all_goals first
    | exact hd
    | exact hother fun hk => by simp [← hk, hd]

/-- The call that sets the handler of a link is the one that its channel opened in. -/
theorem DcStep.linking (h : DcStep parse s a s') {t : τ} (hl : (s'.calls t).bind Call.links = some l) :
    (s.calls t).bind Call.links = some l ∨ a = .channel t l := by
  have hcall : ∀ {t' o}, (update s.calls t' o t).bind Call.links = some l →
      (t = t' ∧ o.bind Call.links = some l) ∨ (s.calls t).bind Call.links = some l := fun {t' o} hl => by
    by_cases ht : t = t'
    · subst ht
      exact .inl ⟨rfl, by simpa using hl⟩
    · exact .inr (by rwa [Function.update_of_ne ht] at hl)
  cases h
  case channel =>
    rcases hcall hl with ⟨rfl, ho⟩ | hl
    · cases ho
      exact .inr rfl
    · exact .inl hl
  case onLink hc =>
    rcases hcall hl with ⟨rfl, ho⟩ | hl
    · cases ho
      exact .inl (by rw [hc]; rfl)
    · exact .inl hl
  all_goals first
    | exact .inl hl
    | rcases hcall hl with ⟨-, ho⟩ | hl
      · cases ho
      · exact .inl hl

end TX.Rtt
