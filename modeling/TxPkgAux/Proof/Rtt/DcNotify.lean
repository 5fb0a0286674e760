import TxPkgAux.Proof.Rtt.DcInv

/-!
# `DcRtcTransport`: `onDisconnected`

The state-change callback of a link takes the link out of `peers` before it looks the
link up again to notify its handler. Where the link is still alive at that point, the
handler is notified once (`notified_once`); where `peers` was the last owner, it never
is (`notified_never`).
-/

namespace TX.Rtt

open Function (update)

variable {τ : Type} [DecidableEq τ]

namespace DcRtcTransport

/-- The link whose `onDisconnected` the next step of the call binds. -/
def binds (s : DcRtcTransport τ) (t : τ) : Option Nat :=
  match s.calls t with
  | some (.setHandler l h) => if h.onDisconnected then some l else none
  | _ => none

end DcRtcTransport

/-- The callback has yet to look at `_closedFired`. -/
def DcRtcLink.notifies (r : DcRtcLink) : Bool :=
  match r.change with
  | some (.ending _) | some .refusing | some .notifying => true
  | none | some .inHandler => false

/-- A callback that is due to notify a handler finds the link alive, and a handler is
bound to a link that has not fired. -/
def LinkHeld (s : DcRtcTransport τ) : DcAction τ → Prop
  | .changeNext l => (s.links l).change = some .notifying → (s.links l).due = true →
    (s.links l).closedFired = false → s.owned l = true
  | .next t _ => ∀ l ∈ s.binds t, (s.links l).closedFired = false
  | _ => True

structure NotifyInv (s : DcRtcTransport τ) : Prop where
  base : DcInv s
  unfired : ∀ l, (s.links l).closedFired = false → s.log.count (.onDisconnected l) = 0
  once : ∀ l, s.log.count (.onDisconnected l) ≤ 1
  told : ∀ l, (s.links l).closedFired = true → (s.links l).handler.onDisconnected = true →
    s.log.count (.onDisconnected l) = 1
  due : ∀ l, (s.links l).due = true → (s.links l).closedFired = true ∨ (s.links l).notifies = true

section Step

variable {parse : Parse} {s s' : DcRtcTransport τ} {a : DcAction τ}

/-- A step notifies a handler, which is the step that sets `_closedFired`, or leaves
the number of notifications as it is. -/
theorem DcStep.count_onDisconnected (h : DcStep parse s a s') (l : Nat) :
    s'.log.count (.onDisconnected l) = s.log.count (.onDisconnected l) ∨
      s'.log.count (.onDisconnected l) = s.log.count (.onDisconnected l) + 1 ∧
        (s.links l).closedFired = false ∧ (s'.links l).closedFired = true := by
  cases h
  case notified l' hc ho hf =>
    by_cases hb : (s.links l').handler.onDisconnected = true
    · by_cases hl : l' = l
      · subst hl
        exact .inr ⟨by simp [hb], hf, by simp⟩
      · exact .inl (by simp [hb, hl])
    · exact .inl (by simp [hb])
  case refused l' hc =>
    refine .inl ?_
    dsimp only
    split <;> simp
  case addDirect t accepted l' c hc =>
    refine .inl ?_
    cases accepted <;> simp
  all_goals exact .inl rfl

/-- `_closedFired` is never reset; a link starts without it. -/
theorem DcStep.closedFired (h : DcStep parse s a s') (hi : NotifyInv s) (l : Nat)
    (hl : (s'.links l).closedFired = false) : (s.links l).closedFired = false := by
  cases h.linkStep l with
  | kept hk => rw [← hk.closedFired, hl]
  | created hk hc src inbound ho he => exact hi.base.fresh l (by omega)
  | notified hc hf he hlog => exact hf
  | bound _ _ _ _ _ he | reported _ _ _ _ he | changed _ _ he | gone _ _ _ he | goneDead _ _ _ he
  | refused _ he | unnotified _ _ _ he | handled _ he =>
    rw [he] at hl
    exact hl

theorem DcStep.notify_unfired (h : DcStep parse s a s') (hi : NotifyInv s) (l : Nat)
    (hl : (s'.links l).closedFired = false) : s'.log.count (.onDisconnected l) = 0 := by
  have h0 := hi.unfired l (h.closedFired hi l hl)
  rcases h.count_onDisconnected l with hc | ⟨-, -, hf⟩
  · omega
  · simp [hl] at hf

theorem DcStep.notify_once (h : DcStep parse s a s') (hi : NotifyInv s) (l : Nat) :
    s'.log.count (.onDisconnected l) ≤ 1 := by
  rcases h.count_onDisconnected l with hc | ⟨hc, hf, -⟩
  · exact hc ▸ hi.once l
  · have h0 := hi.unfired l hf
    omega

theorem DcStep.notify_told (h : DcStep parse s a s') (hi : NotifyInv s) (ha : LinkHeld s a) (l : Nat)
    (hf : (s'.links l).closedFired = true) (hb : (s'.links l).handler.onDisconnected = true) :
    s'.log.count (.onDisconnected l) = 1 := by
  have hkept : (s.links l).closedFired = true → (s.links l).handler.onDisconnected = true →
      s'.log.count (.onDisconnected l) = 1 := fun hf hb => by
    rcases h.count_onDisconnected l with hc | ⟨-, hf', -⟩
    · rw [hc, hi.told l hf hb]
    · simp [hf] at hf'
  cases h.linkStep l with
  | kept hk => exact hkept (hk.closedFired ▸ hf) (hk.handler ▸ hb)
  | created hk hc src inbound ho he =>
    rw [he] at hf
    cases hf
  | bound t accepted hd hact hc he =>
    -- The handler is bound to a link that has not fired.
    subst hact
    rw [he] at hf hb
    have hbinds : s.binds t = some l := by
      rw [DcRtcTransport.binds, hc]
      exact if_pos hb
    have := ha l hbinds
    simp_all
  | notified hc hf' he hlog =>
    rw [he] at hb
    rw [hlog, if_pos hb, List.count_cons_self, hi.unfired l hf']
  | reported _ _ _ _ he | changed _ _ he | gone _ _ _ he | goneDead _ _ _ he
  | refused _ he | unnotified _ _ _ he | handled _ he =>
    rw [he] at hf hb
    exact hkept hf hb

theorem DcStep.notify_due (h : DcStep parse s a s') (hi : NotifyInv s) (ha : LinkHeld s a) (l : Nat)
    (hd : (s'.links l).due = true) :
    (s'.links l).closedFired = true ∨ (s'.links l).notifies = true := by
  have hold := hi.due l
  cases h.linkStep l with
  | kept hk =>
    rw [hk.closedFired, DcRtcLink.notifies, hk.change]
    exact hold (hk.due ▸ hd)
  | created hk hc src inbound ho he =>
    rw [he] at hd
    cases hd
  | bound _ _ _ _ _ he | reported _ _ _ _ he =>
    rw [he] at hd ⊢
    exact hold hd
  | changed _ _ he | refused _ he =>
    rw [he]
    exact .inr rfl
  | gone st _ _ he | goneDead st _ _ he =>
    rw [he]
    refine .inr ?_
    by_cases hst : st = .failed ∧ (s.links l).inbound = false <;> simp [DcRtcLink.notifies, hst]
  | notified hc hf he hlog =>
    rw [he]
    exact .inl rfl
  | unnotified hact hc ho he =>
    subst hact
    rw [he] at hd ⊢
    refine .inl ?_
    by_contra hf
    have hf' : (s.links l).closedFired = false := by simpa using hf
    rcases ho with ho | ho
    · simp [ha hc hd hf'] at ho
    · exact hf ho
  | handled hc he =>
    rw [he] at hd ⊢
    exact .inl ((hold hd).resolve_right (by simp [DcRtcLink.notifies, hc]))

theorem DcStep.notifyInv (h : DcStep parse s a s') (hi : NotifyInv s) (ha : LinkHeld s a) :
    NotifyInv s' :=
  ⟨h.dcInv hi.base, h.notify_unfired hi, h.notify_once hi, h.notify_told hi ha, h.notify_due hi ha⟩

end Step

theorem NotifyInv.init (parse : Parse) (remoteId : PeerId) (max : Nat) :
    NotifyInv (DcRtcTransport.lts τ parse remoteId max).init where
  base := .init parse remoteId max
  unfired := by simp [DcRtcTransport.lts]
  once := by simp [DcRtcTransport.lts]
  told := by simp [DcRtcTransport.lts]
  due := by simp [DcRtcTransport.lts]

theorem NotifyInv.reach {parse : Parse} {remoteId : PeerId} {max : Nat} {s : DcRtcTransport τ}
    (h : (DcRtcTransport.lts τ parse remoteId max).Reach LinkHeld s) : NotifyInv s :=
  h.invariant (.init parse remoteId max) fun hI ha he => (DcStep.of_step he).notifyInv hI ha

/-! ## The callback returns -/

/-- The number of steps the callback has left, at most. -/
def ChangePc.left : ChangePc → Nat
  | .ending _ => 4
  | .refusing => 3
  | .notifying => 2
  | .inHandler => 1

theorem changeNext_left (parse : Parse) (s : DcRtcTransport τ) {l : Nat} {pc : ChangePc}
    (hc : (s.links l).change = some pc) : ∃ s', s.step parse (.changeNext l) = some s' ∧
      ∀ pc', (s'.links l).change = some pc' → pc'.left < pc.left := by
  have hsome : ∃ s', s.step parse (.changeNext l) = some s' := by
    cases pc <;> simp only [DcRtcTransport.step, DcRtcTransport.changeNext, hc]
    case notifying => split <;> exact ⟨_, rfl⟩
    all_goals exact ⟨_, rfl⟩
  obtain ⟨s', he⟩ := hsome
  refine ⟨s', he, fun pc' hc' => ?_⟩
  cases DcStep.of_step he <;> grind -linarith -order [Function.update_apply, ChangePc.left]

/-- A callback is never blocked, and returns after four steps at most. -/
theorem callback_returns (parse : Parse) (remoteId : PeerId) (max n : Nat) (s : DcRtcTransport τ)
    (l : Nat) (hn : ∀ pc, (s.links l).change = some pc → pc.left ≤ n) :
    ∃ m ≤ n, ∃ s', (DcRtcTransport.lts τ parse remoteId max).run s
      (List.replicate m (.changeNext l)) = some s' ∧ (s'.links l).change = none := by
  induction n generalizing s with
  | zero =>
    refine ⟨0, Nat.le_refl 0, s, rfl, ?_⟩
    cases hc : (s.links l).change with
    | none => rfl
    | some pc =>
      have := hn pc hc
      cases pc <;> simp [ChangePc.left] at this
  | succ n ih =>
    cases hc : (s.links l).change with
    | none => exact ⟨0, Nat.zero_le _, s, rfl, hc⟩
    | some pc =>
      obtain ⟨s₁, he, hlt⟩ := changeNext_left parse s hc
      have hle := hn pc hc
      obtain ⟨m, hm, s', hr, hs'⟩ := ih s₁ fun pc' hc' => by
        have := hlt pc' hc'
        omega
      have hstep : (DcRtcTransport.lts τ parse remoteId max).step s (.changeNext l) = some s₁ := he
      refine ⟨m + 1, by omega, s', ?_, hs'⟩
      rw [List.replicate_succ, Lts.run, hstep, Option.bind_some, hr]

/-- In a run in which links are held until they are notified, `onDisconnected` of a
link's handler is called at most once, and it has been called when the callback of a
terminal state, reported after the handler was bound, returned. And it does return. -/
theorem notified_once {parse : Parse} {remoteId : PeerId} {max : Nat} {s : DcRtcTransport τ}
    (h : (DcRtcTransport.lts τ parse remoteId max).Reach LinkHeld s) (l : Nat) :
    s.log.count (.onDisconnected l) ≤ 1 ∧
      ((s.links l).handler.onDisconnected = true → (s.links l).due = true →
        (s.links l).change = none → s.log.count (.onDisconnected l) = 1) ∧
      ∃ n ≤ 4, ∃ s', (DcRtcTransport.lts τ parse remoteId max).run s
        (List.replicate n (.changeNext l)) = some s' ∧ (s'.links l).change = none := by
  have hi := NotifyInv.reach h
  refine ⟨hi.once l, fun hb hd hc => ?_, callback_returns parse remoteId max 4 s l fun pc _ => ?_⟩
  · refine hi.told l ?_ hb
    have := hi.due l hd
    simpa [DcRtcLink.notifies, hc] using this
  · cases pc <;> simp [ChangePc.left]

instance (s : DcRtcTransport τ) (a : DcAction τ) : Decidable (LinkHeld s a) :=
  match a with
  | .changeNext l => inferInstanceAs (Decidable ((s.links l).change = some .notifying →
      (s.links l).due = true → (s.links l).closedFired = false → s.owned l = true))
  | .next t _ => inferInstanceAs (Decidable (∀ l ∈ s.binds t, (s.links l).closedFired = false))
  | .joined _ _ | .onMessage _ _ | .onLeft _ | .channel _ _ | .onLink _ _ _ | .stateChange _ _
  | .disconnect _ | .dropLink _ | .dropAcceptor | .destroy => .isTrue trivial

/-- The acceptor keeps the link, and disconnects it. -/
theorem notified_once_kept : ∃ s, (DcRtcTransport.answerer 1).Reach LinkHeld s ∧
    (s.links 0).disconnectRequested = true ∧ s.log.count (.onDisconnected 0) = 1 := by
  obtain ⟨s, hs, hq⟩ := Lts.Reach.of_run (DcRtcTransport.answerer 1) LinkHeld
    (.joined () none :: (DcRtcTransport.offered "a" ++ DcRtcTransport.opening 0 true).append
      (.disconnect 0 :: DcRtcTransport.reporting 0 .closed 3))
    (fun s => (s.links 0).disconnectRequested = true ∧ (s.links 0).handler.onDisconnected = true ∧
      (s.links 0).due = true ∧ (s.links 0).change = none) (by decide +kernel)
  obtain ⟨hd, hb, hdue, hc⟩ := of_decide_eq_true hq
  exact ⟨s, hs, hd, (notified_once hs 0).2.1 hb hdue hc⟩

/-- The acceptor keeps no reference to the link: `onGone` drops the last one, and the
callback finds nobody to notify. -/
theorem notified_never : ∃ s, (DcRtcTransport.answerer 1).Reach Lts.Any s ∧
    (s.links 0).attached = true ∧ .linked 0 ∈ s.log ∧ (s.links 0).handler.onDisconnected = true ∧
    (s.links 0).due = true ∧ (s.links 0).change = none ∧ s.log.count (.onDisconnected 0) = 0 := by
  obtain ⟨s, hs, hq⟩ := Lts.Reach.of_run (DcRtcTransport.answerer 1) Lts.Any
    (.joined () none :: (DcRtcTransport.offered "a" ++ DcRtcTransport.opening 0 false ++
      DcRtcTransport.reporting 0 .closed 2))
    (fun s => (s.links 0).attached = true ∧ .linked 0 ∈ s.log ∧
      (s.links 0).handler.onDisconnected = true ∧ (s.links 0).due = true ∧
      (s.links 0).change = none ∧ s.log.count (.onDisconnected 0) = 0) (by decide +kernel)
  exact ⟨s, hs, of_decide_eq_true hq⟩

end TX.Rtt
