import TxPkgAux.Framework.Count
import TxPkgAux.Proof.Rtt.DcInv

/-!
# `DcRtcTransport`: the inbound connections

`inboundCount` follows the inbound links whose end was not yet taken out of `peers`
(`unended`), where each of them ends once and the limit still has room when it is
stored. The links whose connection has not reported a terminal state (`unreported`)
are the same ones whenever no callback is on its way (`inbound_counted`).
-/

namespace TX.Rtt

open Function (update)

variable {τ : Type} [DecidableEq τ]

namespace DcRtcTransport

/-- The number of inbound links that have not ended. -/
def unended (s : DcRtcTransport τ) : Nat :=
  Nat.count (fun l => (s.links l).inbound = true ∧ (s.links l).ended = false) s.created

/-- The number of links created by `HandleOffer` whose peer connection has not yet
reported `Closed`, `Disconnected` or `Failed`. -/
def unreported (s : DcRtcTransport τ) : Nat :=
  Nat.count (fun l => (s.links l).inbound = true ∧ (s.links l).reported = false) s.created

/-- No call and no state-change callback is in progress. -/
def Idle (s : DcRtcTransport τ) : Prop :=
  (∀ t, s.calls t = none) ∧ ∀ l < s.created, (s.links l).change = none

/-- The call is `HandleOffer`, at the insertion into `peers`. -/
def storesOffer (s : DcRtcTransport τ) (t : τ) : Bool :=
  match s.calls t with
  | some (.handleOffer _ _) => true
  | _ => false

end DcRtcTransport

/-- The link's state-change callback is at `onClosed()` or `onFailed()`. -/
def DcRtcLink.atEnd (r : DcRtcLink) : Bool :=
  match r.change with
  | some (.ending _) => true
  | _ => false

/-- An offer is stored while the limit that was checked still has room; a connection
whose first terminal state is reported has its data channel; and the end of a link that
ended before finds no other inbound link counted. -/
def InboundApart (s : DcRtcTransport τ) : DcAction τ → Prop
  | .next t _ => s.storesOffer t = true → s.inboundCount < s.maxInboundConnections
  | .stateChange l st => s.alive = true → st.terminal = true → (s.links l).inbound = true →
    (s.links l).reported = false → (s.links l).attached = true
  | .changeNext l => s.alive = true → (s.links l).atEnd = true → (s.links l).inbound = true →
    (s.links l).ended = true → s.inboundCount = 0
  | _ => True

structure InboundInv (s : DcRtcTransport τ) : Prop where
  base : DcInv s
  atEnd : s.alive = true → ∀ l, (s.links l).inbound = true → (s.links l).reported = true →
    (s.links l).ended = false → (s.links l).atEnd = true
  count : s.alive = true → s.inboundCount = s.unended
  limit : s.alive = true → s.inboundCount ≤ s.maxInboundConnections

section Step

variable {parse : Parse} {s s' : DcRtcTransport τ} {a : DcAction τ}

omit [DecidableEq τ] in
theorem unended_congr (hc : s'.created = s.created)
    (h : ∀ k, (s'.links k).inbound = (s.links k).inbound ∧ (s'.links k).ended = (s.links k).ended) :
    s'.unended = s.unended := by
  simp only [DcRtcTransport.unended, hc]
  exact count_congr fun k _ => by simp [h k]

/-- A step keeps the links that are counted, adds one, or ends one. -/
theorem DcStep.slots (h : DcStep parse s a s') :
    (s'.created = s.created ∧ s'.inboundCount = s.inboundCount ∧ ∀ k,
      (s'.links k).inbound = (s.links k).inbound ∧ (s'.links k).ended = (s.links k).ended) ∨
    (s'.created = s.created + 1 ∧ (s'.links s.created).ended = false ∧
      s'.inboundCount = s.inboundCount + (if (s'.links s.created).inbound = true then 1 else 0) ∧
      ((s'.links s.created).inbound = true → ∃ t accepted, a = .next t accepted ∧
        s.storesOffer t = true) ∧
      ∀ k ≠ s.created, s'.links k = s.links k) ∨
    ∃ l, a = .changeNext l ∧ s.alive = true ∧ (s.links l).atEnd = true ∧
      (s'.links l).inbound = (s.links l).inbound ∧ (s'.links l).ended = true ∧
      s'.inboundCount = s.inboundCount - (if (s.links l).inbound = true then 1 else 0) ∧
      s'.created = s.created ∧ ∀ k ≠ l, s'.links k = s.links k := by
  cases h
  case handleOffer t accepted src sdp hc =>
    refine .inr (.inl ⟨rfl, by simp, by simp, fun _ => ⟨t, accepted, rfl, ?_⟩, fun k hk => by simp [hk]⟩)
    rw [DcRtcTransport.storesOffer, hc]
  case openOfferer t accepted hc =>
    exact .inr (.inl ⟨rfl, by simp, by simp, by simp, fun k hk => by simp [hk]⟩)
  case gone l st hc ha =>
    refine .inr (.inr ⟨l, rfl, ha, by rw [DcRtcLink.atEnd, hc], by simp, by simp, ?_, rfl,
      fun k hk => by simp [hk]⟩)
    cases (s.links l).inbound <;> simp
    omega
  all_goals
    refine .inl ⟨rfl, rfl, fun k => ?_⟩
    first
    | exact ⟨rfl, rfl⟩
    | exact ⟨links_field DcRtcLink.inbound (by rfl) k, links_field DcRtcLink.ended (by rfl) k⟩

theorem DcStep.atEnd (h : DcStep parse s a s') (hi : InboundInv s) (ha : InboundApart s a)
    (hs : s'.alive = true) (l : Nat) (hn : (s'.links l).inbound = true)
    (hr : (s'.links l).reported = true) (he : (s'.links l).ended = false) :
    (s'.links l).atEnd = true := by
  have hal := h.alive hs
  have hold := hi.atEnd hal l
  cases h.linkStep l with
  | kept hk =>
    rw [DcRtcLink.atEnd, hk.change]
    exact hold (hk.inbound ▸ hn) (hk.reported ▸ hr) (hk.ended ▸ he)
  | created hk hc src inbound ho hl =>
    rw [hl] at hr
    cases hr
  | bound _ _ _ _ _ hl =>
    rw [hl] at hn hr he ⊢
    exact hold hn hr he
  | reported st hact hlt hor hl =>
    subst hact
    rw [hl] at hn hr he ⊢
    refine hold hn ?_ he
    -- A first terminal state finds the data channel.
    by_contra hrep
    have hrep' : (s.links l).reported = false := by simpa using hrep
    have ht : st.terminal = true := by simpa [hrep'] using hr
    have hat := ha hal ht hn hrep'
    simp [hat, ht] at hor
  | changed _ _ hl =>
    rw [hl]
    rfl
  | gone _ _ _ hl =>
    rw [hl] at he
    cases he
  | goneDead _ _ hdead hl => simp [hs] at hdead
  | refused hc hl | notified hc _ hl _ | unnotified _ hc _ hl | handled hc hl =>
    rw [hl] at hn hr he
    have := hold hn hr he
    simp [DcRtcLink.atEnd, hc] at this

theorem DcStep.inboundCount (h : DcStep parse s a s') (hi : InboundInv s) (ha : InboundApart s a)
    (hs : s'.alive = true) : s'.inboundCount = s'.unended := by
  have hold := hi.count (h.alive hs)
  rcases h.slots with ⟨hc, hn, hk⟩ | ⟨hc, he, hn, -, hk⟩ | ⟨l, rfl, hal, hat, hin, he, hn, hc, hk⟩
  · rw [hn, hold, unended_congr hc hk]
  · have hcount : s'.unended = s.unended + (if (s'.links s.created).inbound = true then 1 else 0) := by
      simp only [DcRtcTransport.unended, hc, Nat.count_succ, he, and_true]
      congr 1
      exact count_congr fun k hlt => by rw [hk k (by omega)]
    rw [hn, hold, hcount]
  · by_cases hold' : (s.links l).inbound = true ∧ (s.links l).ended = false
    · have hlt := (hi.base.changing l (by grind -linarith -order [DcRtcLink.atEnd])).1
      have hcount : s'.unended + 1 = s.unended := by
        simp only [DcRtcTransport.unended, hc]
        exact count_remove hlt hold' (by simp [he]) fun k hkl => by rw [hk k hkl]
      rw [hn, hold, if_pos hold'.1]
      omega
    · -- The link is not counted: it is outbound, or ended before.
      have hcount : s'.unended = s.unended := by
        simp only [DcRtcTransport.unended, hc]
        refine count_congr fun k _ => ?_
        by_cases hkl : k = l
        · subst hkl
          grind -linarith -order
        · rw [hk k hkl]
      have hzero : (s.links l).inbound = true → s.inboundCount = 0 :=
        fun h => ha hal hat h (by grind -linarith -order)
      split at hn <;> grind -linarith -order

theorem DcStep.limit (h : DcStep parse s a s') (hi : InboundInv s) (ha : InboundApart s a)
    (hs : s'.alive = true) : s'.inboundCount ≤ s'.maxInboundConnections := by
  have hold := hi.limit (h.alive hs)
  have hmax : s'.maxInboundConnections = s.maxInboundConnections := by
    cases h <;> rfl
  rcases h.slots with ⟨-, hn, -⟩ | ⟨-, -, hn, hroom, -⟩ | ⟨l, -, -, -, -, -, hn, -⟩
  · omega
  · split at hn
    · obtain ⟨t, accepted, rfl, hc⟩ := hroom ‹_›
      have := ha hc
      omega
    · omega
  · omega

theorem DcStep.inboundInv (h : DcStep parse s a s') (hi : InboundInv s) (ha : InboundApart s a) :
    InboundInv s' :=
  ⟨h.dcInv hi.base, h.atEnd hi ha, h.inboundCount hi ha, h.limit hi ha⟩

end Step

theorem InboundInv.init (parse : Parse) (remoteId : PeerId) (max : Nat) :
    InboundInv (DcRtcTransport.lts τ parse remoteId max).init where
  base := .init parse remoteId max
  atEnd := by simp [DcRtcTransport.lts]
  count := by simp [DcRtcTransport.lts, DcRtcTransport.unended]
  limit := by simp [DcRtcTransport.lts]

theorem InboundInv.reach {parse : Parse} {remoteId : PeerId} {max : Nat} {s : DcRtcTransport τ}
    (h : (DcRtcTransport.lts τ parse remoteId max).Reach InboundApart s) : InboundInv s :=
  h.invariant (.init parse remoteId max) fun hI ha he => (DcStep.of_step he).inboundInv hI ha

/-- In a run in which the inbound connections stay apart, `inboundCount` is the number
of inbound links whose connection has not reported a terminal state, whenever no call
is in progress, and that number never exceeds the limit. -/
theorem inbound_counted {parse : Parse} {remoteId : PeerId} {max : Nat} {s : DcRtcTransport τ}
    (h : (DcRtcTransport.lts τ parse remoteId max).Reach InboundApart s) (ha : s.alive = true) :
    (s.Idle → s.inboundCount = s.unreported) ∧ s.unreported ≤ s.maxInboundConnections := by
  have hi := InboundInv.reach h
  refine ⟨fun hidle => ?_, ?_⟩
  · rw [hi.count ha]
    refine count_congr fun l hl => ?_
    have hend := hi.base.ended l
    have hat := hi.atEnd ha l
    have hidle := hidle.2 l hl
    grind -linarith -order [DcRtcLink.atEnd]
  · have hle : s.unreported ≤ s.unended := Nat.count_mono_left fun l _ hl => by
      have hend := hi.base.ended l
      grind -linarith -order
    have hcount := hi.count ha
    have hlimit := hi.limit ha
    omega

namespace DcRtcTransport

instance [Fintype τ] (s : DcRtcTransport τ) : Decidable s.Idle :=
  inferInstanceAs (Decidable ((∀ t, s.calls t = none) ∧ ∀ l < s.created, (s.links l).change = none))

end DcRtcTransport

instance (s : DcRtcTransport τ) (a : DcAction τ) : Decidable (InboundApart s a) :=
  match a with
  | .next t _ => inferInstanceAs
      (Decidable (s.storesOffer t = true → s.inboundCount < s.maxInboundConnections))
  | .stateChange l st => inferInstanceAs (Decidable (s.alive = true → st.terminal = true →
      (s.links l).inbound = true → (s.links l).reported = false → (s.links l).attached = true))
  | .changeNext l => inferInstanceAs (Decidable (s.alive = true → (s.links l).atEnd = true →
      (s.links l).inbound = true → (s.links l).ended = true → s.inboundCount = 0))
  | .joined _ _ | .onMessage _ _ | .onLeft _ | .channel _ _ | .onLink _ _ _ | .disconnect _
  | .dropLink _ | .dropAcceptor | .destroy => .isTrue trivial

/-- Two connections, of which one closes. -/
theorem inbound_counted_closed : ∃ s, (DcRtcTransport.answerer 2).Reach InboundApart s ∧ s.Idle ∧
    s.created = 2 ∧ s.inboundCount = s.unreported ∧ s.unreported = 1 := by
  obtain ⟨s, hs, hq⟩ := Lts.Reach.of_run (DcRtcTransport.answerer 2) InboundApart
    (.joined () none :: (DcRtcTransport.offered "a" ++ DcRtcTransport.opening 0 true ++
      DcRtcTransport.offered "b" ++ DcRtcTransport.opening 1 true ++
      DcRtcTransport.reporting 0 .closed 3))
    (fun s => s.alive = true ∧ s.Idle ∧ s.created = 2 ∧ s.unreported = 1) (by decide +kernel)
  obtain ⟨ha, hidle, hc, hu⟩ := of_decide_eq_true hq
  exact ⟨s, hs, hidle, hc, (inbound_counted hs ha).1 hidle, hu⟩

/-- Of two connections one reports `Disconnected`, and later `Closed`: the callback
runs again and counts the other one out, too. -/
theorem inbound_counted_twice : ∃ s, (DcRtcTransport.answerer 2).Reach Lts.Any s ∧
    s.alive = true ∧ s.Idle ∧ s.inboundCount = 0 ∧ s.unreported = 1 := by
  obtain ⟨s, hs, hq⟩ := Lts.Reach.of_run (DcRtcTransport.answerer 2) Lts.Any
    (.joined () none :: (DcRtcTransport.offered "a" ++ DcRtcTransport.opening 0 true ++
      DcRtcTransport.offered "b" ++ DcRtcTransport.opening 1 true ++
      DcRtcTransport.reporting 0 .disconnected 3 ++ DcRtcTransport.reporting 0 .closed 2))
    (fun s => s.alive = true ∧ s.Idle ∧ s.inboundCount = 0 ∧ s.unreported = 1) (by decide +kernel)
  exact ⟨s, hs, of_decide_eq_true hq⟩

end TX.Rtt
