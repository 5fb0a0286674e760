import TxPkgAux.Proof.Exec.TimedStep

/-!
# Timed operations: the invariant

`OpInv` is the invariant of one operation, proved by cases on its steps
(`OpStep.opInv`): the operation is queued, about to be queued, executed or
completed at most once in all, and exactly once from the moment the timer or the
stop side decided on its state (`account`); while it is pending somebody still
holds it (`kept`); it signals what `Execute` saw (`signalling`, `completed`).
`Inv.reach` says it of any number of operations over any backend that meets the
contract, in every state before an operation is destroyed.
-/

namespace TX.Exec

/-- Enqueues of the operation in progress. -/
def TimedOperation.enqueuing {σ : Type} (o : TimedOperation σ) : Nat :=
  (if o.timerPc = .enqueuing then 1 else 0) + if o.stopPc = .enqueuing then 1 else 0

/-- Executions of the operation in progress. -/
def TimedOperation.executing {σ : Type} (o : TimedOperation σ) : Nat :=
  if o.execPc = .idle then 0 else 1

/-- The invariant of an operation that is not destroyed. -/
structure OpInv {σ : Type} (v : OpView σ) : Prop where
  /-- The operation is queued, being queued, executed or completed at most once,
  and exactly once from the moment its state was decided on. -/
  account : v.queued + v.op.enqueuing + v.op.executing + v.op.completions.length =
    if v.op.state = .pending then 0 else 1
  timerWon : v.op.timerPc = .enqueuing → v.op.state = .timerWon
  stopWon : v.op.stopPc = .enqueuing → v.op.state = .stopWon
  timerSettled : v.op.timerPc = .returning ∨ v.op.timerPc = .returned → v.op.state ≠ .pending
  stopSettled : v.op.stopPc = .returned → v.op.state ≠ .pending
  stopFlag : v.op.state = .stopWon ∨ v.op.stopPc.running = true → v.stop = true
  due : v.op.state = .timerWon ∨ v.op.timerPc ≠ .idle → v.op.deadline ≤ v.now
  unscheduled : v.op.issuedId = InvalidTimerId ∨ v.scheduled → v.op.timerPc = .idle
  unstarted : v.op.startPc = .idle → v.op.stopPc = .unregistered ∨ v.op.stopPc = .deregistered
  started : ∀ id, v.op.startPc = .assigning id → v.op.issuedId ≠ InvalidTimerId
  returned : v.op.startPc = .returned → v.op.state = .pending → v.op.issuedId ≠ InvalidTimerId
  /-- A scheduled operation is not forgotten while it is pending. -/
  kept : v.op.issuedId ≠ InvalidTimerId → v.op.state = .pending →
    v.scheduled ∨ v.op.timerPc = .clearing ∨ v.op.timerPc = .swapping ∨ v.op.stopPc.running = true
  signalling : ∀ signal stopSeen, v.op.execPc = .signalling signal stopSeen →
    (signal = .setStopped ↔ stopSeen = true) ∧ (stopSeen = false → v.op.state = .timerWon)
  completed : ∀ c ∈ v.op.completions, (c.signal = .setStopped ↔ c.stopSeen = true) ∧
    (c.signal = .setValue → v.op.state = .timerWon ∧ v.op.deadline ≤ c.time)

section Step

variable {σ : Type} {v v' : OpView σ} {a : OpAct}

theorem OpInv.account_le (hv : OpInv v) :
    v.queued + v.op.enqueuing + v.op.executing + v.op.completions.length ≤ 1 := by
  rw [hv.account]
  split <;> omega

/-- A queued operation is not executed. -/
theorem OpInv.idle (hv : OpInv v) (hq : 0 < v.queued) : v.op.execPc = .idle := by
  have hle := hv.account_le
  by_contra hn
  rw [TimedOperation.executing, if_neg hn] at hle
  omega

/-- Nor has an operation completed while it is executed. -/
theorem OpInv.completions_nil (hv : OpInv v) (he : v.op.execPc ≠ .idle) : v.op.completions = [] := by
  have hle := hv.account_le
  rw [TimedOperation.executing, if_neg he] at hle
  exact List.eq_nil_of_length_eq_zero (by omega)

/-- A destroyed operation stays destroyed. -/
theorem OpStep.not_finished (h : OpStep v a v') (hd : v'.op.dtorPc ≠ .finished) :
    v.op.dtorPc ≠ .finished := by
  cases h <;> simp_all

theorem OpStep.account (h : OpStep v a v') (hv : OpInv v) (hf : v.op.dtorPc ≠ .finished) :
    v'.queued + v'.op.enqueuing + v'.op.executing + v'.op.completions.length =
      if v'.op.state = .pending then 0 else 1 := by
  have h0 := hv.account
  simp only [TimedOperation.enqueuing, TimedOperation.executing] at h0 ⊢
  cases h with
  | startRegister hp | startStopped hp =>
    -- no stop callback ran before `start()`
    obtain hs | hs := hv.unstarted hp
    · simpa [hs] using h0
    · simpa [hs] using h0
  | fire hid hs =>
    have hidle : v.op.timerPc = .idle := hv.unscheduled (.inr hs)
    simpa [hidle] using h0
  | timerClear hp | timerLose hp | done hp => simpa [hp] using h0
  | timerWin hp hw =>
    have hpending := hw hf
    simp only [hp, hpending, reduceCtorEq, if_true, if_false] at h0 ⊢
    omega
  | timerEnqueue hp =>
    have hwon := hv.timerWon hp
    simp only [hp, hwon, reduceCtorEq, if_true, if_false] at h0 ⊢
    omega
  | stopBegin hp | stopExchange hp | stopCancel hp | stopLose hp => simpa [hp] using h0
  | stopTest hp =>
    have hne : (if v.op.timerId = InvalidTimerId then StopPc.swapping else .exchanging) ≠ .enqueuing := by
      split <;> nofun
    simpa [hp, hne] using h0
  | stopWin hp hw =>
    simp only [hp, hw, reduceCtorEq, if_true, if_false] at h0 ⊢
    omega
  | stopEnqueue hp =>
    have hwon := hv.stopWon hp
    simp only [hp, hwon, reduceCtorEq, if_true, if_false] at h0 ⊢
    omega
  | dequeue hq =>
    have hidle := hv.idle hq
    simp only [hidle, reduceCtorEq, if_true, if_false] at h0 ⊢
    omega
  | execLoad hp => simpa [hp] using h0
  | execSignal hp =>
    simp only [hp, reduceCtorEq, if_true, if_false, List.length_append, List.length_singleton] at h0 ⊢
    omega
  | dtorReset hp hs =>
    have hne : v.op.stopPc ≠ .enqueuing := fun he => by simp [he, StopPc.running] at hs
    simpa [hne] using h0
  | _ => exact h0

/-- Who decided on the state, and why it could. -/
theorem OpStep.settled (h : OpStep v a v') (hv : OpInv v) (hf : v.op.dtorPc ≠ .finished) :
    (v'.op.timerPc = .enqueuing → v'.op.state = .timerWon) ∧
      (v'.op.stopPc = .enqueuing → v'.op.state = .stopWon) ∧
      (v'.op.timerPc = .returning ∨ v'.op.timerPc = .returned → v'.op.state ≠ .pending) ∧
      (v'.op.stopPc = .returned → v'.op.state ≠ .pending) ∧
      (v'.op.state = .stopWon ∨ v'.op.stopPc.running = true → v'.stop = true) ∧
      (v'.op.state = .timerWon ∨ v'.op.timerPc ≠ .idle → v'.op.deadline ≤ v'.now) := by
  have h1 := hv.timerWon
  have h2 := hv.stopWon
  have h3 := hv.timerSettled
  have h4 := hv.stopSettled
  have h5 := hv.stopFlag
  have h6 := hv.due
  cases h <;> grind -linarith -order [StopPc.running]

/-- What `start()` has done so far. -/
theorem OpStep.starting (h : OpStep v a v') (hv : OpInv v) (ho : OwnIds v.op) :
    (v'.op.issuedId = InvalidTimerId ∨ v'.scheduled → v'.op.timerPc = .idle) ∧
      (v'.op.startPc = .idle → v'.op.stopPc = .unregistered ∨ v'.op.stopPc = .deregistered) ∧
      (∀ id, v'.op.startPc = .assigning id → v'.op.issuedId ≠ InvalidTimerId) ∧
      (v'.op.startPc = .returned → v'.op.state = .pending → v'.op.issuedId ≠ InvalidTimerId) := by
  have h1 := hv.unscheduled
  have h2 := hv.unstarted
  have h3 := hv.started
  have h4 := hv.returned
  have h5 := ho.fresh
  cases h <;> grind -linarith -order

theorem OpStep.kept (h : OpStep v a v') (hv : OpInv v) (hd : v'.op.dtorPc ≠ .finished) :
    v'.op.issuedId ≠ InvalidTimerId → v'.op.state = .pending →
      v'.scheduled ∨ v'.op.timerPc = .clearing ∨ v'.op.timerPc = .swapping ∨
        v'.op.stopPc.running = true := by
  have hf := h.not_finished hd
  have hkept := hv.kept
  have hholds (hr : v.op.stopPc.running = false) (hid : v.op.issuedId ≠ InvalidTimerId)
      (hs : v.op.state = .pending) :
      v.scheduled ∨ v.op.timerPc = .clearing ∨ v.op.timerPc = .swapping := by
    simpa [hr] using hkept hid hs
  cases h with
  | startRegister hp =>
    -- no stop callback ran before `start()`
    have hrun : v.op.stopPc.running = false := by
      obtain hs | hs := hv.unstarted hp <;> simp [hs, StopPc.running]
    exact fun hid hs => (hholds hrun hid hs).imp_right (Or.imp_right .inl)
  | startSchedule => exact fun _ _ => .inl trivial
  | fire => exact fun _ _ => .inr (.inl rfl)
  | timerClear => exact fun _ _ => .inr (.inr (.inl rfl))
  | timerWin | stopWin => nofun
  | timerLose hp hw => exact fun _ hs => absurd hs (hw hf)
  | timerEnqueue hp => exact fun _ hs => absurd ((hv.timerWon hp).symm.trans hs) nofun
  | done hp => exact fun hid hs => by simpa [hp] using hkept hid hs
  | stopTest => exact fun _ _ => .inr (.inr (.inr (by dsimp only; split <;> rfl)))
  | startStopped | stopBegin | stopExchange | stopCancel => exact fun _ _ => .inr (.inr (.inr rfl))
  | stopLose hp hw => exact fun _ hs => absurd hs hw
  | stopEnqueue hp => exact fun _ hs => absurd ((hv.stopWon hp).symm.trans hs) nofun
  | dtorReset hp hr => exact fun hid hs => (hholds hr hid hs).imp_right (Or.imp_right .inl)
  | dtorCancel => exact absurd rfl hd
  | _ => exact hkept

/-- `Execute` signals what it saw, and `set_value` only after the timer won. -/
theorem OpStep.signals (h : OpStep v a v') (hv : OpInv v) :
    (∀ signal stopSeen, v'.op.execPc = .signalling signal stopSeen →
      (signal = .setStopped ↔ stopSeen = true) ∧ (stopSeen = false → v'.op.state = .timerWon)) ∧
      ∀ c ∈ v'.op.completions, (c.signal = .setStopped ↔ c.stopSeen = true) ∧
        (c.signal = .setValue → v'.op.state = .timerWon ∧ v'.op.deadline ≤ c.time) := by
  have h3 := hv.signalling
  have h4 := hv.completed
  have hacc := hv.account
  simp only [TimedOperation.enqueuing, TimedOperation.executing] at hacc
  cases h
  case timerWin hp hw =>
    exact ⟨fun signal stopSeen hs => ⟨(h3 signal stopSeen hs).1, fun _ => rfl⟩,
      fun c hc => ⟨(h4 c hc).1, fun hval => ⟨rfl, ((h4 c hc).2 hval).2⟩⟩⟩
  case stopWin hp hw =>
    -- A pending operation is not executed, and has not completed.
    rw [if_pos hw] at hacc
    have hidle : v.op.execPc = .idle := by
      by_contra hn
      simp only [if_neg hn] at hacc
      omega
    have hnil : v.op.completions = [] := List.eq_nil_of_length_eq_zero (by omega)
    exact ⟨fun signal stopSeen hs => by simp [hidle] at hs, fun c hc => by simp [hnil] at hc⟩
  case dequeue hq => exact ⟨nofun, h4⟩
  case execLoad hp =>
    refine ⟨fun signal stopSeen hs => ?_, h4⟩
    cases hs
    refine ⟨by cases v.stop <;> simp, fun hstop => ?_⟩
    have hp' : v.op.state ≠ .pending := fun he => by simp [hp, he] at hacc
    have hs' : v.op.state ≠ .stopWon := fun he => by simp [hv.stopFlag (.inl he)] at hstop
    cases hst : v.op.state with
    | pending => exact absurd hst hp'
    | timerWon => rfl
    | stopWon => exact absurd hst hs'
  case execSignal signal stopSeen hp =>
    refine ⟨nofun, fun c hc => ?_⟩
    rcases List.mem_append.mp hc with hc | hc
    · exact h4 c hc
    · obtain rfl := List.mem_singleton.mp hc
      obtain ⟨hiff, hwon⟩ := h3 signal stopSeen hp
      refine ⟨hiff, fun hval => ?_⟩
      have hst : v.op.state = .timerWon := hwon (by
        by_contra hn
        have hs := hiff.mpr (by simpa using hn)
        exact absurd (hs.symm.trans hval) nofun)
      exact ⟨hst, hv.due (.inl hst)⟩
  all_goals exact ⟨h3, h4⟩

theorem OpStep.opInv (h : OpStep v a v') (hv : v.op.dtorPc ≠ .finished → OpInv v) (ho : OwnIds v.op)
    (hd : v'.op.dtorPc ≠ .finished) : OpInv v' := by
  have hf := h.not_finished hd
  obtain ⟨h1, h2, h3, h4, h5, h6⟩ := h.settled (hv hf) hf
  obtain ⟨h7, h8, h9, h10⟩ := h.starting (hv hf) ho
  obtain ⟨h11, h12⟩ := h.signals (hv hf)
  exact ⟨h.account (hv hf) hf, h1, h2, h3, h4, h5, h6, h7, h8, h9, h10, h.kept (hv hf) hd, h11, h12⟩

/-- The deadline and the token of an operation never change. -/
theorem OpStep.deadline (h : OpStep v a v') : v'.op.deadline = v.op.deadline := by
  cases h <;> rfl

end Step

variable {ι σ : Type} [DecidableEq ι] {B : ITimerBackend ι} {C : B.Contract}

/-- The invariant of the system: the ids are kept apart, and every operation that
is not destroyed satisfies `OpInv`. -/
structure Inv (C : B.Contract) (s : TimedLoop ι σ B) : Prop where
  ids : Ids C s
  ops : ∀ i, (s.ops i).dtorPc ≠ .finished → OpInv (view C s i)

theorem Inv.init {now : TimePoint} {deadline : ι → TimePoint} {token : ι → σ} :
    Inv C (TimedLoop.init B now deadline token) where
  ids := .init
  ops i _ := by
    have hs : ¬ (view C (TimedLoop.init B now deadline token) i).scheduled := by
      simp only [view, TimedLoop.init, C.timers_init, Timers.empty, not_false_eq_true]
    constructor <;> first | exact fun h => absurd h hs | simp [view, TimedLoop.init,
      TimedOperation.enqueuing, TimedOperation.executing, StopPc.running]

theorem Inv.step [DecidableEq σ] {s s' : TimedLoop ι σ B} (h : Inv C s) {a : TimedAction ι σ B}
    (he : s.step a = some s') : Inv C s' where
  ids := h.ids.step he
  ops i hd := (step_view h.ids he i).opInv (h.ops i) (h.ids.own i) hd

variable [DecidableEq σ] {now : TimePoint} {deadline : ι → TimePoint} {token : ι → σ}

theorem Inv.reach {ok : TimedLoop ι σ B → TimedAction ι σ B → Prop} {s : TimedLoop ι σ B}
    (h : (TimedLoop.lts B now deadline token).Reach ok s) : Inv C s :=
  h.invariant .init fun hI _ he => hI.step he

theorem deadline_reach {ok : TimedLoop ι σ B → TimedAction ι σ B → Prop} {s : TimedLoop ι σ B}
    (C : B.Contract) (h : (TimedLoop.lts B now deadline token).Reach ok s) (i : ι) :
    (s.ops i).deadline = deadline i := by
  refine (h.invariant (I := fun s => Ids C s ∧ (s.ops i).deadline = deadline i) ⟨.init, rfl⟩ ?_).2
  intro s₁ s₂ a hI _ he
  exact ⟨hI.1.step he, (step_view hI.1 he i).deadline.trans hI.2⟩

end TX.Exec
