import TxPkgAux.Proof.Exec.TimedRecord
import Mathlib.Data.Fintype.Basic

/-!
# The destructor of a timed operation

`~TimedOperation` waits for the timer callback only if it finds an id in
`timerId`, and the callback clears `timerId` before its compare-exchange. While
the operation is pending that does no harm: it cannot complete, and so is not
destroyed, before the callback made its exchange. It does if the stop side is the
one that completes it. `StopApart` is the condition that the two do not meet
there, on the steps of a run; `DtorInv` the invariant of the runs that meet it,
and `destroy_waits` the result. `destroy_overtakes` is a run that does not.
-/

namespace TX.Exec

/-- The callback of the timer has a step left that touches the operation. -/
def TimerPc.left : TimerPc → Bool
  | .clearing | .swapping | .enqueuing => true
  | .idle | .returning | .returned => false

/-- The destructor is inside `Cancel`. -/
def DtorPc.inCancel : DtorPc → Bool
  | .cancelling _ => true
  | _ => false

/-- The stop side does not win while the callback is between its two steps, and
the callback does not take its first step after the stop side won; `start()` has
assigned `timerId` in both. The destructor that is already in `Cancel` waits for
the callback. -/
def TimedOperation.StopApart {σ : Type} (o : TimedOperation σ) : OpAct → Prop
  | .stop => o.stopPc = .swapping → o.state = .pending → o.startPc = .returned →
      o.timerPc ≠ .swapping
  | .timer => o.timerPc = .clearing → o.state = .stopWon → o.startPc = .returned →
      o.dtorPc.inCancel = true
  | _ => True

instance {σ : Type} (o : TimedOperation σ) : ∀ a, Decidable (o.StopApart a)
  | .stop => inferInstanceAs (Decidable (_ → _ → _ → _))
  | .timer => inferInstanceAs (Decidable (_ → _ → _ → _))
  | .start | .dequeue | .execute | .destroy | .other => .isTrue trivial

/-- The lifetime of one operation, as its steps see it. -/
def TimedOperation.Lifetime {σ : Type} (o : TimedOperation σ) : OpAct → Prop
  | .destroy => o.dtorPc ≠ .idle ∨ o.startPc = .returned ∧ 0 < o.completions.length
  | _ => True

/-- The invariant of an operation whose stop side and callback stay apart. -/
structure DtorInv {σ : Type} (v : OpView σ) : Prop where
  life : v.op.dtorPc ≠ .idle → v.op.startPc = .returned ∧ 0 < v.op.completions.length
  runs : v.op.timerPc.left = true ∨ v.op.timerPc = .returning → v.running
  won : v.op.dtorPc ≠ .finished → v.op.state = .timerWon →
    v.op.timerPc = .enqueuing ∨ v.op.timerPc = .returning ∨ v.op.timerPc = .returned
  /-- A callback that could outlive the operation is known to somebody who will
  cancel it. -/
  known : v.op.dtorPc ≠ .finished →
    v.scheduled ∨ v.op.timerPc = .clearing ∨ v.op.timerPc = .swapping ∧ v.op.state = .stopWon →
      v.op.startPc = .assigning v.op.issuedId ∨ v.op.timerId = v.op.issuedId ∨
        v.op.stopPc = .cancelling v.op.issuedId ∨ v.op.dtorPc = .cancelling v.op.issuedId
  dereg : v.op.stopPc = .deregistered ↔ v.op.dtorPc ≠ .idle ∧ v.op.dtorPc ≠ .resetting
  arg : ∀ id, v.op.dtorPc = .cancelling id → v.op.timerPc.left = true ∨ v.scheduled →
    id = v.op.issuedId
  safe : v.op.dtorPc = .finished → v.op.timerPc.left = false ∧ ¬ v.scheduled
  gone : v.op.dtorPc = .finished →
    v.queued = 0 ∧ v.op.execPc = .idle ∧ v.op.completions.length = 1

section Step

variable {σ : Type} {v v' : OpView σ} {a : OpAct}

theorem OpStep.dtor_life (h : OpStep v a v') (hd : DtorInv v) (hl : v.op.Lifetime a)
    (hne : v'.op.dtorPc ≠ .idle) : v'.op.startPc = .returned ∧ 0 < v'.op.completions.length := by
  have hv : v.op.startPc = .returned ∧ 0 < v.op.completions.length := by
    by_cases ha : a = .destroy
    · subst ha
      exact hl.elim hd.life id
    · exact hd.life (h.keeps_dtorPc ha ▸ hne)
  exact ⟨(h.keeps_startPc (h.not_start hv.1)).trans hv.1, hv.2.trans_le h.completions_le⟩

theorem OpStep.dtor_runs (h : OpStep v a v') (hd : DtorInv v)
    (hv : v.op.dtorPc ≠ .finished → OpInv v) (ho : OwnIds v.op) :
    v'.op.timerPc.left = true ∨ v'.op.timerPc = .returning → v'.running := by
  cases h with
  | startSchedule hp hid =>
    -- the timer has not been scheduled before
    have halive : v.op.dtorPc ≠ .finished := fun hf => by
      have hr := (hd.life (by simp [hf])).1
      exact absurd (hp.symm.trans hr) nofun
    have hidle : v.op.timerPc = .idle := (hv halive).unscheduled (.inl (ho.fresh (by simp [hp])))
    simp [hidle, TimerPc.left]
  | fire hid hs => exact fun _ => trivial
  | timerClear hp | timerWin hp | timerLose hp | timerEnqueue hp =>
    exact fun _ => hd.runs (.inl (by simp [hp, TimerPc.left]))
  | done hp hr => simp [TimerPc.left]
  | _ => exact hd.runs

theorem OpStep.dtor_won (h : OpStep v a v') (hd : DtorInv v)
    (hv : v.op.dtorPc ≠ .finished → OpInv v) (hf : v'.op.dtorPc ≠ .finished) :
    v'.op.state = .timerWon →
      v'.op.timerPc = .enqueuing ∨ v'.op.timerPc = .returning ∨ v'.op.timerPc = .returned := by
  have halive := h.not_finished hf
  have hwon := hd.won halive
  cases h with
  | fire hid hs =>
    have hidle : v.op.timerPc = .idle := (hv halive).unscheduled (.inr hs)
    exact fun hw => absurd (hwon hw) (by simp [hidle])
  | timerClear hp => exact fun hw => absurd (hwon hw) (by simp [hp])
  | timerWin hp => exact fun _ => .inl rfl
  | timerLose hp | timerEnqueue hp => exact fun _ => .inr (.inl rfl)
  | done hp => exact fun _ => .inr (.inr rfl)
  | stopWin hp => exact nofun
  | _ => exact hwon

theorem DtorPc.inCancel_iff {pc : DtorPc} : pc.inCancel = true ↔ ∃ id, pc = .cancelling id := by
  cases pc <;> simp [DtorPc.inCancel]

/-- The callback is entered after `ScheduleAt`. -/
theorem OpInv.scheduled (hv : OpInv v) (ho : OwnIds v.op) (ht : v.op.timerPc ≠ .idle) :
    v.op.startPc = .returned ∨ v.op.startPc = .assigning v.op.issuedId := by
  have h1 : v.op.issuedId ≠ InvalidTimerId := fun h => ht (hv.unscheduled (.inl h))
  have h2 := ho.fresh
  have h3 := ho.assigning
  cases hs : v.op.startPc <;> simp_all

theorem OpStep.dtor_known (h : OpStep v a v') (hd : DtorInv v)
    (hv : v.op.dtorPc ≠ .finished → OpInv v) (ho : OwnIds v.op) (ha : v.op.StopApart a) :
    v'.op.dtorPc ≠ .finished →
      v'.scheduled ∨ v'.op.timerPc = .clearing ∨ v'.op.timerPc = .swapping ∧ v'.op.state = .stopWon →
        v'.op.startPc = .assigning v'.op.issuedId ∨ v'.op.timerId = v'.op.issuedId ∨
          v'.op.stopPc = .cancelling v'.op.issuedId ∨ v'.op.dtorPc = .cancelling v'.op.issuedId := by
  intro hf hleft
  have halive := h.not_finished hf
  have hv := hv halive
  have hknown := hd.known halive
  cases h with
  | startRegister hp | startStopped hp =>
    -- no stop callback ran before `start()`
    obtain hs | hs := hv.unstarted hp
    · simpa [hp, hs] using hknown hleft
    · simpa [hp, hs] using hknown hleft
  | startEmplaced hp => simpa [hp] using hknown hleft
  | startLoad hp =>
    have hold := hknown hleft
    simp only [hp, reduceCtorEq, false_or] at hold
    exact .inr hold
  | startSchedule hp hid => exact .inl rfl
  | startAssign hp => exact .inr (.inl (ho.assigning _ hp))
  | fire hid hs => exact hknown (.inl hs)
  | timerClear hp =>
    -- the id is cleared; if the stop side won, the destructor is already in `Cancel`
    have hne : v.op.timerPc ≠ .idle := by simp [hp]
    obtain hs | hc | ⟨-, hw⟩ := hleft
    · exact absurd (hv.unscheduled (.inr hs)) hne
    · cases hc
    obtain hr | hr := hv.scheduled ho hne
    · obtain ⟨id, hid⟩ := DtorPc.inCancel_iff.mp (ha hp hw hr)
      have heq : id = v.op.issuedId := hd.arg id hid (.inl (by simp [hp, TimerPc.left]))
      exact .inr (.inr (.inr (heq ▸ hid)))
    · exact .inl hr
  | timerWin hp | timerLose hp | timerEnqueue hp | done hp =>
    simp only [reduceCtorEq, false_and, or_false] at hleft
    exact hknown (.inl hleft)
  | stopBegin hp | stopTest hp | stopLose hp | stopEnqueue hp =>
    have hold := hknown hleft
    simp only [hp, reduceCtorEq, false_or] at hold
    exact hold.imp_right fun h => h.imp_right .inr
  | stopExchange hp =>
    obtain hs | ht | hc | hc := hknown hleft
    · exact .inl hs
    · exact .inr (.inr (.inl (congrArg StopPc.cancelling ht)))
    · cases hp.symm.trans hc
    · exact .inr (.inr (.inr hc))
  | @stopCancel id hp hr =>
    -- a callback that has begun would keep `Cancel` of its own id waiting
    have hstop (hc : v.op.stopPc = .cancelling v.op.issuedId) : False := by
      have hid : id = v.op.issuedId := by simpa using hp.symm.trans hc
      have hrun : v.op.timerPc.left = true → False := fun hl => hr hid (hd.runs (.inl hl))
      dsimp only at hleft
      obtain hs | ht | ⟨ht, -⟩ := hleft
      · exact hs.2 hid.symm
      · exact hrun (by simp [ht, TimerPc.left])
      · exact hrun (by simp [ht, TimerPc.left])
    obtain hs | ht | hc | hc := hknown (hleft.imp_left And.left)
    · exact .inl hs
    · exact .inr (.inl ht)
    · exact absurd hc hstop
    · exact .inr (.inr (.inr hc))
  | stopWin hp hw =>
    obtain hs | ht | ⟨ht, -⟩ := hleft
    · simpa [hp] using hknown (.inl hs)
    · simpa [hp] using hknown (.inr (.inl ht))
    · -- the callback is between its steps, so `start()` has not returned
      obtain hr | hr := hv.scheduled ho (by simp [show v.op.timerPc = .swapping from ht])
      · exact absurd ht (ha hp hw hr)
      · exact .inl hr
  | dtorEnter hp => simpa [hp] using hknown hleft
  | dtorReset hp hs =>
    have hne : v.op.stopPc ≠ .cancelling v.op.issuedId := fun he => by simp [he, StopPc.running] at hs
    simpa [hp, hne] using hknown hleft
  | dtorTest hp | dtorRead hp =>
    have hold := hknown hleft
    simp only [hp, reduceCtorEq, or_false] at hold
    exact hold.imp_right fun h => h.imp_right .inl
  | dtorCancel hp => exact absurd rfl hf
  | _ => exact hknown hleft

theorem OpStep.dtor_dereg (h : OpStep v a v') (hd : DtorInv v) :
    v'.op.stopPc = .deregistered ↔ v'.op.dtorPc ≠ .idle ∧ v'.op.dtorPc ≠ .resetting := by
  have hdereg := hd.dereg
  cases h with
  | startRegister hp | startStopped hp =>
    have hidle : v.op.dtorPc = .idle := by
      by_contra hne
      exact absurd (hp.symm.trans (hd.life hne).1) nofun
    simp [hidle]
  | stopBegin hp | stopExchange hp | stopCancel hp | stopWin hp | stopLose hp | stopEnqueue hp =>
    simp only [hp, reduceCtorEq, false_iff] at hdereg ⊢
    exact hdereg
  | stopTest hp =>
    simp only [hp, reduceCtorEq, false_iff] at hdereg
    refine iff_of_false ?_ hdereg
    dsimp only
    split <;> nofun
  | dtorEnter hp => simpa [hp] using hdereg
  | dtorReset hp => simp
  | dtorTest hp =>
    simp only [hp, ne_eq, reduceCtorEq, not_false_eq_true, and_self, iff_true] at hdereg
    refine iff_of_true hdereg ?_
    dsimp only
    split <;> simp
  | dtorRead hp | dtorCancel hp => simpa [hp] using hdereg
  | _ => exact hdereg

/-- A completed operation is neither queued, about to be queued nor executed. -/
theorem OpInv.once (hv : OpInv v) (hc : 0 < v.op.completions.length) :
    v.queued = 0 ∧ v.op.enqueuing = 0 ∧ v.op.execPc = .idle ∧ v.op.completions.length = 1 := by
  have hle : (if v.op.state = .pending then 0 else 1) ≤ 1 := by split <;> omega
  have h0 := hv.account
  have hidle : v.op.execPc = .idle := by
    by_contra hn
    rw [TimedOperation.executing, if_neg hn] at h0
    omega
  exact ⟨by omega, by omega, hidle, by omega⟩

theorem OpInv.decided (hv : OpInv v) (hc : 0 < v.op.completions.length) : v.op.state ≠ .pending := by
  intro hs
  have h0 := hv.account
  rw [if_pos hs] at h0
  omega

/-- A completed operation has a callback left only if the stop side won. -/
theorem DtorInv.left (hd : DtorInv v) (hv : OpInv v) (hf : v.op.dtorPc ≠ .finished)
    (hc : 0 < v.op.completions.length) (hl : v.op.timerPc.left = true) :
    v.op.timerPc = .clearing ∨ v.op.timerPc = .swapping ∧ v.op.state = .stopWon := by
  cases ht : v.op.timerPc with
  | clearing => exact .inl rfl
  | swapping =>
    cases hs : v.op.state with
    | pending => exact absurd hs (hv.decided hc)
    | timerWon => exact absurd (hd.won hf hs) (by simp [ht])
    | stopWon => exact .inr ⟨rfl, rfl⟩
  | enqueuing =>
    have henq := (hv.once hc).2.1
    simp [TimedOperation.enqueuing, ht] at henq
  | idle | returning | returned => simp [ht, TimerPc.left] at hl

/-- After `Reset` of the stop callback, the destructor finds the id of a callback
that could outlive the operation, or is about to cancel it. -/
theorem DtorInv.found (hd : DtorInv v) (hv : OpInv v) (hf : v.op.dtorPc ≠ .finished)
    (hi : v.op.dtorPc ≠ .idle) (hr : v.op.dtorPc ≠ .resetting)
    (hl : v.op.timerPc.left = true ∨ v.scheduled) :
    v.op.timerId = v.op.issuedId ∨ v.op.dtorPc = .cancelling v.op.issuedId := by
  obtain ⟨hs, hc⟩ := hd.life hi
  have hknown := hd.known hf (hl.elim (fun h => .inr (hd.left hv hf hc h)) .inl)
  simpa [hs, hd.dereg.mpr ⟨hi, hr⟩] using hknown

theorem OpStep.dtor_arg (h : OpStep v a v') (hd : DtorInv v)
    (hv : v.op.dtorPc ≠ .finished → OpInv v) :
    ∀ id, v'.op.dtorPc = .cancelling id → v'.op.timerPc.left = true ∨ v'.scheduled →
      id = v'.op.issuedId := by
  intro id hid hleft
  have harg := hd.arg id
  cases h with
  | startSchedule hp =>
    have hr := (hd.life (by simp [show v.op.dtorPc = .cancelling id from hid])).1
    cases hp.symm.trans hr
  | fire hs hsched => exact harg hid (.inr hsched)
  | timerClear hp | timerWin hp => exact harg hid (.inl (by simp [hp, TimerPc.left]))
  | timerLose hp | timerEnqueue hp | done hp => exact harg hid (hleft.imp_left nofun)
  | stopCancel hp => exact harg hid (hleft.imp_right And.left)
  | dtorTest hp =>
    dsimp only at hid
    split at hid <;> cases hid
  | dtorRead hp =>
    cases hid
    have hf : v.op.dtorPc ≠ .finished := by simp [hp]
    have hfound := hd.found (hv hf) hf (by simp [hp]) (by simp [hp]) hleft
    simpa [hp] using hfound
  | dtorEnter | dtorReset | dtorCancel => cases hid
  | _ => exact harg hid hleft

theorem OpStep.dtor_safe (h : OpStep v a v') (hd : DtorInv v)
    (hv : v.op.dtorPc ≠ .finished → OpInv v) (hs : v.scheduled → v.op.issuedId ≠ InvalidTimerId) :
    v'.op.dtorPc = .finished → v'.op.timerPc.left = false ∧ ¬ v'.scheduled := by
  intro hf'
  have hsafe := hd.safe
  cases h with
  | startSchedule hp =>
    have hr := (hd.life (by simp [show v.op.dtorPc = .finished from hf'])).1
    cases hp.symm.trans hr
  | fire hid hsched => exact absurd hsched (hsafe hf').2
  | timerClear hp | timerWin hp | timerLose hp | timerEnqueue hp =>
    have hleft := (hsafe hf').1
    simp [hp, TimerPc.left] at hleft
  | done hp => exact ⟨rfl, (hsafe hf').2⟩
  | stopCancel hp => exact (hsafe hf').imp_right fun hn h => hn h.1
  | dtorTest hp =>
    -- the id is cleared, so no callback is left to wait for
    have hf : v.op.dtorPc ≠ .finished := by simp [hp]
    have hzero : v.op.timerId = InvalidTimerId := by
      dsimp only at hf'
      by_contra hne
      rw [if_neg hne] at hf'
      cases hf'
    have hnone : ¬ (v.op.timerPc.left = true ∨ v.scheduled) := fun hl => by
      have hid : v.op.timerId = v.op.issuedId := by
        simpa [hp] using hd.found (hv hf) hf (by simp [hp]) (by simp [hp]) hl
      have hinvalid : v.op.issuedId = InvalidTimerId := hid.symm.trans hzero
      obtain hl | hl := hl
      · simp [(hv hf).unscheduled (.inl hinvalid), TimerPc.left] at hl
      · exact hs hl hinvalid
    exact ⟨(Bool.not_eq_true _).mp fun hl => hnone (.inl hl), fun hl => hnone (.inr hl)⟩
  | @dtorCancel id hp hr =>
    refine ⟨(Bool.not_eq_true _).mp fun hl => ?_, fun ⟨hsched, hne⟩ => ?_⟩
    · exact hr (hd.arg id hp (.inl hl)) (hd.runs (.inl hl))
    · exact hne (hd.arg id hp (.inr hsched)).symm
  | dtorEnter | dtorReset | dtorRead => cases hf'
  | _ => exact hsafe hf'

/-- Nothing happens to a destroyed operation any more. -/
theorem OpStep.dtor_gone (h : OpStep v a v') (hd : DtorInv v)
    (hv : v.op.dtorPc ≠ .finished → OpInv v) :
    v'.op.dtorPc = .finished →
      v'.queued = 0 ∧ v'.op.execPc = .idle ∧ v'.op.completions.length = 1 := by
  intro hf'
  have hgone := hd.gone
  cases h with
  | timerEnqueue hp =>
    have hleft := (hd.safe hf').1
    simp [hp, TimerPc.left] at hleft
  | stopEnqueue hp =>
    have hdereg := hd.dereg.mpr (by simp [show v.op.dtorPc = .finished from hf'])
    cases hp.symm.trans hdereg
  | dequeue hq => exact absurd (hgone hf').1 hq.ne'
  | execLoad hp | execSignal hp => cases hp.symm.trans (hgone hf').2.1
  | dtorTest hp | dtorCancel hp =>
    obtain ⟨hq, -, he, hc⟩ := (hv (by simp [hp])).once (hd.life (by simp [hp])).2
    exact ⟨hq, he, hc⟩
  | dtorEnter | dtorReset | dtorRead => cases hf'
  | _ => exact hgone hf'

theorem OpStep.dtorInv (h : OpStep v a v') (hd : DtorInv v)
    (hv : v.op.dtorPc ≠ .finished → OpInv v) (ho : OwnIds v.op)
    (hs : v.scheduled → v.op.issuedId ≠ InvalidTimerId) (hl : v.op.Lifetime a)
    (ha : v.op.StopApart a) : DtorInv v' :=
  ⟨h.dtor_life hd hl, h.dtor_runs hd hv ho, h.dtor_won hd hv, h.dtor_known hd hv ho ha,
    h.dtor_dereg hd, h.dtor_arg hd hv, h.dtor_safe hd hv hs, h.dtor_gone hd hv⟩

end Step

variable {ι σ : Type} [DecidableEq ι] [DecidableEq σ] {B : ITimerBackend ι} {C : B.Contract}
  {now : TimePoint} {deadline : ι → TimePoint} {token : ι → σ}

/-- The condition on the steps of the system: each operation's stop side and
callback stay apart. -/
def StopApart (s : TimedLoop ι σ B) (a : TimedAction ι σ B) : Prop :=
  ∀ i, (s.ops i).StopApart (a.on i)

omit [DecidableEq σ] in
theorem lifetime_on {s : TimedLoop ι σ B} {a : TimedAction ι σ B} (h : s.lifetime a = true) (i : ι) :
    (s.ops i).Lifetime (a.on i) := by
  cases a <;> simp only [TimedAction.on] <;> try split
  all_goals simp_all [TimedLoop.lifetime, TimedOperation.Lifetime, List.length_pos_iff]

omit [DecidableEq σ] in
theorem DtorInv.init (i : ι) : DtorInv (view C (TimedLoop.init B now deadline token) i) := by
  have hs : ¬ (view C (TimedLoop.init B now deadline token) i).scheduled := by
    simp only [view, TimedLoop.init, C.timers_init, Timers.empty, not_false_eq_true]
  constructor <;> simp_all [view, TimedLoop.init, TimerPc.left]

theorem DtorInv.reach {s : TimedLoop ι σ B}
    (h : ((TimedLoop.lts B now deadline token).restrict TimedLoop.lifetime).Reach StopApart s) (i : ι) :
    DtorInv (view C s i) := by
  refine (h.invariant (I := fun s => Inv C s ∧ ∀ i, DtorInv (view C s i)) ⟨.init, .init⟩ ?_).2 i
  intro s₁ s₂ a hI ha he
  obtain ⟨hl, he⟩ := Lts.restrict_step.mp he
  refine ⟨hI.1.step he, fun i => ?_⟩
  exact (step_view hI.1.ids he i).dtorInv (hI.2 i) (hI.1.ops i) (hI.1.ids.own i)
    (hI.1.ids.scheduled_ne i) (lifetime_on hl i) (ha i)

/-- The callback of the operation `i` has a step left: it is executing in it, or
the backend has yet to enter it. -/
def CallbackLeft (s : TimedLoop ι σ (threadTimerBackend ι)) (i : ι) : Prop :=
  (s.ops i).timerPc.left = true ∨ ∃ id d, (ThreadTimerBackend.timers s.backend).scheduled id d i

/-- In a run in which the stop side and the callback stay apart, the destructor
does not finish before the last step of the callback. -/
theorem destroy_waits {s : TimedLoop ι σ (threadTimerBackend ι)}
    (h : ((TimedLoop.lts (threadTimerBackend ι) now deadline token).restrict
      TimedLoop.lifetime).Reach StopApart s) (i : ι) (hf : (s.ops i).dtorPc = .finished) :
    ¬ CallbackLeft s i := by
  obtain ⟨hl, hs⟩ := (DtorInv.reach (C := threadTimerBackend_contract ι) h i).safe hf
  rintro (ht | ⟨id, d, hsch⟩)
  · exact absurd (ht.symm.trans hl) (by decide)
  · obtain ⟨rfl, rfl, -⟩ := (Inv.reach (C := threadTimerBackend_contract ι)
      (Lts.Path.of_restrict h)).ids.scheduled hsch
    exact hs hsch

instance [Fintype ι] (s : TimedLoop ι σ B) (a : TimedAction ι σ B) : Decidable (StopApart s a) :=
  inferInstanceAs (Decidable (∀ i, (s.ops i).StopApart (a.on i)))

/-- The timer wins, the operation completes and is destroyed. -/
theorem destroy_waits_fired : ∃ s, (oneTimer.restrict TimedLoop.lifetime).Reach StopApart s ∧
    (s.ops ()).dtorPc = .finished ∧ ¬ CallbackLeft s () := by
  obtain ⟨s, hs, hq⟩ := Lts.Reach.of_run (oneTimer.restrict TimedLoop.lifetime) StopApart
    (fired.append [.timer () false, .timer () false, .timer () false, .dequeue (), .execute (),
      .execute (), .destroy (), .destroy (), .destroy ()])
    (fun s => (s.ops ()).dtorPc = .finished) (by decide +kernel)
  exact ⟨s, hs, of_decide_eq_true hq, destroy_waits hs () (of_decide_eq_true hq)⟩

/-- The callback clears `timerId`; before its compare-exchange a stop is
requested, so the stop side skips `Cancel` and wins, the loop thread completes the
operation, and the destructor skips `Cancel` too: it finishes with the callback
about to exchange the state. -/
theorem destroy_overtakes : ∃ s, (oneTimer.restrict TimedLoop.lifetime).Reach Lts.Any s ∧
    (s.ops ()).dtorPc = .finished ∧ CallbackLeft s () := by
  obtain ⟨s, hs, hq⟩ := Lts.Reach.of_run (oneTimer.restrict TimedLoop.lifetime) Lts.Any
    (fired.append [.timer () false, .requestStop (), .stop (), .stop (), .stop (), .stop (),
      .dequeue (), .execute (), .execute (), .destroy (), .destroy (), .destroy ()])
    (fun s => (s.ops ()).dtorPc = .finished ∧ (s.ops ()).timerPc.left = true) (by decide +kernel)
  obtain ⟨hf, hl⟩ := of_decide_eq_true hq
  exact ⟨s, hs, hf, .inl hl⟩

end TX.Exec
