import TxPkgAux.Impl.Exec.Domain
import TxPkgAux.Proof.Exec.TimedDestroy

/-!
# `Domain::Stop()`

`Stop()` drains the queue with `try_dequeue`, which does not wait for a timer
callback that won and is about to enqueue. `Domain.Apart` is the condition that it
meets none, and that the stop callback does not win over a timer callback that
cleared `timerId`; `stop_completes` says that then every started operation has
completed once when the operation states are destroyed, and that no destroyed
operation is ever in the queue. `stop_overtakes` is a run without the condition.

`LoopStep` is what a step of the loop thread is for one operation, next to
`OpStep`; `DomainInv` is the invariant proved by cases on both. The stop callback
runs on the loop thread, never beside `start()`, so it leaves no timer behind
(`clean`): the operations meet the condition `StopApart` of the destructor.
-/

namespace TX.Exec

/-- The loop thread's part of a step, for one operation: the function of it that
is in progress before (`cur`) and after (`cur'`). -/
def LoopStep (phase : Phase) (o o' : TimedOperation Unit) (cur cur' : Option LoopFn) : OpAct → Prop
  | .start => (cur = some .start ∨
        cur = none ∧ (phase = .running ∨ phase = .draining) ∧ o.startPc = .idle) ∧
      cur' = if o'.startPc = .returned then none else some .start
  | .stop => (cur = some .stop ∨ cur = none ∧ phase = .notifying ∧ o.stopPc = .registered) ∧
        cur' = (if o'.stopPc.running then some .stop else none) ∨
      cur = some .start ∧ o.startPc = .emplacing ∧ cur' = some .start
  | .dequeue => cur = none ∧ (phase = .running ∨ phase = .draining) ∧ cur' = some .execute
  | .execute => cur = some .execute ∧ cur' = if o'.execPc = .idle then none else some .execute
  | .destroy => (cur = some .destroy ∨ cur = none ∧ o.startPc ≠ .idle ∧ o.dtorPc = .idle ∧
        (0 < o.completions.length ∨ phase = .resetting)) ∧
      cur' = if o'.dtorPc = .finished then none else some .destroy
  | .timer | .other => cur' = cur

/-- The invariant of an operation of a domain. -/
structure DomainInv (v : OpView Unit) (phase : Phase) (cur : Option LoopFn) : Prop where
  starting : v.op.startPc ≠ .idle → v.op.startPc ≠ .returned → cur = some .start
  stopping : v.op.stopPc.running = true →
    cur = some .stop ∨ cur = some .start ∧ v.op.startPc = .emplacing
  executing : v.op.execPc ≠ .idle → cur = some .execute
  inStart : cur = some .start →
    v.op.startPc ≠ .idle ∧ v.op.startPc ≠ .returned ∧ v.op.dtorPc = .idle
  inStop : cur = some .stop → v.op.startPc = .returned ∧ v.op.dtorPc = .idle
  inDestroy : cur = some .destroy → v.op.dtorPc ≠ .idle
  destroying : v.op.dtorPc ≠ .idle → v.op.dtorPc ≠ .finished → cur = some .destroy
  flag : v.stop = true ↔ phase ≠ .running
  registered : v.op.stopPc = .unregistered ↔ v.op.startPc = .idle
  notified : phase = .draining ∨ phase = .resetting → v.op.stopPc ≠ .registered
  scheduling : v.op.startPc = .scheduling → v.op.state = .pending
  /-- The stop side leaves no timer behind. -/
  clean : (∃ id, v.op.stopPc = .cancelling id ∧ id ≠ v.op.issuedId) ∨ v.op.stopPc = .swapping ∨
    v.op.state = .stopWon → ¬ v.scheduled ∧ v.op.timerPc ≠ .clearing
  resetting : phase = .resetting → cur = none ∨ cur = some .destroy
  completed : phase = .resetting → v.op.startPc ≠ .idle → v.op.completions.length = 1

section Step

variable {v v' : OpView Unit} {a : OpAct} {phase : Phase} {cur cur' : Option LoopFn}

/-- The lifetime of the operations of a domain. -/
theorem DomainInv.lifetime {o' : TimedOperation Unit} (hm : DomainInv v phase cur)
    (hl : LoopStep phase v.op o' cur cur' a) : v.op.Lifetime a := by
  have h1 := hm.starting
  have h2 := hm.inDestroy
  have h3 := hm.completed
  cases a <;> grind -linarith -order [LoopStep, TimedOperation.Lifetime]

/-- The function of an operation that a step goes on with. -/
def OpAct.fn : OpAct → Option LoopFn
  | .start => some .start
  | .stop => some .stop
  | .dequeue | .execute => some .execute
  | .destroy => some .destroy
  | .timer | .other => none

/-- A step of one function neither enters nor leaves another. -/
theorem LoopStep.other {o o' : TimedOperation Unit} {f : LoopFn} (hl : LoopStep phase o o' cur cur' a)
    (hf : a.fn ≠ some f) : cur' = some f ↔ cur = some f := by
  cases a <;> grind -linarith -order [LoopStep, OpAct.fn]

/-- The loop thread is in the function that it goes on with, or in none. -/
theorem LoopStep.cur_of_fn {o o' : TimedOperation Unit} {f : LoopFn} (hl : LoopStep phase o o' cur cur' a)
    (hf : a.fn = some f) (hstop : f ≠ .stop) : (cur = some f ∨ cur = none) ∧ (cur' = some f ∨ cur' = none) := by
  cases a <;> grind -linarith -order [LoopStep, OpAct.fn]

theorem OpStep.domain_starting (h : OpStep v a v') (hm : DomainInv v phase cur) (hd : DtorInv v)
    (hl : LoopStep phase v.op v'.op cur cur' a) :
    (v'.op.startPc ≠ .idle → v'.op.startPc ≠ .returned → cur' = some .start) ∧
      (cur' = some .start →
        v'.op.startPc ≠ .idle ∧ v'.op.startPc ≠ .returned ∧ v'.op.dtorPc = .idle) := by
  by_cases ha : a = .start
  · subst ha
    obtain ⟨hcur, hnext⟩ := hl
    have hdtor : v'.op.dtorPc = .idle := by
      rw [h.keeps_dtorPc nofun]
      obtain hc | ⟨-, -, hidle⟩ := hcur
      · exact (hm.inStart hc).2.2
      · by_contra hne
        exact absurd (hidle.symm.trans (hd.life hne).1) nofun
    refine ⟨fun _ hr => by rw [hnext, if_neg hr], fun hc => ⟨?_, ?_, hdtor⟩⟩
    · exact fun hi => (h.startPc_idle.mp hi).2 rfl
    · intro hr
      rw [hnext, if_pos hr] at hc
      cases hc
  · have hother := hl.other (f := .start) (by cases a <;> simp_all [OpAct.fn])
    rw [h.keeps_startPc ha, hother]
    refine ⟨hm.starting, fun hc => ?_⟩
    obtain ⟨hi, hr, hdtor⟩ := hm.inStart hc
    have hne : a ≠ .destroy := by
      rintro rfl
      obtain ⟨hcur, -⟩ := hl.cur_of_fn (f := .destroy) rfl nofun
      simp [hc] at hcur
    exact ⟨hi, hr, (h.keeps_dtorPc hne).trans hdtor⟩

/-- A stop callback that is still registered when nothing runs belongs to an operation whose
`start()` returned, and which is not being destroyed. -/
theorem DomainInv.of_registered (hm : DomainInv v phase none) (hd : DtorInv v)
    (hr : v.op.stopPc = .registered) : v.op.startPc = .returned ∧ v.op.dtorPc = .idle := by
  have hreturned : v.op.startPc = .returned := by
    by_contra hn
    have hi : v.op.startPc ≠ .idle := fun hi => by simp [hm.registered.mpr hi] at hr
    exact absurd (hm.starting hi hn) nofun
  refine ⟨hreturned, ?_⟩
  by_contra hdtor
  have hf : v.op.dtorPc = .finished := by
    by_contra hf
    exact absurd (hm.destroying hdtor hf) nofun
  have hdereg := hd.dereg.mpr (by simp [hf])
  simp [hr] at hdereg

theorem OpStep.domain_stopping (h : OpStep v a v') (hm : DomainInv v phase cur) (hd : DtorInv v)
    (hl : LoopStep phase v.op v'.op cur cur' a) :
    (v'.op.stopPc.running = true →
      cur' = some .stop ∨ cur' = some .start ∧ v'.op.startPc = .emplacing) ∧
      (cur' = some .stop → v'.op.startPc = .returned ∧ v'.op.dtorPc = .idle) := by
  cases a with
  | start =>
    have h1 := hm.stopping
    obtain ⟨hcur, hcur'⟩ := hl.cur_of_fn (f := .start) rfl (by simp)
    obtain ⟨-, hnext⟩ := hl
    refine ⟨?_, fun hc => by simp [hc] at hcur'⟩
    cases h <;> grind -linarith -order [StopPc.running]
  | stop =>
    rw [h.keeps_startPc (by simp), h.keeps_dtorPc (by simp)]
    obtain ⟨hcur, rfl⟩ | ⟨hcur, hemplacing, rfl⟩ := hl
    · refine ⟨fun hr => .inl (by rw [if_pos hr]), fun _ => ?_⟩
      obtain rfl | ⟨rfl, -, hr⟩ := hcur
      · exact hm.inStop rfl
      · exact hm.of_registered hd hr
    · exact ⟨fun _ => .inr ⟨rfl, hemplacing⟩, by simp⟩
  | destroy =>
    obtain ⟨hcur, hcur'⟩ := hl.cur_of_fn (f := .destroy) rfl (by simp)
    refine ⟨fun hr => ?_, fun hc => by simp [hc] at hcur'⟩
    have hr' : v.op.stopPc.running = true := by
      cases h with
      | dtorReset => cases hr
      | _ => exact hr
    obtain hc | ⟨hc, -⟩ := hm.stopping hr'
    · simp [hc] at hcur
    · simp [hc] at hcur
  | dequeue | execute | timer | other =>
    have hstop := hl.other (f := .stop) (by simp [OpAct.fn])
    have hstart := hl.other (f := .start) (by simp [OpAct.fn])
    rw [h.keeps_startPc (by simp), h.keeps_dtorPc (by simp), h.keeps_stopPc (by simp) (by simp) (by simp),
      hstop, hstart]
    exact ⟨hm.stopping, hm.inStop⟩

theorem OpStep.domain_destroying (h : OpStep v a v') (hm : DomainInv v phase cur)
    (hl : LoopStep phase v.op v'.op cur cur' a) :
    (cur' = some .destroy → v'.op.dtorPc ≠ .idle) ∧
      (v'.op.dtorPc ≠ .idle → v'.op.dtorPc ≠ .finished → cur' = some .destroy) := by
  by_cases ha : a = .destroy
  · subst ha
    refine ⟨fun _ => ?_, fun _ hf => by rw [hl.2, if_neg hf]⟩
    cases h <;> simp only [ne_eq, reduceCtorEq, not_false_eq_true]
    split <;> simp
  · rw [h.keeps_dtorPc ha, hl.other (f := .destroy) (by cases a <;> simp_all [OpAct.fn])]
    exact ⟨hm.inDestroy, hm.destroying⟩

theorem OpStep.domain_executing (h : OpStep v a v') (hm : DomainInv v phase cur)
    (hl : LoopStep phase v.op v'.op cur cur' a) : v'.op.execPc ≠ .idle → cur' = some .execute := by
  cases a with
  | dequeue => exact fun _ => hl.2.2
  | execute => exact fun hi => by rw [hl.2, if_neg hi]
  | start | stop | timer | destroy | other =>
    rw [h.keeps_execPc nofun nofun, hl.other (f := .execute) nofun]
    exact hm.executing

/-- The stop flag, and what it is known to have done. -/
theorem OpStep.domain_flag (h : OpStep v a v') (hm : DomainInv v phase cur) (hd : DtorInv v)
    (hs : v'.stop = v.stop) :
    (v'.stop = true ↔ phase ≠ .running) ∧ (v'.op.stopPc = .unregistered ↔ v'.op.startPc = .idle) ∧
      (phase = .draining ∨ phase = .resetting → v'.op.stopPc ≠ .registered) := by
  have hflag := hm.flag
  have hreg := hm.registered
  have hnot := hm.notified
  refine ⟨hs ▸ hflag, ?_⟩
  cases a with
  | start =>
    have hne : v'.op.startPc ≠ .idle := fun hi => (h.startPc_idle.mp hi).2 rfl
    cases h with
    | startRegister hp hstop =>
      refine ⟨iff_of_false nofun hne, fun hph => ?_⟩
      have hon : v.stop = true := hflag.mpr (by rintro rfl; simp at hph)
      exact absurd (hstop.symm.trans hon) nofun
    | startStopped hp hstop => exact ⟨iff_of_false nofun hne, fun _ => nofun⟩
    | startEmplaced hp hstop => exact ⟨iff_of_false (by simp [hstop]) hne, hnot⟩
    | startLoad hp | startSchedule hp hid | startAssign hp =>
      exact ⟨iff_of_false (fun hun => by simp [hp] at hreg; exact hreg hun) hne, hnot⟩
  | stop =>
    have hun : v'.op.stopPc ≠ .unregistered ∧ v'.op.stopPc ≠ .registered ∧ v.op.stopPc ≠ .unregistered := by
      cases h with
      | stopTest hp => exact ⟨by dsimp only; split <;> nofun, by dsimp only; split <;> nofun, by simp [hp]⟩
      | _ => exact ⟨nofun, nofun, by simp_all⟩
    rw [h.keeps_startPc nofun]
    exact ⟨iff_of_false hun.1 fun hi => hun.2.2 (hreg.mpr hi), fun _ => hun.2.1⟩
  | destroy =>
    rw [h.keeps_startPc nofun]
    cases h with
    | dtorReset hp hr =>
      have hstart : v.op.startPc = .returned := (hd.life (by simp [hp])).1
      exact ⟨iff_of_false nofun (by simp [hstart]), fun _ => nofun⟩
    | _ => exact ⟨hreg, hnot⟩
  | timer | dequeue | execute | other =>
    rw [h.keeps_startPc nofun, h.keeps_stopPc nofun nofun nofun]
    exact ⟨hreg, hnot⟩

/-- The state is not decided on while `start()` is about to schedule the timer. -/
theorem OpStep.domain_scheduling (h : OpStep v a v') (hm : DomainInv v phase cur)
    (hv : v.op.dtorPc ≠ .finished → OpInv v) (ho : OwnIds v.op)
    (hl : LoopStep phase v.op v'.op cur cur' a) (hs : v'.op.startPc = .scheduling) :
    v'.op.state = .pending := by
  by_cases ha : a = .start
  · subst ha
    cases h with
    | startLoad hp =>
      by_contra hn
      rw [if_neg hn] at hs
      cases hs
    | _ => cases hs
  · rw [h.keeps_startPc ha] at hs
    have hpending := hm.scheduling hs
    have hcur := hm.starting (by simp [hs]) (by simp [hs])
    have halive : v.op.dtorPc ≠ .finished := by simp [(hm.inStart hcur).2.2]
    -- the timer is not scheduled yet
    have hidle : v.op.timerPc = .idle := (hv halive).unscheduled (.inl (ho.fresh (by simp [hs])))
    by_cases hstop : a = .stop
    · subst hstop
      obtain ⟨hc, -⟩ | ⟨-, hemplacing, -⟩ := hl
      · simp [hcur] at hc
      · exact absurd (hemplacing.symm.trans hs) nofun
    · by_cases htimer : a = .timer
      · subst htimer
        cases h with
        | timerClear hp | timerWin hp | timerLose hp | timerEnqueue hp => exact absurd (hp.symm.trans hidle) nofun
      · rw [h.keeps_state htimer hstop]
        exact hpending

/-- The stop side reads no timer id: no timer was scheduled yet, or its callback has begun. -/
theorem DomainInv.stop_clean (hm : DomainInv v phase cur) (hd : DtorInv v)
    (hv : v.op.dtorPc ≠ .finished → OpInv v) (ho : OwnIds v.op)
    (hs : v.scheduled → v.op.issuedId ≠ InvalidTimerId)
    (hp : v.op.stopPc = .testing ∨ v.op.stopPc = .exchanging) (ht : v.op.timerId = InvalidTimerId) :
    ¬ v.scheduled ∧ v.op.timerPc ≠ .clearing := by
  have hrun : v.op.stopPc.running = true := by obtain he | he := hp <;> simp [he, StopPc.running]
  have hunissued (hidle : v.op.dtorPc = .idle) (he : v.op.issuedId = InvalidTimerId) :
      ¬ v.scheduled ∧ v.op.timerPc ≠ .clearing := by
    have htimer : v.op.timerPc = .idle := (hv (by simp [hidle])).unscheduled (.inl he)
    exact ⟨fun hsch => hs hsch he, by simp [htimer]⟩
  obtain hcur | ⟨hcur, hemplacing⟩ := hm.stopping hrun
  · obtain ⟨hreturned, hidle⟩ := hm.inStop hcur
    -- What is scheduled is known by the id that was read.
    have hissued (hk : v.scheduled ∨ v.op.timerPc = .clearing) : v.op.issuedId = InvalidTimerId := by
      obtain ha | ha | ha | ha := hd.known (by simp [hidle]) (hk.imp_right .inl)
      · exact absurd (hreturned.symm.trans ha) (by simp)
      · exact ha.symm.trans ht
      · obtain he | he := hp <;> exact absurd (he.symm.trans ha) (by simp)
      · exact absurd (hidle.symm.trans ha) (by simp)
    exact ⟨fun hsch => (hunissued hidle (hissued (.inl hsch))).1 hsch,
      fun hc => (hunissued hidle (hissued (.inr hc))).2 hc⟩
  · exact hunissued (hm.inStart hcur).2.2 (ho.fresh (.inr (.inl hemplacing)))

theorem OpStep.domain_clean (h : OpStep v a v') (hm : DomainInv v phase cur) (hd : DtorInv v)
    (hv : v.op.dtorPc ≠ .finished → OpInv v) (ho : OwnIds v.op)
    (hs : v.scheduled → v.op.issuedId ≠ InvalidTimerId) :
    (∃ id, v'.op.stopPc = .cancelling id ∧ id ≠ v'.op.issuedId) ∨ v'.op.stopPc = .swapping ∨
      v'.op.state = .stopWon → ¬ v'.scheduled ∧ v'.op.timerPc ≠ .clearing := by
  have hclean := hm.clean
  cases h with
  | startSchedule hp hid =>
    -- The stop side does not run, and has not won.
    have hcur := hm.starting (by simp [hp]) (by simp [hp])
    have hstop : v.op.stopPc.running = false := by
      by_contra hr
      obtain hc | ⟨-, he⟩ := hm.stopping (by simpa using hr)
      · exact absurd (hcur.symm.trans hc) (by simp)
      · exact absurd (hp.symm.trans he) (by simp)
    rintro (⟨id, hc, -⟩ | hc | hc)
    · exact absurd hstop (by simp [show v.op.stopPc = .cancelling id from hc, StopPc.running])
    · exact absurd hstop (by simp [show v.op.stopPc = .swapping from hc, StopPc.running])
    · exact absurd ((hm.scheduling hp).symm.trans hc) (by simp)
  | startRegister | startStopped | stopBegin | stopLose | stopEnqueue | dtorReset =>
    exact fun hp' => hclean (.inr (.inr (by simpa using hp')))
  | fire hid hsch hdue => exact fun hp' => absurd hsch (hclean hp').1
  | timerWin =>
    intro hp'
    have hp : (∃ id, v.op.stopPc = .cancelling id ∧ id ≠ v.op.issuedId) ∨ v.op.stopPc = .swapping :=
      hp'.imp_right fun hor => hor.resolve_right (by simp)
    exact ⟨(hclean (hp.imp_right .inl)).1, by simp⟩
  | timerClear | timerLose | timerEnqueue | done => exact fun hp' => ⟨(hclean hp').1, by simp⟩
  | stopTest hp =>
    intro hp'
    by_cases ht : v.op.timerId = InvalidTimerId
    · exact hm.stop_clean hd hv ho hs (.inl hp) ht
    · exact hclean (.inr (.inr (by simpa [ht] using hp')))
  | stopExchange hp =>
    rintro (⟨id, hc, hne⟩ | hc | hc)
    · cases hc
      exact hm.stop_clean hd hv ho hs (.inr hp) (ho.timerId.resolve_right hne)
    · cases hc
    · exact hclean (.inr (.inr hc))
  | @stopCancel id hp hr =>
    intro _
    by_cases hid : id = v.op.issuedId
    · refine ⟨fun hsch => hsch.2 hid.symm, fun hc => hr hid (hd.runs (.inl ?_))⟩
      rw [show v.op.timerPc = .clearing from hc]
      rfl
    · obtain ⟨hsch, hc⟩ := hclean (.inl ⟨id, hp, hid⟩)
      exact ⟨fun hsch' => hsch hsch'.1, hc⟩
  | stopWin hp hw => exact fun _ => hclean (.inr (.inl hp))
  | dtorCancel => exact fun hp' => ⟨fun hsch => (hclean hp').1 hsch.1, (hclean hp').2⟩
  | _ => exact hclean

/-- While `reset()` destroys the operations, no other function runs, and none completes. -/
theorem OpStep.domain_resetting (h : OpStep v a v') (hm : DomainInv v phase cur)
    (hl : LoopStep phase v.op v'.op cur cur' a) :
    (phase = .resetting → cur' = none ∨ cur' = some .destroy) ∧
      (phase = .resetting → v'.op.startPc ≠ .idle → v'.op.completions.length = 1) := by
  have hfn : phase = .resetting → a = .destroy ∨ a = .timer ∨ a = .other := by
    intro hp
    have hcur := hm.resetting hp
    cases a <;> grind -linarith -order [LoopStep]
  refine ⟨fun hp => ?_, fun hp hs => ?_⟩
  · obtain rfl | rfl | rfl := hfn hp
    · exact (hl.cur_of_fn (f := .destroy) rfl nofun).2.symm
    · exact hl ▸ hm.resetting hp
    · exact hl ▸ hm.resetting hp
  · have hne : a ≠ .start ∧ a ≠ .execute := by
      obtain rfl | rfl | rfl := hfn hp <;> exact ⟨nofun, nofun⟩
    rw [h.keeps_completions hne.2]
    exact hm.completed hp (h.keeps_startPc hne.1 ▸ hs)

theorem OpStep.domainInv (h : OpStep v a v') (hm : DomainInv v phase cur) (hd : DtorInv v)
    (hv : v.op.dtorPc ≠ .finished → OpInv v) (ho : OwnIds v.op)
    (hs : v.scheduled → v.op.issuedId ≠ InvalidTimerId)
    (hl : LoopStep phase v.op v'.op cur cur' a) (hf : v'.stop = v.stop) :
    DomainInv v' phase cur' := by
  obtain ⟨h1, h2⟩ := h.domain_starting hm hd hl
  obtain ⟨h3, h4⟩ := h.domain_stopping hm hd hl
  have h5 := h.domain_executing hm hl
  obtain ⟨h6, h7⟩ := h.domain_destroying hm hl
  obtain ⟨h8, h9, h10⟩ := h.domain_flag hm hd hf
  obtain ⟨h11, h12⟩ := h.domain_resetting hm hl
  exact ⟨h1, h3, h5, h2, h4, h6, h7, h8, h9, h10, h.domain_scheduling hm hv ho hl,
    h.domain_clean hm hd hv ho hs, h11, h12⟩

end Step

/-! ## The loop thread -/

variable {ι : Type} [DecidableEq ι]

/-- The function of the operation `i` that the loop thread is in. -/
def Domain.on (d : Domain ι) (i : ι) : Option LoopFn :=
  d.current.bind fun c => if c.2 = i then some c.1 else none

/-- Every step of the operations is one of the loop thread, or leaves it where it
is. -/
theorem Domain.step_on {d d' : Domain ι} {a : TimedAction ι Unit (threadTimerBackend ι)}
    (he : d.step (.op a) = some d') (i : ι) (hb : i ∈ d.started → (d.loop.ops i).startPc ≠ .idle) :
    LoopStep d.phase (d.loop.ops i) (d'.loop.ops i) (d.on i) (d'.on i) (a.on i) := by
  simp only [Domain.step] at he
  split at he <;> [skip; cases he]
  rename_i hmay
  obtain ⟨l, hl, rfl⟩ := Option.map_eq_some_iff.mp he
  cases a with
  | start j | stop j | dequeue j | execute j | destroy j =>
    simp only [Domain.may, decide_eq_true_eq, List.isEmpty_eq_false_iff, ← List.length_pos_iff] at hmay
    simp only [TimedAction.on, Domain.on, Domain.next]
    by_cases hij : j = i
    · subst hij
      grind -linarith -order [LoopStep]
    · grind -linarith -order [LoopStep]
  | requestStop => cases hmay
  | timer j freed =>
    simp only [TimedAction.on]
    split <;> rfl
  | clock | backend | fire | done => rfl

/-- The condition on the steps of a domain: the stop callback does not win while
the timer callback is between clearing `timerId` and its exchange, and
`DrainQueue()` does not return while a timer callback is about to enqueue. -/
def Domain.Apart (d : Domain ι) : DomainAction ι → Prop
  | .op (.stop i) => (d.loop.ops i).stopPc = .swapping → (d.loop.ops i).state = .pending →
      (d.loop.ops i).timerPc ≠ .swapping
  | .drained => ∀ i ∈ d.started, (d.loop.ops i).timerPc ≠ .enqueuing
  | _ => True

instance (d : Domain ι) : ∀ a, Decidable (d.Apart a)
  | .op (.stop _) => inferInstanceAs (Decidable (_ → _ → _))
  | .drained => inferInstanceAs (Decidable (∀ i ∈ d.started, _))
  | .op (.start _) | .op (.timer _ _) | .op (.dequeue _) | .op (.execute _) | .op (.destroy _)
  | .op (.requestStop _) | .op (.clock _) | .op (.backend _) | .op (.fire _) | .op (.done _)
  | .stop | .notified => .isTrue trivial

/-- The operations of a domain meet the condition of the destructor. -/
theorem DomainInv.stopApart {d : Domain ι} {a : TimedAction ι Unit (threadTimerBackend ι)}
    {v : OpView Unit} {cur : Option LoopFn} {i : ι} (hv : v.op = d.loop.ops i)
    (hm : DomainInv v d.phase cur) (ha : d.Apart (.op a)) : (d.loop.ops i).StopApart (a.on i) := by
  have h1 := hm.clean
  rw [hv] at h1
  cases a <;> simp only [TimedAction.on] <;> try split
  all_goals grind -linarith -order [TimedOperation.StopApart, Domain.Apart]

/-- The invariant of a domain. -/
structure Domain.Inv (d : Domain ι) : Prop where
  loop : Exec.Inv (threadTimerBackend_contract ι) d.loop
  dtor : ∀ i, DtorInv (view (threadTimerBackend_contract ι) d.loop i)
  ops : ∀ i, DomainInv (view (threadTimerBackend_contract ι) d.loop i) d.phase (d.on i)
  started : ∀ i, i ∈ d.started ↔ (d.loop.ops i).startPc ≠ .idle

theorem step_stopRequested {s s' : TimedLoop ι Unit (threadTimerBackend ι)}
    {a : TimedAction ι Unit (threadTimerBackend ι)} (he : s.step a = some s')
    (ha : a ≠ .requestStop ()) : s'.stopRequested = s.stopRequested := by
  cases a <;> grind -linarith -order [TimedLoop.step, TimedLoop.start, TimedLoop.timer, TimedLoop.stop,
    TimedLoop.dequeue, TimedLoop.execute, TimedLoop.destroy, TimedLoop.fire, TimedLoop.done,
    TimedLoop.setOp, TimedLoop.enqueue, Option.map_eq_some_iff, Option.bind_eq_some_iff]

theorem Domain.Inv.op {d d' : Domain ι} {a : TimedAction ι Unit (threadTimerBackend ι)} (h : d.Inv)
    (ha : d.Apart (.op a)) (he : d.step (.op a) = some d') : d'.Inv := by
  have hl := fun i => Domain.step_on he i (h.started i).mp
  simp only [Domain.step] at he
  split at he <;> [skip; cases he]
  rename_i hmay
  obtain ⟨l, hs, rfl⟩ := Option.map_eq_some_iff.mp he
  have hv := fun i => step_view h.loop.ids hs i
  have hsch := h.loop.ids.scheduled_ne
  have hr : l.stopRequested = d.loop.stopRequested :=
    step_stopRequested hs fun e => by simp [e, Domain.may] at hmay
  refine ⟨h.loop.step hs, fun i => ?_, fun i => ?_, fun i => ?_⟩
  · exact (hv i).dtorInv (h.dtor i) (h.loop.ops i) (h.loop.ids.own i) (hsch i)
      ((h.ops i).lifetime (hl i)) ((h.ops i).stopApart rfl ha)
  · refine (hv i).domainInv (h.ops i) (h.dtor i) (h.loop.ops i) (h.loop.ids.own i) (hsch i) (hl i) ?_
    exact congrFun hr ()
  · have hi := (hv i).startPc_idle
    have hb := h.started i
    cases a <;> grind -linarith -order [Domain.nextStarted, TimedAction.on, view]

/-! ## The phases of `Stop()` -/

theorem Domain.on_of_none {d : Domain ι} (h : d.current = none) (i : ι) : d.on i = none := by
  simp [Domain.on, h]

theorem Domain.Inv.stop {d d' : Domain ι} (h : d.Inv) (he : d.step .stop = some d') : d'.Inv := by
  simp only [Domain.step] at he
  split at he <;> [skip; cases he]
  rename_i hp
  obtain ⟨l, hs, rfl⟩ := Option.map_eq_some_iff.mp he
  refine ⟨h.loop.step hs, fun i => ?_, fun i => ?_, ?_⟩
  · exact (step_view h.loop.ids hs i).dtorInv (h.dtor i) (h.loop.ops i) (h.loop.ids.own i)
      (h.loop.ids.scheduled_ne i) trivial trivial
  · cases hs
    exact { h.ops i with
      flag := by simp [view]
      notified := nofun
      resetting := nofun
      completed := nofun }
  · cases hs
    exact h.started

theorem Domain.Inv.notified {d d' : Domain ι} (h : d.Inv) (he : d.step .notified = some d') :
    d'.Inv := by
  simp only [Domain.step] at he
  split at he <;> cases he
  rename_i hp
  obtain ⟨hph, hc, hr⟩ := hp
  refine ⟨h.loop, h.dtor, fun i => ?_, h.started⟩
  have hi := h.ops i
  have hreg : (d.loop.ops i).stopPc ≠ .registered := by
    by_cases hs : i ∈ d.started
    · simpa using List.all_eq_true.mp hr i hs
    · have hidle : (d.loop.ops i).startPc = .idle := by simpa using mt (h.started i).mpr hs
      have hun : (d.loop.ops i).stopPc = .unregistered := hi.registered.mpr hidle
      simp [hun]
  exact { hi with
    flag := by simpa [hph] using hi.flag
    notified := fun _ => hreg
    resetting := nofun
    completed := nofun }

/-- Once `request_stop()` returned, the state of an operation the loop thread is
not in is decided on. -/
theorem DomainInv.settled {v : OpView Unit} {phase : Phase} (hm : DomainInv v phase none) (hv : OpInv v)
    (hd : DtorInv v) (hs : v.op.startPc ≠ .idle) (hr : v.op.stopPc ≠ .registered) :
    v.op.state ≠ .pending := by
  have h1 := hm.stopping
  have h2 := hm.registered
  have h3 := hm.destroying
  have h4 := hv.stopSettled
  have h5 := hv.account
  have h6 := hd.life
  have h7 := hd.dereg
  simp only [TimedOperation.enqueuing, TimedOperation.executing] at h5
  cases hp : v.op.stopPc <;> grind -linarith -order [StopPc.running]

theorem Domain.Inv.drained {d d' : Domain ι} (h : d.Inv) (ha : d.Apart .drained)
    (he : d.step .drained = some d') : d'.Inv := by
  simp only [Domain.step] at he
  split at he <;> cases he
  rename_i hp
  obtain ⟨hph, hc, hq⟩ := hp
  refine ⟨h.loop, h.dtor, fun i => ?_, h.started⟩
  have hi := h.ops i
  have hon := Domain.on_of_none hc i
  have hreg := hi.notified (.inl hph)
  refine { hi with
    flag := by simpa [hph] using hi.flag
    notified := fun _ => hreg
    resetting := fun _ => .inl hon
    completed := fun _ hs => ?_ }
  by_cases hf : (d.loop.ops i).dtorPc = .finished
  · exact ((h.dtor i).gone hf).2.2
  · have hv := h.loop.ops i hf
    have hne := (hon ▸ hi).settled hv (h.dtor i) hs hreg
    have hacc := hv.account
    have hq0 : (view (threadTimerBackend_contract ι) d.loop i).queued = 0 := by
      simp [view, List.isEmpty_iff.mp hq]
    have ht := ha i ((h.started i).mpr hs)
    have h1 := hi.stopping
    have h2 := hi.executing
    simp only [TimedOperation.enqueuing, TimedOperation.executing] at hacc
    grind -linarith -order [StopPc.running, view]

variable {now : TimePoint} {deadline : ι → TimePoint}

theorem Domain.Inv.init : (Domain.lts now deadline).init.Inv where
  loop := .init
  dtor := .init
  ops i := by
    have hs : ¬ (view (threadTimerBackend_contract ι) (Domain.lts now deadline).init.loop i).scheduled := by
      simp [view, Domain.lts, TimedLoop.init, (threadTimerBackend_contract ι).timers_init, Timers.empty]
    constructor <;> simp_all [view, Domain.lts, TimedLoop.init, Domain.on, StopPc.running]
  started i := by simp [Domain.lts, TimedLoop.init]

theorem Domain.Inv.reach {d : Domain ι} (h : (Domain.lts now deadline).Reach Domain.Apart d) :
    d.Inv := by
  refine h.invariant .init fun {d₁ d₂ a} hI ha he => ?_
  cases a with
  | op a => exact hI.op ha he
  | stop => exact hI.stop he
  | notified => exact hI.notified he
  | drained => exact hI.drained ha he

/-- In a run that meets the condition, every started operation has completed once
when `reset()` destroys the operation states, and no destroyed operation is in the
queue. -/
theorem stop_completes {d : Domain ι} (h : (Domain.lts now deadline).Reach Domain.Apart d) :
    (d.phase = .resetting → ∀ i ∈ d.started, (d.loop.ops i).completions.length = 1) ∧
      ∀ i, (d.loop.ops i).dtorPc = .finished → i ∉ d.loop.queue := by
  have hI := Domain.Inv.reach h
  refine ⟨fun hp i hi => (hI.ops i).completed hp ((hI.started i).mp hi), fun i hf => ?_⟩
  exact List.count_eq_zero.mp ((hI.dtor i).gone hf).1

/-- A domain with one operation, due at the time the clock starts. -/
def oneDomain : Lts (Domain Unit) (DomainAction Unit) := Domain.lts 0 fun _ => 0

/-- `Stop()` before the timer is due: the operation is stopped and destroyed. -/
theorem stop_completes_pending : ∃ d, oneDomain.Reach Domain.Apart d ∧ d.phase = .resetting ∧
    () ∈ d.started ∧ (d.loop.ops ()).completions.length = 1 := by
  obtain ⟨d, hd, hq⟩ := Lts.Reach.of_run oneDomain Domain.Apart
    [.op (.start ()), .op (.start ()), .op (.start ()), .op (.start ()), .stop, .op (.stop ()),
      .op (.stop ()), .op (.stop ()), .op (.stop ()), .op (.stop ()), .op (.stop ()), .notified,
      .op (.dequeue ()), .op (.execute ()), .op (.execute ()), .drained, .op (.destroy ())]
    (fun d => d.phase = .resetting ∧ () ∈ d.started) (by decide +kernel)
  obtain ⟨hp, hs⟩ := of_decide_eq_true hq
  exact ⟨d, hd, hp, hs, (stop_completes hd).1 hp () hs⟩

/-- The timer callback wins; before it enqueues, `Stop()` runs on the loop thread:
the stop callback loses, the queue is empty, and the operation is destroyed without
a completion. Then the callback enqueues it. -/
theorem stop_overtakes : ∃ d, oneDomain.Reach Lts.Any d ∧ d.phase = .resetting ∧ () ∈ d.started ∧
    (d.loop.ops ()).completions.length = 0 ∧ (d.loop.ops ()).dtorPc = .finished ∧ () ∈ d.loop.queue := by
  obtain ⟨d, hd, hq⟩ := Lts.Reach.of_run oneDomain Lts.Any
    ((fired.map .op).append [.op (.timer () false), .op (.timer () false), .stop, .op (.stop ()),
      .op (.stop ()), .op (.stop ()), .notified, .drained, .op (.destroy ()), .op (.destroy ()),
      .op (.destroy ()), .op (.timer () false)])
    (fun d => d.phase = .resetting ∧ () ∈ d.started ∧ (d.loop.ops ()).completions.length = 0 ∧
      (d.loop.ops ()).dtorPc = .finished ∧ () ∈ d.loop.queue) (by decide +kernel)
  exact ⟨d, hd, of_decide_eq_true hq⟩

end TX.Exec
