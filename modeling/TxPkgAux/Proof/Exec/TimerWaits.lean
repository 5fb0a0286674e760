import TxPkgAux.Proof.Exec.TimerThreads
import Mathlib.Data.List.MinMax

/-!
# `ThreadTimerBackend` and its threads: what is waited for

The destructor sets `_stopping` and notifies `_cv` without `_mutex`. If it does so between
the timer thread's last look at `_stopping` and its parking, the notification is lost.
Otherwise the timer thread is not parked after it, and its own steps lead to its end
(`notifyAll_wakes`).

`Cancel` waits for the timer thread. A callback that cancels its own id waits for itself;
one that does not comes to the end of its calls (`callback_not_blocked`).
-/

namespace TX.Exec

open Function (update)

variable {τ ι : Type} [DecidableEq τ]

/-! ## The destructor -/

/-- The timer thread is to park on `_cv`, and does not look at `_stopping` before it does. -/
def TimerThreads.aboutToPark (s : TimerThreads τ ι) : Bool :=
  match s.pc with
  | .testQueue => !s.queue.isEmpty
  | .waitPark | .untilPark _ => true
  | _ => false

/-- The destructor does not notify a timer thread that is about to park. -/
def NotifiedInTime (s : TimerThreads τ ι) : TimerThreadsAction τ ι → Prop
  | .notifyAll => s.aboutToPark = false
  | _ => True

/-- Once notified, the timer thread is not parked, and will look at `_stopping` before it is. -/
def WokenInv (s : TimerThreads τ ι) : Prop :=
  s.notifiedAll = true → s.stopping = true ∧ s.pc.parked = false ∧ s.aboutToPark = false

section Destructor

variable {s s' : TimerThreads τ ι} {a : TimerThreadsAction τ ι}

theorem parked_notified (pc : RunPc ι) : pc.notified.parked = false := by
  cases pc <;> rfl

omit [DecidableEq τ] in
theorem aboutToPark_of_free (hm : s.pc.holdsMutex = false) : s.aboutToPark = false := by
  unfold TimerThreads.aboutToPark
  split <;> simp_all [RunPc.holdsMutex]

omit [DecidableEq τ] in
/-- A notification changes the place of a parked thread only. -/
theorem aboutToPark_notified {calls : Caller τ → Option (TimerCall ι)} {b : Bool}
    (h : s.aboutToPark = false) :
    TimerThreads.aboutToPark { s with pc := s.pc.notified, calls := calls, notifiedAll := b } = false := by
  unfold TimerThreads.aboutToPark at h ⊢
  cases hp : s.pc <;> simp_all [RunPc.notified]

omit [DecidableEq τ] in
/-- A thread that looks at `_stopping` does not come to park. -/
theorem TimerMove.not_parked {pc : RunPc ι} (h : TimerMove s s.pc pc) (hs : s.stopping = true)
    (ha : s.aboutToPark = false) (hp : s.pc.parked = false) :
    pc.parked = false ∧ TimerThreads.aboutToPark { s with pc } = false := by
  unfold TimerThreads.aboutToPark at ha ⊢
  generalize s.pc = pc₀ at h ha hp
  cases h <;> simp_all [RunPc.parked]

theorem TimerStep.woken (h : TimerStep s a s') (hi : WokenInv s) (hok : NotifiedInTime s a) :
    WokenInv s' := by
  intro hn
  cases h with
  | notifyAll hs => exact ⟨hs, parked_notified s.pc, aboutToPark_notified hok⟩
  | notified c hc =>
    obtain ⟨hs, -, ha⟩ := hi hn
    exact ⟨hs, parked_notified s.pc, aboutToPark_notified ha⟩
  | stored c hc hm =>
    obtain ⟨hs, hp, -⟩ := hi hn
    exact ⟨hs, hp, aboutToPark_of_free hm⟩
  | moved hmove =>
    obtain ⟨hs, hp, ha⟩ := hi hn
    exact ⟨hs, hmove.not_parked hs ha hp⟩
  | store => exact ⟨rfl, (hi hn).2⟩
  | popped | erased | skipped | started | returned | done => exact ⟨(hi hn).1, rfl, rfl⟩
  | _ => exact hi hn

theorem WokenInv.reach (h : (TimerThreads.lts τ ι).Reach NotifiedInTime s) : WokenInv s :=
  Lts.Path.invariant h (fun h => Bool.noConfusion h) fun hi hok he => (TimerStep.of_step he).woken hi hok

/-! ## The way out -/

/-- The timer thread takes its next step. -/
def IsNext (_ : TimerThreads τ ι) (a : TimerThreadsAction τ ι) : Prop := ∃ k, a = .next k

/-- How many steps the timer thread is from `inner` or from its end, at most. -/
def RunPc.rank : RunPc ι → Nat
  | .exited => 0
  | .top => 1
  | .starting | .waitPred | .inner => 2
  | .testQueue | .waitWoken | .untilWoken _ _ | .returned _ => 3
  | .running _ => 4
  | .erased _ => 5
  | .popped _ => 6
  | .waitPark | .waitParked | .untilPark _ | .untilParked _ => 0

/-- Falls with every step of a timer thread that is to stop. -/
def TimerThreads.rank (s : TimerThreads τ ι) : Nat := 8 * s.queue.length + s.pc.rank

omit [DecidableEq τ] in
/-- A queue that is not empty has a top. -/
theorem TimerThreads.exists_top (hq : s.queue ≠ []) : ∃ k e, k < s.queue.length ∧ s.top? k = some e := by
  obtain ⟨e, he⟩ := Option.ne_none_iff_exists'.mp (List.argmin_eq_none (f := Entry.deadline).not.mpr hq)
  obtain ⟨k, hk, hek⟩ := List.getElem_of_mem (List.argmin_mem he)
  refine ⟨k, e, hk, ?_⟩
  rw [TimerThreads.top?, List.getElem?_eq_getElem hk, hek, Option.filter_some]
  have hmin : ∀ e' ∈ s.queue, e.deadline ≤ e'.deadline := fun e' he' => List.le_of_mem_argmin he' he
  simpa using hmin

omit [DecidableEq τ] in
/-- The timer thread only moves. -/
theorem TimerThreads.next_of_pc (k : Nat) (pc : RunPc ι) (hn : s.next k = some { s with pc })
    (hc : s.calls .callback = none) (hr : pc.rank < s.pc.rank) :
    ∃ k s', s.next k = some s' ∧ s'.rank < s.rank ∧ s'.calls .callback = none :=
  ⟨k, _, hn, Nat.add_lt_add_left hr _, hc⟩

omit [DecidableEq τ] in
/-- The timer thread is to stop, and can take its next step. -/
theorem TimerThreads.next_ranked (hs : s.stopping = true) (hp : s.pc.parked = false)
    (ha : s.aboutToPark = false) (hc : s.calls .callback = none) (hx : s.pc ≠ .exited) :
    ∃ k s', s.next k = some s' ∧ s'.rank < s.rank ∧ s'.calls .callback = none := by
  cases hpc : s.pc with
  | starting => exact next_of_pc 0 .top (by simp [next, hpc]) hc (by simp [hpc, RunPc.rank])
  | top => exact next_of_pc 0 .exited (by simp [next, hpc, hs]) hc (by simp [hpc, RunPc.rank])
  | testQueue =>
    have hq : s.queue.isEmpty = true := by simpa [aboutToPark, hpc] using ha
    exact next_of_pc 0 .waitPred (by simp [next, hpc, hq]) hc (by simp [hpc, RunPc.rank])
  | waitPred => exact next_of_pc 0 .top (by simp [next, hpc, hs]) hc (by simp [hpc, RunPc.rank])
  | waitWoken => exact next_of_pc 0 .waitPred (by simp [next, hpc]) hc (by simp [hpc, RunPc.rank])
  | untilWoken deadline timeout =>
    refine next_of_pc 0 (if timeout ∨ deadline ≤ s.now then .inner else .top) (by simp [next, hpc]) hc ?_
    rw [hpc]
    split <;> simp [RunPc.rank]
  | inner =>
    by_cases hq : s.queue = []
    · exact next_of_pc 0 .top (by simp [next, hpc, hq]) hc (by simp [hpc, RunPc.rank])
    · obtain ⟨k, e, hk, ht⟩ := exists_top hq
      have hq' : s.queue.isEmpty = false := by simpa using hq
      by_cases hd : e.deadline ≤ s.now
      · refine ⟨k, { s with queue := s.queue.eraseIdx k, pc := .popped e }, ?_, ?_, hc⟩
        · simp [next, hpc, hq', ht, hd]
        · simp only [rank, hpc, RunPc.rank, List.length_eraseIdx, hk, if_true]
          omega
      · exact next_of_pc k .top (by simp [next, hpc, hq', ht, hd]) hc (by simp [hpc, RunPc.rank])
  | popped e =>
    by_cases he : e.id ∈ s.active
    · refine ⟨0, { s with active := s.active.erase e.id, pc := .erased e }, ?_, ?_, hc⟩
      · simp [next, hpc, he]
      · simp [rank, hpc, RunPc.rank]
    · exact next_of_pc 0 .inner (by simp [next, hpc, he]) hc (by simp [hpc, RunPc.rank])
  | erased e =>
    refine ⟨0, { s with inflightId := e.id, pc := .running e, log := .started e.id :: s.log }, ?_, ?_, hc⟩
    · simp [next, emit, hpc]
    · simp [rank, hpc, RunPc.rank]
  | running e =>
    exact next_of_pc 0 (.returned e) (by simp [next, hpc, hc]) hc (by simp [hpc, RunPc.rank])
  | returned e =>
    refine ⟨0, { s with
      inflightId := InvalidTimerId, calls := fun c => unblock (s.calls c), pc := .inner }, ?_, ?_, ?_⟩
    · simp [next, hpc]
    · simp [rank, hpc, RunPc.rank]
    · simp only [hc, unblock]
  | exited => exact absurd hpc hx
  | waitParked | untilParked => simp [hpc, RunPc.parked] at hp
  | waitPark | untilPark => simp [hpc, aboutToPark] at ha

theorem TimerStep.notifiedAll (h : TimerStep s a s') (hn : s.notifiedAll = true) : s'.notifiedAll = true := by
  cases h <;> first | exact hn | rfl

/-- The timer thread's own steps lead to its end. -/
theorem TimerThreads.exits (hi : WokenInv s) (hn : s.notifiedAll = true) (hc : s.calls .callback = none) :
    ∃ s', (TimerThreads.lts τ ι).Path IsNext s s' ∧ s'.pc = .exited := by
  induction hr : s.rank using Nat.strong_induction_on generalizing s with
  | _ r ih =>
    by_cases hx : s.pc = .exited
    · exact ⟨s, .refl s, hx⟩
    · obtain ⟨hs, hp, ha⟩ := hi hn
      obtain ⟨k, s₁, he, hlt, hc₁⟩ := next_ranked hs hp ha hc hx
      have hstep : TimerStep s (.next k) s₁ := next_cases he
      obtain ⟨s', hpath, hx'⟩ := ih s₁.rank (hr ▸ hlt) (hstep.woken hi trivial) (hstep.notifiedAll hn) hc₁ rfl
      exact ⟨s', Lts.Path.trans (.tail (.refl s) ⟨k, rfl⟩ he) hpath, hx'⟩

/-- In the runs in which the destructor does not notify a timer thread that is about to park:
once it has notified, the timer thread is not parked on `_cv` nor about to park, and comes to
its end by steps of its own, unless a callback is in a call. -/
theorem notifyAll_wakes (h : (TimerThreads.lts τ ι).Reach NotifiedInTime s) (hn : s.notifiedAll = true) :
    s.pc.parked = false ∧ s.aboutToPark = false ∧
      (s.calls .callback = none → ∃ s', (TimerThreads.lts τ ι).Path IsNext s s' ∧ s'.pc = .exited) :=
  have hi := WokenInv.reach h
  ⟨(hi hn).2.1, (hi hn).2.2, TimerThreads.exits hi hn⟩

end Destructor

instance (s : TimerThreads τ ι) (a : TimerThreadsAction τ ι) : Decidable (NotifiedInTime s a) :=
  match a with
  | .notifyAll => inferInstanceAs (Decidable (s.aboutToPark = false))
  | .scheduleAt _ _ _ | .cancel _ _ | .call _ | .wake _ | .next _ | .wakeUp _ | .clock _ | .store =>
    .isTrue trivial

/-- The timer thread is parked for a far deadline, and notified. -/
theorem notifyAll_wakes_parked : ∃ s, (TimerThreads.lts Unit Unit).Reach NotifiedInTime s ∧
    s.notifiedAll = true ∧ s.queue.length = 1 ∧ s.pc.parked = false ∧
    ∃ s', (TimerThreads.lts Unit Unit).Path IsNext s s' ∧ s'.pc = .exited := by
  obtain ⟨s, hs, hq⟩ := Lts.Reach.of_run (TimerThreads.lts Unit Unit) NotifiedInTime
    [.scheduleAt (.thread ()) 1000 (), .call (.thread ()), .call (.thread ()),
      .next 0, .next 0, .next 0, .next 0, .store, .notifyAll]
    (fun s => s.notifiedAll = true ∧ s.queue.length = 1 ∧ (s.calls .callback).isNone = true)
    (by decide +kernel)
  obtain ⟨hn, hl, hc⟩ := of_decide_eq_true hq
  obtain ⟨hp, -, hx⟩ := notifyAll_wakes hs hn
  exact ⟨s, hs, hn, hl, hp, hx (Option.isNone_iff_eq_none.mp hc)⟩

/-- The destructor notifies between the timer thread's last look at `_stopping` and its
parking, in either wait. -/
theorem notifyAll_lost : ∃ s s', (TimerThreads.lts Unit Unit).Reach Lts.Any s ∧
    (TimerThreads.lts Unit Unit).Reach Lts.Any s' ∧
    (s.notifiedAll = true ∧ s.pc.parked = true ∧ s.queue.length = 0) ∧
    s'.notifiedAll = true ∧ s'.pc.parked = true ∧ s'.queue.length = 1 := by
  obtain ⟨s, hs, hq⟩ := Lts.Reach.of_run (TimerThreads.lts Unit Unit) Lts.Any
    [.next 0, .next 0, .next 0, .next 0, .store, .notifyAll, .next 0]
    (fun s => s.notifiedAll = true ∧ s.pc.parked = true ∧ s.queue.length = 0) (by decide +kernel)
  obtain ⟨s', hs', hq'⟩ := Lts.Reach.of_run (TimerThreads.lts Unit Unit) Lts.Any
    [.scheduleAt (.thread ()) 1000 (), .call (.thread ()), .call (.thread ()),
      .next 0, .next 0, .next 0, .store, .notifyAll, .next 0]
    (fun s => s.notifiedAll = true ∧ s.pc.parked = true ∧ s.queue.length = 1) (by decide +kernel)
  exact ⟨s, s', hs, hs', of_decide_eq_true hq, of_decide_eq_true hq'⟩

/-! ## Callbacks -/

/-- A callback does not cancel its own id. -/
def CancelsOthers (s : TimerThreads τ ι) : TimerThreadsAction τ ι → Prop
  | .cancel .callback id => ∀ e, s.pc = .running e → id ≠ e.id
  | _ => True

/-- A call of the callback that is executed, which does not cancel itself. -/
def Unblocked (pc : RunPc ι) (call : TimerCall ι) : Prop :=
  ∃ e, pc = .running e ∧ (∀ id, call = .cancelling id → id ≠ e.id) ∧ ∀ id, call ≠ .blocked id

/-- A callback is executed while it is in a call, and does not wait for itself. -/
def CallbackInv (s : TimerThreads τ ι) : Prop :=
  ∀ call, s.calls .callback = some call → Unblocked s.pc call

section Callbacks

variable {s s' : TimerThreads τ ι} {a : TimerThreadsAction τ ι}

omit [DecidableEq τ] in
/-- The timer thread is in the callback until its calls return. -/
theorem CallbackInv.none_of_pc (hi : CallbackInv s) (hp : ∀ e, s.pc ≠ .running e) :
    s.calls .callback = none := by
  cases hc : s.calls .callback with
  | none => rfl
  | some call =>
    obtain ⟨e, he, -⟩ := hi call hc
    exact absurd he (hp e)

theorem Unblocked.notified {pc : RunPc ι} {call : TimerCall ι} (h : Unblocked pc call) :
    Unblocked pc.notified call := by
  obtain ⟨e, rfl, h⟩ := h
  exact ⟨e, rfl, h⟩

theorem Unblocked.running {pc : RunPc ι} {call call' : TimerCall ι} (h : Unblocked pc call)
    (hn : ∀ id, call' ≠ .cancelling id ∧ call' ≠ .blocked id) : Unblocked pc call' := by
  obtain ⟨e, hp, -⟩ := h
  exact ⟨e, hp, fun id h => absurd h (hn id).1, fun id => (hn id).2⟩

/-- One call moves, of the callback or of another. -/
theorem CallbackInv.update (hi : CallbackInv s) {c : Caller τ} {call : Option (TimerCall ι)}
    (hcall : c = .callback → ∀ call', call = some call' → Unblocked s.pc call')
    (call' : TimerCall ι) (h : Function.update s.calls c call .callback = some call') :
    Unblocked s.pc call' := by
  rcases update_cases h with ⟨rfl, heq⟩ | ⟨-, heq⟩
  · exact hcall rfl call' heq
  · exact hi call' heq

omit [DecidableEq τ] in
/-- A callback may call only while it is executed. -/
theorem running_of_mayCall (hm : s.mayCall .callback = true) : ∃ e, s.pc = .running e := by
  unfold TimerThreads.mayCall at hm
  split at hm <;> simp_all

theorem TimerStep.callback (h : TimerStep s a s') (hv : ThreadsInv s) (hi : CallbackInv s)
    (hok : CancelsOthers s a) : CallbackInv s' := by
  have hnone : (∀ e, s.pc ≠ .running e) → ∀ call, s.calls .callback = some call → False :=
    fun hp call hc => Option.some_ne_none _ (hc.symm.trans (hi.none_of_pc hp))
  cases h with
  | drawn c d i hm =>
    refine hi.update fun hc call' heq => ?_
    subst hc
    cases heq
    obtain ⟨e, hp⟩ := running_of_mayCall hm
    exact ⟨e, hp, by simp, by simp⟩
  | entered c id hm =>
    refine hi.update fun hc call' heq => ?_
    subst hc
    cases heq
    obtain ⟨e, hp⟩ := running_of_mayCall hm
    refine ⟨e, hp, fun id' heq => ?_, by simp⟩
    cases heq
    exact hok e hp
  | stored c hc hm =>
    refine hi.update fun hcb call' heq => ?_
    subst hcb
    cases heq
    exact (hi _ hc).running (by simp)
  | notified c hc =>
    intro call' h
    refine Unblocked.notified (hi.update (fun _ call' heq => ?_) call' h)
    cases heq
  | @blocked c id hc hm hid =>
    refine hi.update fun hcb call' heq => ?_
    subst hcb
    -- The id in flight is that of the callback that calls.
    obtain ⟨e, hp, hne, -⟩ := hi _ hc
    exact absurd ((hv.inflight.1 e (.inl hp)).symm.trans hid).symm (hne id rfl)
  | cancelled c hc hm hid =>
    refine hi.update fun _ call' heq => ?_
    cases heq
  | @woke c id hc =>
    refine hi.update fun hcb call' heq => ?_
    subst hcb
    obtain ⟨e, -, -, hb⟩ := hi _ hc
    exact absurd rfl (hb id)
  | moved hmove =>
    intro call hc
    refine (hnone (fun e hp => ?_) call hc).elim
    exact (hmove.no_entry e).1.2.2 (by rw [hp]; rfl)
  | popped k e hp | erased k e hp | skipped k e hp | started k e hp =>
    exact fun call hc => (hnone (by simp [hp]) call hc).elim
  | returned k e hp hc => exact fun call h => (Option.some_ne_none _ (h.symm.trans hc)).elim
  | done k e hp =>
    intro call hc
    have hcb : s.calls .callback = none := hi.none_of_pc (by simp [hp])
    simp [hcb, TimerThreads.unblock] at hc
  | notifyAll => exact fun call hc => (hi call hc).notified
  | clock | store => exact hi

theorem CallbackInv.reach (h : (TimerThreads.lts τ ι).Reach CancelsOthers s) :
    ThreadsInv s ∧ CallbackInv s := by
  refine Lts.Path.invariant (I := fun s => ThreadsInv s ∧ CallbackInv s) h ?_ fun hi hok he => ?_
  · refine ⟨.init, fun call hc => ?_⟩
    cases hc
  · exact ⟨hi.1.step he, (TimerStep.of_step he).callback hi.1 hi.2 hok⟩

/-- The callback's call takes its next step. -/
def IsCallback (_ : TimerThreads τ ι) (a : TimerThreadsAction τ ι) : Prop := a = .call .callback

/-- The next step of the callback's call. -/
theorem callback_path {s'' : TimerThreads τ ι} (he : s.callNext .callback = some s')
    (h : (TimerThreads.lts τ ι).Path IsCallback s' s'') : (TimerThreads.lts τ ι).Path IsCallback s s'' :=
  Lts.Path.trans (.tail (.refl s) rfl he) h

theorem notifying_returns {id : TimerId} (hc : s.calls .callback = some (.notifying id)) :
    ∃ s', (TimerThreads.lts τ ι).Path IsCallback s s' ∧ s'.calls .callback = none := by
  obtain ⟨s₁, he, hc₁⟩ : ∃ s₁, s.callNext .callback = some s₁ ∧ s₁.calls .callback = none := by
    simp [TimerThreads.callNext, hc, TimerThreads.setCall]
  exact ⟨s₁, callback_path he (.refl s₁), hc₁⟩

/-- The callback's call returns, by steps of its own. -/
theorem callback_returns (hv : ThreadsInv s) (hi : CallbackInv s) :
    ∃ s', (TimerThreads.lts τ ι).Path IsCallback s s' ∧ s'.calls .callback = none := by
  cases hc : s.calls .callback with
  | none => exact ⟨s, .refl s, hc⟩
  | some call =>
    obtain ⟨e, hp, hne, hnb⟩ := hi call hc
    have hm : s.pc.holdsMutex = false := by rw [hp]; rfl
    cases call with
    | scheduling id d i =>
      obtain ⟨s₁, he, hc₁⟩ : ∃ s₁, s.callNext .callback = some s₁ ∧
          s₁.calls .callback = some (.notifying id) := by
        simp [TimerThreads.callNext, hc, hm, TimerThreads.setCall, TimerThreads.emit]
      obtain ⟨s', hpath, hs'⟩ := notifying_returns hc₁
      exact ⟨s', callback_path he hpath, hs'⟩
    | notifying id => exact notifying_returns hc
    | cancelling id =>
      have hid : s.inflightId ≠ id := by
        rw [hv.inflight.1 e (.inl hp)]
        exact (hne id rfl).symm
      obtain ⟨s₁, he, hc₁⟩ : ∃ s₁, s.callNext .callback = some s₁ ∧ s₁.calls .callback = none := by
        simp [TimerThreads.callNext, hc, hm, hid, TimerThreads.setCall, TimerThreads.emit]
      exact ⟨s₁, callback_path he (.refl s₁), hc₁⟩
    | blocked id => exact absurd rfl (hnb id)

/-- In the runs in which no callback cancels its own id, no callback waits for itself: its
calls return, by steps of their own. -/
theorem callback_not_blocked (h : (TimerThreads.lts τ ι).Reach CancelsOthers s) :
    (∀ id, s.calls .callback ≠ some (.blocked id)) ∧
      ∃ s', (TimerThreads.lts τ ι).Path IsCallback s s' ∧ s'.calls .callback = none := by
  obtain ⟨hv, hi⟩ := CallbackInv.reach h
  refine ⟨fun id hc => ?_, callback_returns hv hi⟩
  obtain ⟨e, -, -, hnb⟩ := hi _ hc
  exact hnb id rfl

end Callbacks

instance (s : TimerThreads τ ι) (a : TimerThreadsAction τ ι) : Decidable (CancelsOthers s a) :=
  match a with
  | .cancel .callback id =>
    match hp : s.pc with
    | .running e => decidable_of_iff (id ≠ e.id)
        ⟨fun hne e' he => (by cases hp.symm.trans he; exact hne), fun h => h e hp⟩
    | .starting | .top | .testQueue | .waitPred | .waitPark | .waitParked | .waitWoken | .untilPark _
    | .untilParked _ | .untilWoken _ _ | .inner | .popped _ | .erased _ | .returned _ | .exited =>
      .isTrue fun e he => by simp [hp] at he
  | .cancel (.thread _) _ | .scheduleAt _ _ _ | .call _ | .wake _ | .next _ | .wakeUp _ | .clock _ | .store
  | .notifyAll => .isTrue trivial

/-- A callback is in a call of `Cancel` of another id, and a thread waits for the callback. -/
theorem callback_not_blocked_calling : ∃ s, (TimerThreads.lts Unit Unit).Reach CancelsOthers s ∧
    (s.calls (.thread ())).isSome = true ∧ (s.calls .callback).isSome = true ∧
    ∃ s', (TimerThreads.lts Unit Unit).Path IsCallback s s' ∧ s'.calls .callback = none := by
  obtain ⟨s, hs, hq⟩ := Lts.Reach.of_run (TimerThreads.lts Unit Unit) CancelsOthers
    [.scheduleAt (.thread ()) 0 (), .call (.thread ()), .call (.thread ()),
      .next 0, .next 0, .next 0, .next 0, .wakeUp true, .next 0, .next 0, .next 0, .next 0,
      .cancel (.thread ()) 1, .call (.thread ()), .cancel .callback 2]
    (fun s => (s.calls (.thread ())).isSome = true ∧ (s.calls .callback).isSome = true) (by decide +kernel)
  obtain ⟨ht, hc⟩ := of_decide_eq_true hq
  exact ⟨s, hs, ht, hc, (callback_not_blocked hs).2⟩

/-- The id that a call of `Cancel` waits for. -/
def TimerCall.blockedOn : TimerCall ι → Option TimerId
  | .blocked id => some id
  | _ => none

theorem TimerCall.blockedOn_eq_some {c : TimerCall ι} {id : TimerId} :
    c.blockedOn = some id ↔ c = .blocked id := by
  cases c <;> simp [blockedOn]

/-- A callback cancels its own id, and waits for itself. -/
theorem callback_blocked : ∃ s, (TimerThreads.lts Unit Unit).Reach Lts.Any s ∧ s.inflightId = 1 ∧
    ∃ id, s.calls .callback = some (.blocked id) ∧ id = s.inflightId := by
  obtain ⟨s, hs, hq⟩ := Lts.Reach.of_run (TimerThreads.lts Unit Unit) Lts.Any
    [.scheduleAt (.thread ()) 0 (), .call (.thread ()), .call (.thread ()),
      .next 0, .next 0, .next 0, .next 0, .wakeUp true, .next 0, .next 0, .next 0, .next 0,
      .cancel .callback 1, .call .callback]
    (fun s => s.inflightId = 1 ∧ (s.calls .callback).bind TimerCall.blockedOn = some 1) (by decide +kernel)
  obtain ⟨hi, hc⟩ := of_decide_eq_true hq
  obtain ⟨call, hcall, hid⟩ := Option.bind_eq_some_iff.mp hc
  exact ⟨s, hs, hi, 1, TimerCall.blockedOn_eq_some.mp hid ▸ hcall, hi.symm⟩

end TX.Exec
