import TxPkgAux.Proof.Exec.TimerThreads

/-!
# `ThreadTimerBackend` and its threads: no timer is overlooked

`Watch` says for each place of the timer thread what it knows of the queue. While it parks,
an entry that it did not see has a `ScheduleAt` that is about to notify it; the entry it takes
has a smallest deadline, and is due. `timer_not_overlooked` reads both off it, for the ids
that are `Awaited` by the events the callers saw.
-/

namespace TX.Exec

open Function (update)

variable {τ ι : Type}

/-- Scheduled, not cancelled, and not fired. -/
def Awaited (log : List TimerEvent) (id : TimerId) : Prop :=
  .scheduled id ∈ log ∧ .cancelled id true ∉ log ∧ .started id ∉ log

/-- What the timer thread knows of the queue. `notifies e` tells that the `ScheduleAt` of the
entry is about to notify it. -/
def RunPc.Watch (queue : List (Entry ι)) (notifies : Entry ι → Prop) : RunPc ι → Prop
  | .waitPark => queue = []
  | .waitParked => ∀ e ∈ queue, notifies e
  | .untilPark wake => ∀ e ∈ queue, wake ≤ e.deadline
  | .untilParked wake => ∀ e ∈ queue, e.deadline < wake → notifies e
  | .popped e | .erased e => ∀ e' ∈ queue, e.deadline ≤ e'.deadline
  | _ => True

namespace TimerThreads

/-- The `ScheduleAt` that added the entry is about to notify the timer thread. -/
def Notifies (s : TimerThreads τ ι) (e : Entry ι) : Prop := ∃ c, s.calls c = some (.notifying e.id)

/-- The ids that are awaited are those in `_active`, and the one just taken from it. -/
def ActiveInv (s : TimerThreads τ ι) : Prop :=
  ∀ id, Awaited s.log id ↔ id ∈ s.active ∨ ∃ e, s.pc = .erased e ∧ e.id = id

end TimerThreads

/-! ## What the timer thread knows -/

section Watch

variable {queue : List (Entry ι)} {notifies notifies' : Entry ι → Prop} {pc : RunPc ι}

theorem RunPc.Watch.mono (h : pc.Watch queue notifies) (hn : ∀ e, notifies e → notifies' e) :
    pc.Watch queue notifies' := by
  cases pc with
  | waitParked => exact fun e he => hn e (h e he)
  | untilParked => exact fun e he hlt => hn e (h e he hlt)
  | waitPark | untilPark | popped | erased => exact h
  | _ => trivial

/-- An entry is added by a call that goes on to notify. -/
theorem RunPc.Watch.add {e : Entry ι} (h : pc.Watch queue notifies) (hm : pc.holdsMutex = false)
    (hn : ∀ e, notifies e → notifies' e) (he : notifies' e) : pc.Watch (e :: queue) notifies' := by
  cases pc with
  | waitParked =>
    intro e' he'
    obtain rfl | he' := List.mem_cons.mp he'
    · exact he
    · exact hn e' (h e' he')
  | untilParked wake =>
    intro e' he' hlt
    obtain rfl | he' := List.mem_cons.mp he'
    · exact he
    · exact hn e' (h e' he' hlt)
  | waitPark | untilPark | popped | erased => cases hm
  | _ => trivial

/-- A notification reaches a thread that is parked. One that is about to park does not need
it. -/
theorem RunPc.Watch.notified (h : pc.Watch queue notifies) : pc.notified.Watch queue notifies' := by
  cases pc with
  | waitPark | untilPark | popped | erased => exact h
  | _ => trivial

theorem TimerMove.watch {s : TimerThreads τ ι} {pc' : RunPc ι} (hmove : TimerMove s pc pc')
    (h : pc.Watch s.queue notifies) : pc'.Watch s.queue notifies := by
  cases hmove with
  | awaited deadline hq hmin => exact hmin
  | unsatisfied hs hq => exact hq
  | parked => exact fun e he => absurd (h ▸ he) List.not_mem_nil
  | parkedUntil => exact fun e he hlt => absurd (h e he) (not_le.mpr hlt)
  | _ => trivial

end Watch

variable [DecidableEq τ] {s s' : TimerThreads τ ι} {a : TimerThreadsAction τ ι}

/-- A call that does not notify is replaced. -/
theorem TimerThreads.Notifies.update {c : Caller τ} {call : Option (TimerCall ι)} {e : Entry ι}
    (hc : ∀ id, s.calls c ≠ some (.notifying id)) (h : s.Notifies e) :
    ∃ c', Function.update s.calls c call c' = some (.notifying e.id) := by
  obtain ⟨c', hc'⟩ := h
  refine ⟨c', ?_⟩
  rw [Function.update_of_ne]
  · exact hc'
  · rintro rfl
    exact hc e.id hc'

omit [DecidableEq τ] in
theorem mayCall_none {c : Caller τ} (hm : s.mayCall c = true) : s.calls c = none := by
  simp only [TimerThreads.mayCall, Bool.and_eq_true, Option.isNone_iff_eq_none] at hm
  exact hm.1

theorem TimerStep.watch (h : TimerStep s a s') (hw : s.pc.Watch s.queue s.Notifies) :
    s'.pc.Watch s'.queue s'.Notifies := by
  cases h with
  | drawn c d i hm => exact hw.mono fun e he => he.update (by simp [mayCall_none hm])
  | entered c id hm => exact hw.mono fun e he => he.update (by simp [mayCall_none hm])
  | blocked c hc | cancelled c hc | woke c hc => exact hw.mono fun e he => he.update (by simp [hc])
  | @stored c id d i hc hm =>
    exact hw.add hm (fun e he => he.update (by simp [hc])) ⟨c, Function.update_self ..⟩
  | notified c hc => exact hw.notified
  | moved hmove => exact hmove.watch hw
  | popped k e hp ht hd => exact fun e' he' => TimerThreads.top?_min ht e' (List.mem_of_mem_eraseIdx he')
  | erased k e hp ha =>
    rw [hp] at hw
    exact hw
  | notifyAll hs => exact hw.notified
  | clock | store => exact hw
  | skipped | started | returned | done => trivial

theorem watch_reach (h : (TimerThreads.lts τ ι).Reach Lts.Any s) : s.pc.Watch s.queue s.Notifies := by
  refine Lts.Path.invariant (I := fun s => s.pc.Watch s.queue s.Notifies) h trivial ?_
  intro s₁ s₂ a hw _ he
  exact (TimerStep.of_step he).watch hw

/-! ## The ids that are awaited -/

/-- An event about another id. -/
theorem awaited_cons {log : List TimerEvent} {ev : TimerEvent} {id : TimerId}
    (h : ev ≠ .scheduled id ∧ ev ≠ .cancelled id true ∧ ev ≠ .started id) :
    Awaited (ev :: log) id ↔ Awaited log id := by
  obtain ⟨h₁, h₂, h₃⟩ := h
  simp [Awaited, h₁.symm, h₂.symm, h₃.symm]

omit [DecidableEq τ] in
theorem TimerThreads.not_erased (hm : s.pc.holdsMutex = false) (e : Entry ι) : s.pc ≠ .erased e := by
  intro hp
  rw [hp] at hm
  cases hm

omit [DecidableEq τ] in
theorem TimerMove.not_erased {pc : RunPc ι} (h : TimerMove s s.pc pc) (e : Entry ι) :
    s.pc ≠ .erased e ∧ pc ≠ .erased e := by
  generalize s.pc = pc₀ at h
  cases h <;> exact ⟨nofun, nofun⟩

theorem erased_notified {pc : RunPc ι} {e : Entry ι} : pc.notified = .erased e ↔ pc = .erased e := by
  cases pc <;> simp [RunPc.notified]

theorem TimerStep.active (h : TimerStep s a s') (hi : ThreadsInv s) (ha : s.ActiveInv) : s'.ActiveInv := by
  intro id
  have hid := ha id
  cases h with
  | drawn | entered | blocked | woke | clock | store => exact hid
  | @stored c id' d i hc hm =>
    have hnew := (hi.drawn c id' d i hc).2.1
    by_cases he : id = id'
    · subst he
      refine iff_of_true ⟨List.mem_cons_self, ?_, ?_⟩ (.inl (Finset.mem_insert_self _ _))
      · exact fun h => hnew (hi.history.removed id ((List.mem_cons.mp h).resolve_left nofun)).1.scheduled
      · exact fun h => hnew (hi.history.started id ((List.mem_cons.mp h).resolve_left nofun))
    · rw [awaited_cons (by simp [Ne.symm he]), hid, Finset.mem_insert, or_iff_right he]
  | notified | notifyAll => simpa only [erased_notified] using hid
  | @cancelled c id' hc hm hne =>
    by_cases he : id = id'
    · subst he
      have hno : ¬ ∃ e, s.pc = .erased e ∧ e.id = id := fun ⟨e, hp, _⟩ => TimerThreads.not_erased hm e hp
      refine iff_of_false (fun h => ?_) (by simpa using not_exists.mp hno)
      by_cases hact : id ∈ s.active
      · exact h.2.1 (by simp [hact])
      · refine hact ((hid.mp ?_).resolve_right hno)
        simpa [Awaited, hact] using h
    · rw [awaited_cons (by simp [Ne.symm he]), hid, Finset.mem_erase, and_iff_right he]
  | moved hmove =>
    rw [hid]
    simp [hmove.not_erased]
  | popped k e hp => simpa [hp] using hid
  | erased k e hp hact =>
    rw [hid, Finset.mem_erase]
    simp only [hp, reduceCtorEq, false_and, exists_false, or_false, RunPc.erased.injEq, exists_eq_left']
    by_cases he : e.id = id
    · subst he
      simp [hact]
    · simp [he, Ne.symm he]
  | skipped k e hp => simpa [hp] using hid
  | started k e hp =>
    simp only [hp, RunPc.erased.injEq, exists_eq_left'] at hid
    have hgone : e.id ∉ s.active := (hi.valid.erased e (by simp [TimerThreads.backend, hp, RunPc.thread])).2.inactive
    by_cases he : e.id = id
    · subst he
      exact iff_of_false (fun h => h.2.2 List.mem_cons_self) (by simp [hgone])
    · rw [awaited_cons (by simp [he]), hid]
      simp [he]
  | returned k e hp => simpa [hp] using hid
  | done k e hp => simpa [hp] using hid

theorem active_reach (h : (TimerThreads.lts τ ι).Reach Lts.Any s) : s.ActiveInv := by
  have hall : ThreadsInv s ∧ s.ActiveInv := by
    refine Lts.Path.invariant (I := fun s => ThreadsInv s ∧ s.ActiveInv) h ⟨.init, fun id => ?_⟩ ?_
    · simp [Awaited, TimerThreads.lts]
    · intro s₁ s₂ a hi _ he
      exact ⟨hi.1.step he, (TimerStep.of_step he).active hi.1 hi.2⟩
  exact hall.2

/-! ## No timer is overlooked -/

omit [DecidableEq τ] in
/-- An id in `_active` has an entry among those that wait. -/
theorem ThreadsInv.mem_active (hi : ThreadsInv s) {id : TimerId} (hact : id ∈ s.active) :
    ∃ e, (e ∈ s.queue ∨ s.pc = .popped e) ∧ e.id = id := by
  obtain ⟨e, he, hid⟩ := hi.valid.active id hact
  refine ⟨e, ?_, hid⟩
  unfold ThreadTimerBackend.waiting at he
  split at he
  · rename_i e' hp
    obtain rfl | he := List.mem_cons.mp he
    · right
      simp only [TimerThreads.backend] at hp
      cases hpc : s.pc <;> simp_all [RunPc.thread]
    · exact .inl he
  · exact .inl he

omit [DecidableEq τ] in
/-- While the timer thread is parked, an id that is awaited has its entry in the queue. -/
theorem ThreadsInv.awaited_entry (hi : ThreadsInv s) (hact : s.ActiveInv) (hparked : s.pc.parked = true)
    {id : TimerId} (hid : Awaited s.log id) : ∃ e ∈ s.queue, e.id = id := by
  have hno : ∀ e, s.pc ≠ .erased e ∧ s.pc ≠ .popped e := by
    intro e
    constructor <;>
    · intro hp
      rw [hp] at hparked
      cases hparked
  obtain ⟨e, he, heq⟩ := hi.mem_active (((hact id).mp hid).resolve_right fun ⟨e, hp, _⟩ => (hno e).1 hp)
  exact ⟨e, he.resolve_right (hno e).2, heq⟩

/-- An entry that the timer thread takes is due, is awaited, and no other one that is awaited is
due earlier. -/
theorem ThreadsInv.taken_first (hi : ThreadsInv s) (hact : s.ActiveInv) (hw : s.pc.Watch s.queue s.Notifies)
    {k : Nat} {e : Entry ι} (he : s.step (.next k) = some s') (hp : s.pc = .popped e) (hp' : s'.pc = .erased e) :
    e.deadline ≤ s.now ∧ Awaited s.log e.id ∧
      ∀ id, Awaited s.log id → id ≠ e.id → ∃ e' ∈ s.queue, e'.id = id ∧ e.deadline ≤ e'.deadline := by
  have hdue := hi.valid.popped e (by simp [TimerThreads.backend, hp, RunPc.thread])
  rw [hp] at hw
  refine ⟨hdue, (hact e.id).mpr (.inl ?_), ?_⟩
  · simp only [TimerThreads.step, TimerThreads.next, hp, Option.some.injEq] at he
    by_contra hno
    rw [if_neg hno] at he
    rw [← he] at hp'
    cases hp'
  · intro id hid hne
    have hin : id ∈ s.active := ((hact id).mp hid).resolve_right (by simp [hp])
    obtain ⟨e', he', rfl⟩ := hi.mem_active hin
    have hq : e' ∈ s.queue := by
      refine he'.resolve_right ?_
      rw [hp]
      rintro ⟨⟩
      exact hne rfl
    exact ⟨e', hq, rfl, hw e' hq⟩

/-- In every run: the timer thread takes an entry only when the clock has reached its
deadline, and no other timer that is awaited has a smaller deadline. While it is parked, no
timer is awaited, or its wake-up comes no later than the deadline of any; or the `ScheduleAt`
that added an entry it does not know of has yet to notify it. -/
theorem timer_not_overlooked (h : (TimerThreads.lts τ ι).Reach Lts.Any s) :
    (∀ k s' e, s.step (.next k) = some s' → s.pc = .popped e → s'.pc = .erased e →
      e.deadline ≤ s.now ∧ Awaited s.log e.id ∧
        ∀ id, Awaited s.log id → id ≠ e.id → ∃ e' ∈ s.queue, e'.id = id ∧ e.deadline ≤ e'.deadline) ∧
    (s.pc.parked = true →
      (s.pc = .waitParked ∧ ∀ id, ¬ Awaited s.log id) ∨
      (∃ wake, s.pc = .untilParked wake ∧
        ∀ id, Awaited s.log id → ∃ e ∈ s.queue, e.id = id ∧ wake ≤ e.deadline) ∨
      ∃ c e, s.calls c = some (.notifying e.id) ∧ e ∈ s.queue ∧
        (s.pc = .waitParked ∨ ∃ wake, s.pc = .untilParked wake ∧ e.deadline < wake)) := by
  have hi := ThreadsInv.reach h
  have hact := active_reach h
  have hw := watch_reach h
  refine ⟨fun k s' e he hp hp' => hi.taken_first hact hw he hp hp', fun hparked => ?_⟩
  have hentry : ∀ id, Awaited s.log id → ∃ e ∈ s.queue, e.id = id :=
    fun id hid => hi.awaited_entry hact hparked hid
  cases hp : s.pc with
  | waitParked =>
    rw [hp] at hw
    by_cases hq : s.queue = []
    · refine .inl ⟨rfl, fun id hid => ?_⟩
      obtain ⟨e, he, -⟩ := hentry id hid
      exact absurd (hq ▸ he) List.not_mem_nil
    · obtain ⟨e, he⟩ := List.exists_mem_of_ne_nil _ hq
      obtain ⟨c, hc⟩ := hw e he
      exact .inr (.inr ⟨c, e, hc, he, .inl rfl⟩)
  | untilParked wake =>
    rw [hp] at hw
    by_cases hq : ∀ e ∈ s.queue, wake ≤ e.deadline
    · refine .inr (.inl ⟨wake, rfl, fun id hid => ?_⟩)
      obtain ⟨e, he, heq⟩ := hentry id hid
      exact ⟨e, he, heq, hq e he⟩
    · simp only [not_forall, not_le] at hq
      obtain ⟨e, he, hlt⟩ := hq
      obtain ⟨c, hc⟩ := hw e he hlt
      exact .inr (.inr ⟨c, e, hc, he, .inr ⟨wake, rfl, hlt⟩⟩)
  | _ =>
    rw [hp] at hparked
    cases hparked

/-- The thread waits for the entry of the first of two calls, and the second one, whose entry
is due earlier, is about to notify it. -/
theorem timer_not_overlooked_earlier : ∃ s, (TimerThreads.lts Unit Unit).Reach Lts.Any s ∧
    s.pc = .untilParked 5 ∧ ∃ c e, s.calls c = some (.notifying e.id) ∧ e ∈ s.queue ∧ e.deadline < 5 := by
  obtain ⟨s, hs, hq⟩ := Lts.Reach.of_run (TimerThreads.lts Unit Unit) Lts.Any
    [.scheduleAt (.thread ()) 5 (), .call (.thread ()), .call (.thread ()),
      .next 0, .next 0, .next 0, .next 0, .scheduleAt (.thread ()) 3 (), .call (.thread ())]
    (fun s => (match s.pc with | .untilParked wake => decide (wake = 5) | _ => false) &&
      decide (s.log = [.scheduled 2, .scheduled 1]) && s.queue.all fun e => decide (e.id = 2 → e.deadline = 3))
    (by decide +kernel)
  simp only [Bool.and_eq_true, List.all_eq_true, decide_eq_true_eq] at hq
  obtain ⟨⟨hpark, hlog⟩, hdl⟩ := hq
  have hp : s.pc = .untilParked 5 := by
    split at hpark
    · rename_i wake hp
      rw [hp, of_decide_eq_true hpark]
    · cases hpark
  obtain ⟨hw, -⟩ | ⟨wake, hw, hall⟩ | ⟨c, e, hc, he, hw | ⟨wake, hw, hlt⟩⟩ :=
    (timer_not_overlooked hs).2 (by rw [hp]; rfl)
  · rw [hp] at hw
    cases hw
  · rw [hp] at hw
    cases hw
    obtain ⟨e, he, hid, hle⟩ := hall 2 (by simp [Awaited, hlog])
    rw [hdl e he hid] at hle
    exact absurd hle (by decide)
  · rw [hp] at hw
    cases hw
  · rw [hp] at hw
    cases hw
    exact ⟨s, hs, hp, c, e, hc, he, hlt⟩

end TX.Exec
