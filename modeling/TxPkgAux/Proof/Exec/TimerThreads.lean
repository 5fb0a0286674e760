import TxPkgAux.Proof.Exec.ThreadTimerBackend
import TxPkgAux.Proof.Exec.TimerHistory

/-!
# `ThreadTimerBackend` and its threads: what `Cancel` promises

`TimerStep` lists the steps of the threads. `backend` is the state in the coarser steps of
`ThreadTimerBackend`, whose lemmas say that each step is an operation on the timers that the
state stands for (`TimerStep.timers`). What the callers see of a run is then a history of
timers, and `cancel_final` follows.
-/

namespace TX.Exec

open Function (update)

variable {τ ι : Type} [DecidableEq τ]

/-! ## Steps -/

/-- The moves of the timer thread between places where it has no entry, but for a
notification. -/
inductive TimerMove (s : TimerThreads τ ι) : RunPc ι → RunPc ι → Prop where
  | locked : TimerMove s .starting .top
  | exited (hs : s.stopping = true) : TimerMove s .top .exited
  | tested (hs : s.stopping = false) : TimerMove s .top .testQueue
  | emptied (hq : s.queue = []) : TimerMove s .testQueue .waitPred
  | awaited (deadline : TimePoint) (hq : s.queue ≠ []) (hmin : ∀ e ∈ s.queue, deadline ≤ e.deadline) :
    TimerMove s .testQueue (.untilPark deadline)
  | satisfied (h : s.queue ≠ [] ∨ s.stopping = true) : TimerMove s .waitPred .top
  | unsatisfied (hs : s.stopping = false) (hq : s.queue = []) : TimerMove s .waitPred .waitPark
  | parked : TimerMove s .waitPark .waitParked
  | woken : TimerMove s .waitParked .waitWoken
  | relocked : TimerMove s .waitWoken .waitPred
  | parkedUntil (deadline : TimePoint) : TimerMove s (.untilPark deadline) (.untilParked deadline)
  | wokenUntil (deadline : TimePoint) (timeout : Bool) :
    TimerMove s (.untilParked deadline) (.untilWoken deadline timeout)
  | due (deadline : TimePoint) (timeout : Bool) : TimerMove s (.untilWoken deadline timeout) .inner
  | early (deadline : TimePoint) (timeout : Bool) : TimerMove s (.untilWoken deadline timeout) .top
  | ended : TimerMove s .inner .top

/-- The steps of the threads. -/
inductive TimerStep (s : TimerThreads τ ι) : TimerThreadsAction τ ι → TimerThreads τ ι → Prop where
  | drawn (c : Caller τ) (d : TimePoint) (i : ι) (hm : s.mayCall c = true) :
    TimerStep s (.scheduleAt c d i) { s with
      nextId := s.nextId + 1
      calls := update s.calls c (some (.scheduling s.nextId d i)) }
  | entered (c : Caller τ) (id : TimerId) (hm : s.mayCall c = true) :
    TimerStep s (.cancel c id) { s with calls := update s.calls c (some (.cancelling id)) }
  | stored (c : Caller τ) {id : TimerId} {d : TimePoint} {i : ι}
      (hc : s.calls c = some (.scheduling id d i)) (hm : s.pc.holdsMutex = false) :
    TimerStep s (.call c) { s with
      active := insert id s.active
      queue := ⟨d, id, i⟩ :: s.queue
      calls := update s.calls c (some (.notifying id))
      log := .scheduled id :: s.log }
  | notified (c : Caller τ) {id : TimerId} (hc : s.calls c = some (.notifying id)) :
    TimerStep s (.call c) { s with calls := update s.calls c none, pc := s.pc.notified }
  | blocked (c : Caller τ) {id : TimerId} (hc : s.calls c = some (.cancelling id))
      (hm : s.pc.holdsMutex = false) (hi : s.inflightId = id) :
    TimerStep s (.call c) { s with calls := update s.calls c (some (.blocked id)) }
  | cancelled (c : Caller τ) {id : TimerId} (hc : s.calls c = some (.cancelling id))
      (hm : s.pc.holdsMutex = false) (hi : s.inflightId ≠ id) :
    TimerStep s (.call c) { s with
      active := s.active.erase id
      calls := update s.calls c none
      log := .cancelled id (decide (id ∈ s.active)) :: s.log }
  | woke (c : Caller τ) {id : TimerId} (hc : s.calls c = some (.blocked id)) :
    TimerStep s (.wake c) { s with calls := update s.calls c (some (.cancelling id)) }
  | moved {a : TimerThreadsAction τ ι} {pc : RunPc ι} (h : TimerMove s s.pc pc) :
    TimerStep s a { s with pc }
  | popped (k : Nat) (e : Entry ι) (hp : s.pc = .inner) (ht : s.top? k = some e)
      (hd : e.deadline ≤ s.now) :
    TimerStep s (.next k) { s with queue := s.queue.eraseIdx k, pc := .popped e }
  | erased (k : Nat) (e : Entry ι) (hp : s.pc = .popped e) (ha : e.id ∈ s.active) :
    TimerStep s (.next k) { s with active := s.active.erase e.id, pc := .erased e }
  | skipped (k : Nat) (e : Entry ι) (hp : s.pc = .popped e) (ha : e.id ∉ s.active) :
    TimerStep s (.next k) { s with pc := .inner }
  | started (k : Nat) (e : Entry ι) (hp : s.pc = .erased e) :
    TimerStep s (.next k) { s with inflightId := e.id, pc := .running e, log := .started e.id :: s.log }
  | returned (k : Nat) (e : Entry ι) (hp : s.pc = .running e) (hc : s.calls .callback = none) :
    TimerStep s (.next k) { s with pc := .returned e }
  | done (k : Nat) (e : Entry ι) (hp : s.pc = .returned e) :
    TimerStep s (.next k) { s with
      inflightId := InvalidTimerId
      calls := fun c => TimerThreads.unblock (s.calls c)
      pc := .inner }
  | clock (d : Nat) : TimerStep s (.clock d) { s with now := s.now + d }
  | store : TimerStep s .store { s with stopping := true }
  | notifyAll (hs : s.stopping = true) :
    TimerStep s .notifyAll { s with pc := s.pc.notified, notifiedAll := true }

section Cases

variable {s s' : TimerThreads τ ι} {a : TimerThreadsAction τ ι}

omit [DecidableEq τ] in
/-- The top of the queue has a smallest deadline. -/
theorem TimerThreads.top?_min {k : Nat} {e : Entry ι} (ht : s.top? k = some e) :
    ∀ e' ∈ s.queue, e.deadline ≤ e'.deadline := by
  have hall := (Option.filter_eq_some_iff.mp ht).2
  intro e' he'
  exact of_decide_eq_true (List.all_eq_true.mp hall e' he')

theorem callNext_cases {c : Caller τ} (he : s.callNext c = some s') : TimerStep s (.call c) s' := by
  simp only [TimerThreads.callNext] at he
  split at he
  · rename_i hc
    split at he <;> cases he
    exact .stored c hc (by simpa using ‹¬ s.pc.holdsMutex = true›)
  · rename_i hc
    cases he
    exact .notified c hc
  · rename_i hc
    split at he <;> [cases he; skip]
    rename_i hm
    split at he <;> cases he
    · exact .blocked c hc (by simpa using hm) ‹_›
    · exact .cancelled c hc (by simpa using hm) ‹_›
  all_goals cases he

theorem next_cases {k : Nat} (he : s.next k = some s') : TimerStep s (.next k) s' := by
  simp only [TimerThreads.next] at he
  split at he <;> rename_i hp
  · cases he
    exact .moved (hp ▸ .locked)
  · cases he
    split
    · exact .moved (hp ▸ .exited ‹_›)
    · exact .moved (hp ▸ .tested (by simpa using ‹¬ s.stopping = true›))
  · split at he <;> rename_i hq
    · cases he
      exact .moved (hp ▸ .emptied (by simpa using hq))
    · obtain ⟨e, ht, rfl⟩ := Option.map_eq_some_iff.mp he
      exact .moved (hp ▸ .awaited e.deadline (by simpa using hq) (TimerThreads.top?_min ht))
  · cases he
    split <;> rename_i hq
    · exact .moved (hp ▸ .satisfied (by simpa using hq))
    · obtain ⟨hq, hs⟩ : s.queue = [] ∧ s.stopping = false := by simpa using hq
      exact .moved (hp ▸ .unsatisfied hs hq)
  · cases he
    exact .moved (hp ▸ .parked)
  · cases he
    exact .moved (hp ▸ .relocked)
  · cases he
    exact .moved (hp ▸ .parkedUntil _)
  · cases he
    split
    · exact .moved (hp ▸ .due _ _)
    · exact .moved (hp ▸ .early _ _)
  · split at he
    · cases he
      exact .moved (hp ▸ .ended)
    · obtain ⟨e, ht, rfl⟩ := Option.map_eq_some_iff.mp he
      split
      · exact .popped k e hp ht ‹_›
      · exact .moved (hp ▸ .ended)
  · cases he
    split
    · exact .erased k _ hp ‹_›
    · exact .skipped k _ hp ‹_›
  · cases he
    exact .started k _ hp
  · split at he <;> cases he
    exact .returned k _ hp (by simpa using ‹(s.calls .callback).isNone = true›)
  · cases he
    exact .done k _ hp
  all_goals cases he

theorem TimerStep.of_step (he : s.step a = some s') : TimerStep s a s' := by
  cases a with
  | scheduleAt c d i =>
    simp only [TimerThreads.step] at he
    split at he <;> cases he
    exact .drawn c d i ‹_›
  | cancel c id =>
    simp only [TimerThreads.step] at he
    split at he <;> cases he
    exact .entered c id ‹_›
  | call c => exact callNext_cases he
  | wake c =>
    simp only [TimerThreads.step] at he
    split at he <;> cases he
    exact .woke c ‹_›
  | next k => exact next_cases he
  | wakeUp timeout =>
    simp only [TimerThreads.step] at he
    split at he <;> cases he <;> rename_i hp
    · exact .moved (hp ▸ .woken)
    · exact .moved (hp ▸ .wokenUntil _ _)
  | clock d =>
    cases he
    exact .clock d
  | store =>
    cases he
    exact .store
  | notifyAll =>
    simp only [TimerThreads.step] at he
    split at he <;> cases he
    exact .notifyAll ‹_›

end Cases

/-! ## The timers of a state -/

/-- The place of the timer thread in the coarser steps of `ThreadTimerBackend`. -/
def RunPc.thread : RunPc ι → ThreadPc ι
  | .starting => .starting
  | .top | .testQueue | .waitPred | .waitPark | .untilPark _ => .top
  | .waitParked | .waitWoken => .idle
  | .untilParked deadline | .untilWoken deadline _ => .sleep deadline
  | .inner => .inner
  | .popped e => .popped e
  | .erased e => .erased e
  | .running e | .returned e => .running e
  | .exited => .exited

namespace TimerThreads

/-- The state in the coarser steps of `ThreadTimerBackend`, which takes no notice of the
destructor. -/
def backend (s : TimerThreads τ ι) : ThreadTimerBackend ι where
  queue := s.queue
  active := s.active
  inflightId := s.inflightId
  nextId := s.nextId
  thread := s.pc.thread

/-- What a state stands for. An id is issued when its entry is stored. -/
def timers (s : TimerThreads τ ι) : Timers ι :=
  { s.backend.timers with issued := fun id => .scheduled id ∈ s.log }

end TimerThreads

/-- The invariant of the threads. An id that was drawn belongs to one call, and its entry is
yet to be stored. -/
structure ThreadsInv (s : TimerThreads τ ι) : Prop where
  valid : s.backend.Valid s.now
  history : History s.timers s.log
  known : ∀ id, .scheduled id ∈ s.log → 1 ≤ id ∧ id < s.nextId
  stored : ∀ e ∈ s.backend.waiting, .scheduled e.id ∈ s.log
  drawn : ∀ c id d i, s.calls c = some (.scheduling id d i) → (1 ≤ id ∧ id < s.nextId) ∧
    .scheduled id ∉ s.log ∧ ∀ c' d' i', s.calls c' = some (.scheduling id d' i') → c' = c

section Refines

variable {s s' : TimerThreads τ ι} {a : TimerThreadsAction τ ι}

theorem holdsMutex_thread (pc : RunPc ι) : pc.thread.holdsMutex = pc.holdsMutex := by
  cases pc <;> rfl

theorem thread_notified (pc : RunPc ι) : pc.notified.thread = pc.thread := by
  cases pc <;> rfl

omit [DecidableEq τ] in
theorem TimerMove.no_entry {pc pc' : RunPc ι} (h : TimerMove s pc pc') (e : Entry ι) :
    (pc.thread ≠ .popped e ∧ pc.thread ≠ .erased e ∧ pc.thread ≠ .running e) ∧
      pc'.thread ≠ .popped e ∧ pc'.thread ≠ .erased e ∧ pc'.thread ≠ .running e := by
  cases h <;> simp [RunPc.thread]

theorem waiting_of_not_popped {b : ThreadTimerBackend ι} (h : ∀ e, b.thread ≠ .popped e) :
    b.waiting = b.queue := by
  unfold ThreadTimerBackend.waiting
  split
  · exact absurd ‹_› (h _)
  · rfl

omit [DecidableEq τ] in
theorem TimerThreads.timers_ext {v : Timers ι} (hs : s.timers.scheduled = v.scheduled)
    (hr : s.timers.running = v.running) (hi : ∀ id, .scheduled id ∈ s.log ↔ v.issued id) : s.timers = v :=
  Timers.ext hs hr (funext fun id => propext (hi id))

/-- More ids were drawn. -/
theorem ThreadTimerBackend.Valid.draw {now : TimePoint} {b : ThreadTimerBackend ι} (v : b.Valid now) :
    Valid now { b with nextId := b.nextId + 1 } where
  ids e he := ⟨(v.ids e he).1, Nat.lt_succ_of_lt (v.ids e he).2⟩
  nodup := v.nodup
  active := v.active
  next := Nat.le_add_left 1 _
  popped := v.popped
  erased e he := ⟨(v.erased e he).1, ⟨(v.erased e he).2.issued.1, Nat.lt_succ_of_lt (v.erased e he).2.issued.2⟩,
    (v.erased e he).2.inactive, (v.erased e he).2.gone⟩
  running e he := ⟨(v.running e he).1, ⟨(v.running e he).2.issued.1,
    Nat.lt_succ_of_lt (v.running e he).2.issued.2⟩, (v.running e he).2.inactive, (v.running e he).2.gone⟩
  inflight := v.inflight

omit [DecidableEq τ] in
/-- A step that leaves the timers as they are. -/
theorem silent_ok (hv : s'.backend.Valid s'.now) (ht : s'.backend.timers = s.backend.timers)
    (hl : s'.log = s.log) : s'.backend.Valid s'.now ∧ s.timers.Step s.log s'.timers s'.log := by
  have heq : s'.timers = s.timers := by rw [TimerThreads.timers, TimerThreads.timers, ht, hl]
  rw [heq, hl]
  exact ⟨hv, .silent⟩

omit [DecidableEq τ] in
/-- A step that leaves what the coarser steps know as it is. -/
theorem aside_ok (v : s.backend.Valid s.now) (hq : s'.queue = s.queue) (ha : s'.active = s.active)
    (hi : s'.inflightId = s.inflightId) (hn : s'.nextId = s.nextId) (ht : s'.pc.thread = s.pc.thread)
    (hnow : s.now ≤ s'.now) (hl : s'.log = s.log) :
    s'.backend.Valid s'.now ∧ s.timers.Step s.log s'.timers s'.log := by
  have hb : s'.backend = s.backend := by simp only [TimerThreads.backend, hq, ha, hi, hn, ht]
  exact silent_ok (hb ▸ v.mono hnow) (by rw [hb]) hl

/-- A step is an operation on the timers that the state stands for. -/
theorem TimerStep.timers (h : TimerStep s a s') (hi : ThreadsInv s) :
    s'.backend.Valid s'.now ∧ s.timers.Step s.log s'.timers s'.log := by
  have v := hi.valid
  have hfree : s.pc.holdsMutex = false → s.backend.thread.holdsMutex = false :=
    fun hm => (holdsMutex_thread s.pc).trans hm
  have hthread : s.backend.thread = s.pc.thread := rfl
  cases h with
  | drawn c d i hm => exact ⟨v.draw, .silent⟩
  | entered | blocked | woke | store => exact ⟨v, .silent⟩
  | clock d => exact aside_ok v rfl rfl rfl rfl rfl (Int.le_add_of_nonneg_right (Int.natCast_nonneg d)) rfl
  | notified c hc => exact aside_ok v rfl rfl rfl rfl (thread_notified s.pc) le_rfl rfl
  | notifyAll hs => exact aside_ok v rfl rfl rfl rfl (thread_notified s.pc) le_rfl rfl
  | returned k e hp hc => exact aside_ok v rfl rfl rfl rfl (by rw [hp]; rfl) le_rfl rfl
  | @stored c id d i hc hm =>
    obtain ⟨hid, hnew, -⟩ := hi.drawn c id d i hc
    obtain ⟨hv, hs⟩ := ThreadTimerBackend.store_ok (d := d) (i := i) v (hfree hm) hid le_rfl
      (fun e he heq => hnew (heq ▸ hi.stored e he))
      (fun e he heq => hnew (heq ▸ (hi.history.running e.id e.callback ⟨e.deadline, he⟩).1))
    have heq : TimerThreads.timers { s with
        active := insert id s.active, queue := ⟨d, id, i⟩ :: s.queue,
        calls := update s.calls c (some (.notifying id)), log := .scheduled id :: s.log } =
        s.timers.schedule id d i :=
      TimerThreads.timers_ext hs rfl fun id' => by simp [TimerThreads.timers, or_comm]
    exact ⟨hv, heq ▸ .schedule id d i hnew⟩
  | @cancelled c id hc hm hne =>
    have hcan : s.backend.cancel id = some (decide (id ∈ s.active), { s.backend with
        active := s.active.erase id }) :=
      if_neg (by rw [hfree hm]; exact fun h => h.elim Bool.noConfusion hne)
    obtain ⟨hv, hrun, hr, ht⟩ := ThreadTimerBackend.cancel_ok v hcan
    have hsch := congrArg Timers.scheduled ht
    have hrun' := congrArg Timers.running ht
    have heq : TimerThreads.timers { s with
        active := s.active.erase id, calls := update s.calls c none,
        log := .cancelled id (decide (id ∈ s.active)) :: s.log } = s.timers.cancel id :=
      TimerThreads.timers_ext hsch hrun'
        fun id' => by simp [TimerThreads.timers]
    exact ⟨hv, heq ▸ .cancel id _ hrun hr⟩
  | @moved _ pc hmove =>
    have hno := hmove.no_entry
    obtain ⟨hv, ht⟩ := ThreadTimerBackend.move_ok (t := pc.thread) v
      (waiting_of_not_popped fun e => (hno e).1.1) (fun e => (hno e).1.2.1) (fun e => (hno e).1.2.2)
      (fun e => (hno e).2)
    exact silent_ok hv ht rfl
  | popped k e hp htop hd =>
    obtain ⟨hk, hek⟩ := ThreadTimerBackend.top?_eq (b := s.backend) htop
    obtain ⟨hv, ht⟩ := ThreadTimerBackend.pop_ok v (by rw [hthread, hp]; rfl) hk hek hd
    exact silent_ok hv ht rfl
  | erased k e hp ha =>
    obtain ⟨hv, ht⟩ := ThreadTimerBackend.erase_ok (e := e) v (by rw [hthread, hp]; rfl)
    exact silent_ok hv (ht ha) rfl
  | skipped k e hp ha =>
    obtain ⟨hv, ht⟩ := ThreadTimerBackend.skip_ok (e := e) v (by rw [hthread, hp]; rfl) ha
    exact silent_ok hv ht rfl
  | started k e hp =>
    have hf : s.backend.fire e.id = some (e.callback, { s.backend with
        inflightId := e.id, thread := .running e }) := by
      simp [ThreadTimerBackend.fire, hthread, hp, RunPc.thread]
    obtain ⟨hv, ⟨d, -, hs⟩, ht⟩ := ThreadTimerBackend.fire_ok v hf
    have hsch := congrArg Timers.scheduled ht
    have hrun' := congrArg Timers.running ht
    have heq : TimerThreads.timers { s with
        inflightId := e.id, pc := .running e, log := .started e.id :: s.log } = s.timers.fire e.id e.callback :=
      TimerThreads.timers_ext hsch hrun'
        fun id' => by simp [TimerThreads.timers]
    exact ⟨hv, heq ▸ .fire e.id d e.callback hs⟩
  | done k e hp =>
    have hf : s.backend.done e.id = some (e.callback, { s.backend with
        inflightId := InvalidTimerId, thread := .inner }) := by
      simp [ThreadTimerBackend.done, hthread, hp, RunPc.thread]
    obtain ⟨hv, -, ht⟩ := ThreadTimerBackend.done_ok v hf
    have hsch := congrArg Timers.scheduled ht
    have hrun' := congrArg Timers.running ht
    have heq : TimerThreads.timers { s with
        inflightId := InvalidTimerId, calls := fun c => TimerThreads.unblock (s.calls c), pc := .inner } =
        s.timers.done e.id :=
      TimerThreads.timers_ext hsch hrun' fun _ => Iff.rfl
    exact ⟨hv, heq ▸ .done e.id⟩

end Refines

/-! ## The invariant -/

section Invariant

variable {s s' : TimerThreads τ ι} {a : TimerThreadsAction τ ι}

theorem TimerStep.mem_log (h : TimerStep s a s') {e : TimerEvent} (he : e ∈ s.log) : e ∈ s'.log := by
  cases h <;> first | exact he | exact List.mem_cons_of_mem _ he

/-- The ids that were drawn are known, and an entry is stored under such an id. -/
theorem TimerStep.known (h : TimerStep s a s') (hi : ThreadsInv s) (id : TimerId)
    (he : .scheduled id ∈ s'.log) : 1 ≤ id ∧ id < s'.nextId := by
  cases h with
  | drawn => exact ⟨(hi.known id he).1, Nat.lt_succ_of_lt (hi.known id he).2⟩
  | stored c hc hm =>
    rcases List.mem_cons.mp he with heq | he
    · cases heq
      exact (hi.drawn c _ _ _ hc).1
    · exact hi.known id he
  | cancelled | started =>
    refine hi.known id ((List.mem_cons.mp he).resolve_left ?_)
    simp
  | _ => exact hi.known id he

/-- An entry that waits was waiting, or was stored in the step. -/
theorem TimerStep.mem_waiting (h : TimerStep s a s') {e : Entry ι} (he : e ∈ s'.backend.waiting) :
    e ∈ s.backend.waiting ∨ .scheduled e.id ∈ s'.log := by
  have hold : (∀ e, s.pc.thread ≠ .popped e) → s.backend.waiting = s.queue :=
    fun h => waiting_of_not_popped h
  cases h with
  | @stored c id d i hc hm =>
    have hfree : s.backend.thread.holdsMutex = false := (holdsMutex_thread s.pc).trans hm
    rw [ThreadTimerBackend.waiting_of_free hfree]
    rw [ThreadTimerBackend.waiting_of_free (by exact hfree)] at he
    rcases List.mem_cons.mp he with rfl | he
    · exact .inr List.mem_cons_self
    · exact .inl he
  | notified | notifyAll =>
    refine .inl ?_
    simpa only [ThreadTimerBackend.waiting, TimerThreads.backend, thread_notified] using he
  | moved hmove =>
    rw [waiting_of_not_popped fun e => (hmove.no_entry e).2.1] at he
    rw [hold fun e => (hmove.no_entry e).1.1]
    exact .inl he
  | popped k e' hp htop hd =>
    obtain ⟨hk, hek⟩ := ThreadTimerBackend.top?_eq (b := s.backend) htop
    rw [hold (by simp [hp, RunPc.thread])]
    rcases List.mem_cons.mp he with rfl | he
    · exact .inl (hek ▸ List.getElem_mem hk)
    · exact .inl (List.mem_of_mem_eraseIdx he)
  | erased k e' hp ha | skipped k e' hp ha =>
    refine .inl ?_
    have hw : s.backend.waiting = e' :: s.queue := by
      simp [ThreadTimerBackend.waiting, TimerThreads.backend, hp, RunPc.thread]
    rw [hw]
    exact List.mem_cons_of_mem _ he
  | started k e' hp | returned k e' hp hc | done k e' hp =>
    rw [hold (by simp [hp, RunPc.thread])]
    exact .inl he
  | _ => exact .inl he

omit [DecidableEq τ] in
/-- A step that draws no id keeps what is known of those that were drawn. -/
theorem ThreadsInv.drawn_of_sub (hi : ThreadsInv s) (hn : s'.nextId = s.nextId)
    (hcalls : ∀ c id d i, s'.calls c = some (.scheduling id d i) → s.calls c = some (.scheduling id d i))
    (hlog : ∀ c id d i, s'.calls c = some (.scheduling id d i) →
      .scheduled id ∈ s'.log → .scheduled id ∈ s.log)
    (c : Caller τ) (id : TimerId) (d : TimePoint) (i : ι) (hc : s'.calls c = some (.scheduling id d i)) :
    (1 ≤ id ∧ id < s'.nextId) ∧ .scheduled id ∉ s'.log ∧
      ∀ c' d' i', s'.calls c' = some (.scheduling id d' i') → c' = c := by
  obtain ⟨hid, hnew, huniq⟩ := hi.drawn c id d i (hcalls c id d i hc)
  exact ⟨hn ▸ hid, fun h => hnew (hlog c id d i hc h), fun c' d' i' hc' => huniq c' d' i' (hcalls _ _ _ _ hc')⟩

/-- A call moves, and the others stay. -/
theorem update_cases {calls : Caller τ → Option (TimerCall ι)} {c c' : Caller τ}
    {call call' : Option (TimerCall ι)} (h : update calls c call c' = call') :
    c' = c ∧ call = call' ∨ c' ≠ c ∧ calls c' = call' := by
  rw [Function.update_apply] at h
  split at h
  · exact .inl ⟨‹_›, h⟩
  · exact .inr ⟨‹_›, h⟩

theorem scheduling_of_update {calls : Caller τ → Option (TimerCall ι)} {c c' : Caller τ}
    {call : Option (TimerCall ι)} {id : TimerId} {d : TimePoint} {i : ι}
    (hcall : ∀ id d i, call ≠ some (.scheduling id d i))
    (h : update calls c call c' = some (.scheduling id d i)) :
    c' ≠ c ∧ calls c' = some (.scheduling id d i) :=
  (update_cases h).resolve_left fun h => hcall id d i h.2

omit [DecidableEq τ] in
theorem unblock_scheduling {call : Option (TimerCall ι)} {id : TimerId} {d : TimePoint} {i : ι}
    (h : TimerThreads.unblock call = some (.scheduling id d i)) : call = some (.scheduling id d i) := by
  unfold TimerThreads.unblock at h
  split at h
  · cases h
  · exact h

theorem TimerStep.drawn_ok (h : TimerStep s a s') (hi : ThreadsInv s) :
    ∀ c id d i, s'.calls c = some (.scheduling id d i) → (1 ≤ id ∧ id < s'.nextId) ∧
      .scheduled id ∉ s'.log ∧ ∀ c' d' i', s'.calls c' = some (.scheduling id d' i') → c' = c := by
  cases h with
  | drawn c₀ d₀ i₀ hm =>
    intro c id d i hc
    have hnext : .scheduled s.nextId ∉ s.log := fun h => Nat.lt_irrefl _ (hi.known _ h).2
    rcases update_cases hc with ⟨rfl, heq⟩ | ⟨hne, hc⟩
    · cases heq
      refine ⟨⟨hi.valid.next, Nat.lt_succ_self _⟩, hnext, fun c' d' i' hc' => ?_⟩
      rcases update_cases hc' with ⟨rfl, -⟩ | ⟨-, hc'⟩
      · rfl
      · exact absurd (hi.drawn c' _ _ _ hc').1.2 (Nat.lt_irrefl _)
    · obtain ⟨hid, hnew, huniq⟩ := hi.drawn c id d i hc
      refine ⟨⟨hid.1, Nat.lt_succ_of_lt hid.2⟩, hnew, fun c' d' i' hc' => ?_⟩
      rcases update_cases hc' with ⟨rfl, heq⟩ | ⟨-, hc'⟩
      · cases heq
        exact absurd hid.2 (Nat.lt_irrefl _)
      · exact huniq c' d' i' hc'
  | @stored c₀ id₀ d₀ i₀ hc₀ hm =>
    refine hi.drawn_of_sub rfl (fun c id d i hc => (scheduling_of_update (by simp) hc).2) ?_
    intro c id d i hc hmem
    obtain ⟨hne, hc⟩ := scheduling_of_update (by simp) hc
    rcases List.mem_cons.mp hmem with heq | hmem
    · cases heq
      exact absurd ((hi.drawn c₀ id₀ d₀ i₀ hc₀).2.2 c d i hc) hne
    · exact hmem
  | entered | blocked | woke | notified =>
    exact hi.drawn_of_sub rfl (fun c id d i hc => (scheduling_of_update (by simp) hc).2) fun _ _ _ _ _ h => h
  | cancelled =>
    exact hi.drawn_of_sub rfl (fun c id d i hc => (scheduling_of_update (by simp) hc).2)
      fun _ _ _ _ _ h => (List.mem_cons.mp h).resolve_left (by simp)
  | started =>
    exact hi.drawn_of_sub rfl (fun _ _ _ _ hc => hc)
      fun _ _ _ _ _ h => (List.mem_cons.mp h).resolve_left (by simp)
  | done => exact hi.drawn_of_sub rfl (fun _ _ _ _ hc => unblock_scheduling hc) fun _ _ _ _ _ h => h
  | _ => exact hi.drawn_of_sub rfl (fun _ _ _ _ hc => hc) fun _ _ _ _ _ h => h

omit [DecidableEq τ] in
theorem ThreadsInv.init : ThreadsInv ({} : TimerThreads τ ι) where
  valid := by
    constructor <;> simp [TimerThreads.backend, ThreadTimerBackend.waiting, RunPc.thread]
  history := by
    have heq : ({} : TimerThreads τ ι).timers = .empty :=
      Timers.ext (by funext; simp [TimerThreads.timers, TimerThreads.backend, ThreadTimerBackend.timers,
        ThreadTimerBackend.waiting, RunPc.thread, Timers.empty])
        (by funext; simp [TimerThreads.timers, TimerThreads.backend, ThreadTimerBackend.timers,
          RunPc.thread, Timers.empty])
        (by funext; simp [TimerThreads.timers, Timers.empty])
    rw [heq]
    exact .empty
  known := by simp
  stored := by simp [TimerThreads.backend, ThreadTimerBackend.waiting, RunPc.thread]
  drawn := by simp

theorem ThreadsInv.step (hi : ThreadsInv s) (he : s.step a = some s') : ThreadsInv s' := by
  have h := TimerStep.of_step he
  obtain ⟨hv, ht⟩ := h.timers hi
  refine ⟨hv, ht.history hi.history, h.known hi, fun e hw => ?_, h.drawn_ok hi⟩
  rcases h.mem_waiting hw with hw | hw
  · exact h.mem_log (hi.stored e hw)
  · exact hw

theorem ThreadsInv.reach {ok : TimerThreads τ ι → TimerThreadsAction τ ι → Prop}
    (h : (TimerThreads.lts τ ι).Reach ok s) : ThreadsInv s :=
  Lts.Path.invariant h .init fun hi _ he => hi.step he

end Invariant

/-! ## What the callers are promised -/

section Promises

variable {s : TimerThreads τ ι}

omit [DecidableEq τ] in
/-- While no thread is in a critical section, an id in `_active` has one entry in the queue. -/
theorem ThreadsInv.active_entry (hi : ThreadsInv s) (hm : s.pc.holdsMutex = false) {id : TimerId}
    (ha : id ∈ s.active) : (s.queue.map Entry.id).count id = 1 := by
  have hw : s.backend.waiting = s.queue :=
    ThreadTimerBackend.waiting_of_free ((holdsMutex_thread s.pc).trans hm)
  have hnodup := hi.valid.nodup
  obtain ⟨e, he, rfl⟩ := hi.valid.active id ha
  rw [hw] at he hnodup
  exact List.count_eq_one_of_mem hnodup (List.mem_map_of_mem he)

omit [DecidableEq τ] in
/-- `_inflightId` is the id of the callback that is executed. -/
theorem ThreadsInv.inflight (hi : ThreadsInv s) :
    (∀ e, s.pc = .running e ∨ s.pc = .returned e → s.inflightId = e.id) ∧
      (s.inflightId ≠ InvalidTimerId → ∃ e, s.pc = .running e ∨ s.pc = .returned e) := by
  refine ⟨fun e hp => ?_, fun hne => ?_⟩
  · refine (hi.valid.running e ?_).1
    rcases hp with hp | hp <;> simp [TimerThreads.backend, hp, RunPc.thread]
  · by_contra hn
    refine hne (hi.valid.inflight fun e hp => hn ⟨e, ?_⟩)
    simp only [TimerThreads.backend] at hp
    cases hpc : s.pc <;> simp_all [RunPc.thread]

omit [DecidableEq τ] in
/-- The callback of an id whose `Cancel` returned is not executed. -/
theorem ThreadsInv.not_running (hi : ThreadsInv s) {id : TimerId} (hend : Ended s.log id) (e : Entry ι)
    (hp : s.pc = .running e) : e.id ≠ id := by
  rintro rfl
  refine (hi.history.running e.id e.callback ⟨e.deadline, ?_⟩).2 hend
  simp [TimerThreads.backend, hp, RunPc.thread]

/-- In every run: the callback of an id starts once at most; it does not if a `Cancel` of
the id returns `true`; once a `Cancel` of an id that was scheduled has returned, its callback
is not executed and does not start. -/
theorem cancel_final (h : (TimerThreads.lts τ ι).Reach Lts.Any s) (id : TimerId) :
    (s.log.count (.started id) ≤ 1 ∧
      (.cancelled id true ∈ s.log → .started id ∉ s.log ∧ ∀ e, s.pc = .running e → e.id ≠ id) ∧
      ∀ later earlier r, s.log = later ++ .cancelled id r :: earlier → .scheduled id ∈ earlier →
        .started id ∉ later ∧ ∀ e, s.pc = .running e → e.id ≠ id) ∧
    ((s.log.filterMap TimerEvent.scheduledId).Nodup ∧ (.scheduled id ∈ s.log → id ≠ InvalidTimerId)) ∧
    (s.pc.holdsMutex = false → id ∈ s.active → (s.queue.map Entry.id).count id = 1) ∧
    (∀ e, s.pc = .running e ∨ s.pc = .returned e → s.inflightId = e.id) ∧
    (s.inflightId ≠ InvalidTimerId → ∃ e, s.pc = .running e ∨ s.pc = .returned e) := by
  have hi := ThreadsInv.reach h
  refine ⟨⟨hi.history.once id, fun hc => ?_, fun later earlier r heq hs => ?_⟩,
    ⟨hi.history.unique, fun hs => ?_⟩, fun hm ha => hi.active_entry hm ha, hi.inflight⟩
  · obtain ⟨hend, hns⟩ := hi.history.removed id hc
    exact ⟨hns, hi.not_running hend⟩
  · exact ⟨hi.history.not_started heq hs, hi.not_running ⟨later, earlier, r, heq, hs⟩⟩
  · exact Nat.one_le_iff_ne_zero.mp (hi.known id hs).1

/-- Two callbacks are due, and the first is started. It cancels the other, and a `Cancel` of
its own id waits for it. -/
theorem cancel_final_both : ∃ s, (TimerThreads.lts Unit Unit).Reach Lts.Any s ∧
    s.log = [.cancelled 1 false, .cancelled 2 true, .started 1, .scheduled 2, .scheduled 1] ∧
    .started 2 ∉ s.log ∧ ∀ e, s.pc = .running e → e.id ≠ 1 ∧ e.id ≠ 2 := by
  obtain ⟨s, hs, hq⟩ := Lts.Reach.of_run (TimerThreads.lts Unit Unit) Lts.Any
    [.scheduleAt (.thread ()) 0 (), .call (.thread ()), .call (.thread ()),
      .scheduleAt (.thread ()) 0 (), .call (.thread ()), .call (.thread ()),
      .next 0, .next 0, .next 1, .next 0, .wakeUp true, .next 0, .next 1, .next 0, .next 0,
      .cancel (.thread ()) 1, .call (.thread ()), .cancel .callback 2, .call .callback,
      .next 0, .next 0, .next 0, .next 0, .next 0, .next 0, .next 0, .next 0, .next 0, .call (.thread ())]
    (fun s => s.log = [.cancelled 1 false, .cancelled 2 true, .started 1, .scheduled 2, .scheduled 1])
    (by decide +kernel)
  have hlog := of_decide_eq_true hq
  obtain ⟨⟨-, -, h₁⟩, -⟩ := cancel_final hs 1
  obtain ⟨⟨-, h₂, -⟩, -⟩ := cancel_final hs 2
  obtain ⟨hns, hn₂⟩ := h₂ (by simp [hlog])
  obtain ⟨-, hn₁⟩ := h₁ [] _ false hlog (by simp)
  exact ⟨s, hs, hlog, hns, fun e hp => ⟨hn₁ e hp, hn₂ e hp⟩⟩

end Promises

end TX.Exec
