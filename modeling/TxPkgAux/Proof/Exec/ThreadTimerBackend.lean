import TxPkgAux.Impl.Exec.ThreadTimerBackend

/-!
# `ThreadTimerBackend` meets the contract

The timers a state stands for (`timers`): those of the entries still in the
queue, or just popped from it, whose id is in `_active`, and the entry about to
be entered. `Valid` ties `_queue`, `_active`, `_inflightId` and the place of the
timer thread together; each operation keeps it and is the abstract operation
(`threadTimerBackend_contract`).
-/

namespace TX.Exec

namespace ThreadTimerBackend

variable {ι : Type}

/-- The entries not yet tested against `_active`: the queue, and the entry just
popped from it. -/
def waiting (b : ThreadTimerBackend ι) : List (Entry ι) :=
  match b.thread with
  | .popped e => e :: b.queue
  | _ => b.queue

/-- What a state stands for. -/
def timers (b : ThreadTimerBackend ι) : Timers ι where
  scheduled id d i := (⟨d, id, i⟩ ∈ b.waiting ∧ id ∈ b.active) ∨ b.thread = .erased ⟨d, id, i⟩
  running id i := ∃ d, b.thread = .running ⟨d, id, i⟩
  issued id := 1 ≤ id ∧ id < b.nextId

/-- An entry that left the queue and `_active`. -/
structure Taken (b : ThreadTimerBackend ι) (e : Entry ι) : Prop where
  issued : 1 ≤ e.id ∧ e.id < b.nextId
  inactive : e.id ∉ b.active
  gone : ∀ e' ∈ b.waiting, e'.id ≠ e.id

/-- The invariant of the backend, at the time `now`. -/
structure Valid (now : TimePoint) (b : ThreadTimerBackend ι) : Prop where
  ids : ∀ e ∈ b.waiting, 1 ≤ e.id ∧ e.id < b.nextId
  nodup : (b.waiting.map Entry.id).Nodup
  active : ∀ id ∈ b.active, ∃ e ∈ b.waiting, e.id = id
  next : 1 ≤ b.nextId
  popped : ∀ e, b.thread = .popped e → e.deadline ≤ now
  erased : ∀ e, b.thread = .erased e → e.deadline ≤ now ∧ b.Taken e
  running : ∀ e, b.thread = .running e → b.inflightId = e.id ∧ b.Taken e
  inflight : (∀ e, b.thread ≠ .running e) → b.inflightId = InvalidTimerId

theorem Valid.mono {now now' : TimePoint} {b : ThreadTimerBackend ι} (h : now ≤ now')
    (v : b.Valid now) : b.Valid now' :=
  { v with
    popped := fun e he => (v.popped e he).trans h
    erased := fun e he => ⟨(v.erased e he).1.trans h, (v.erased e he).2⟩ }

theorem waiting_of_free {b : ThreadTimerBackend ι} (h : b.thread.holdsMutex = false) :
    b.waiting = b.queue := by
  unfold waiting
  split <;> simp_all [ThreadPc.holdsMutex]

theorem not_erased_of_free {b : ThreadTimerBackend ι} (h : b.thread.holdsMutex = false) (e : Entry ι) :
    b.thread ≠ .erased e := by
  intro he
  rw [he] at h
  exact absurd h (by simp [ThreadPc.holdsMutex])

/-! ## The operations of the callers -/

theorem scheduleAt_eq {b b' : ThreadTimerBackend ι} {d : TimePoint} {i : ι} {id : TimerId}
    (h : b.scheduleAt d i = some (id, b')) :
    b.thread.holdsMutex = false ∧ id = b.nextId ∧ b' = { b with
      nextId := b.nextId + 1, active := insert b.nextId b.active,
      queue := ⟨d, b.nextId, i⟩ :: b.queue } := by
  unfold scheduleAt at h
  split at h <;> cases h
  rename_i hm
  exact ⟨by simpa using hm, rfl, rfl⟩

/-- A new entry is stored, with an id that no entry has. -/
theorem store_ok {now d : TimePoint} {b : ThreadTimerBackend ι} {i : ι} {id n : TimerId} (v : b.Valid now)
    (hm : b.thread.holdsMutex = false) (hid : 1 ≤ id ∧ id < n) (hn : b.nextId ≤ n)
    (hnew : ∀ e ∈ b.waiting, e.id ≠ id) (hrun : ∀ e, b.thread = .running e → e.id ≠ id) :
    Valid now { b with nextId := n, active := insert id b.active, queue := ⟨d, id, i⟩ :: b.queue } ∧
      (timers { b with nextId := n, active := insert id b.active, queue := ⟨d, id, i⟩ :: b.queue }).scheduled =
        (b.timers.schedule id d i).scheduled := by
  have hw := waiting_of_free hm
  have hw' : waiting { b with
      nextId := n, active := insert id b.active, queue := ⟨d, id, i⟩ :: b.queue } =
      ⟨d, id, i⟩ :: b.waiting := by
    rw [hw]; exact waiting_of_free hm
  refine ⟨⟨?_, ?_, ?_, v.next.trans hn, v.popped, ?_, ?_, v.inflight⟩, ?_⟩
  · intro e he
    rw [hw', List.mem_cons] at he
    rcases he with rfl | he
    · exact hid
    · exact ⟨(v.ids e he).1, (v.ids e he).2.trans_le hn⟩
  · rw [hw', List.map_cons, List.nodup_cons]
    refine ⟨fun hmem => ?_, v.nodup⟩
    obtain ⟨e, he, heq⟩ := List.mem_map.mp hmem
    exact hnew e he heq
  · intro id' hid'
    rw [hw']
    rcases Finset.mem_insert.mp hid' with rfl | hid'
    · exact ⟨_, List.mem_cons_self, rfl⟩
    · obtain ⟨e, he, hi⟩ := v.active id' hid'
      exact ⟨e, List.mem_cons_of_mem _ he, hi⟩
  · exact fun e he => absurd he (not_erased_of_free hm e)
  · intro e he
    obtain ⟨hi, ht⟩ := v.running e he
    refine ⟨hi, ⟨ht.issued.1, ht.issued.2.trans_le hn⟩, fun hmem => ?_, fun e' he' => ?_⟩
    · rcases Finset.mem_insert.mp hmem with heq | hmem
      · exact hrun e he heq
      · exact ht.inactive hmem
    · rw [hw', List.mem_cons] at he'
      rcases he' with rfl | he'
      · exact (hrun e he).symm
      · exact ht.gone e' he'
  · funext id' d' i'
    refine propext ⟨fun hs => ?_, fun hs => ?_⟩
    · rcases hs with ⟨hmem, hact⟩ | he
      · rw [hw', List.mem_cons] at hmem
        rcases hmem with heq | hmem
        · cases heq
          exact .inr ⟨rfl, rfl, rfl⟩
        · refine .inl (.inl ⟨hmem, ?_⟩)
          exact (Finset.mem_insert.mp hact).resolve_left (hnew _ hmem)
      · exact .inl (.inr he)
    · rcases hs with (⟨hmem, hact⟩ | he) | ⟨rfl, rfl, rfl⟩
      · exact .inl ⟨by rw [hw']; exact List.mem_cons_of_mem _ hmem, Finset.mem_insert_of_mem hact⟩
      · exact .inr he
      · exact .inl ⟨by rw [hw']; exact List.mem_cons_self, Finset.mem_insert_self _ _⟩

theorem scheduleAt_ok {now d : TimePoint} {b b' : ThreadTimerBackend ι} {i : ι} {id : TimerId}
    (v : b.Valid now) (h : b.scheduleAt d i = some (id, b')) :
    b'.Valid now ∧ id ≠ InvalidTimerId ∧ ¬ b.timers.issued id ∧
      b'.timers = b.timers.schedule id d i := by
  obtain ⟨hm, rfl, rfl⟩ := scheduleAt_eq h
  obtain ⟨hv, hs⟩ := store_ok (d := d) (i := i) v hm ⟨v.next, Nat.lt_succ_self _⟩ (Nat.le_succ _)
    (fun e he => Nat.ne_of_lt (v.ids e he).2) (fun e he => Nat.ne_of_lt (v.running e he).2.issued.2)
  refine ⟨hv, Nat.one_le_iff_ne_zero.mp v.next, fun hi => Nat.lt_irrefl _ hi.2, Timers.ext hs rfl ?_⟩
  funext id'
  refine propext ⟨fun hs => ?_, ?_⟩
  · exact (Nat.lt_succ_iff_lt_or_eq.mp hs.2).imp (fun hlt => ⟨hs.1, hlt⟩) id
  · rintro (hs | rfl)
    · exact ⟨hs.1, Nat.lt_succ_of_lt hs.2⟩
    · exact ⟨v.next, Nat.lt_succ_self _⟩

theorem cancel_eq {b b' : ThreadTimerBackend ι} {id : TimerId} {r : Bool}
    (h : b.cancel id = some (r, b')) :
    b.thread.holdsMutex = false ∧ b.inflightId ≠ id ∧ r = decide (id ∈ b.active) ∧
      b' = { b with active := b.active.erase id } := by
  unfold cancel at h
  split at h <;> simp_all

theorem cancel_ok {now : TimePoint} {b b' : ThreadTimerBackend ι} {id : TimerId} {r : Bool}
    (v : b.Valid now) (h : b.cancel id = some (r, b')) :
    b'.Valid now ∧ (∀ i, ¬ b.timers.running id i) ∧ (r = true ↔ ∃ d i, b.timers.scheduled id d i) ∧
      b'.timers = b.timers.cancel id := by
  obtain ⟨hm, hne, rfl, rfl⟩ := cancel_eq h
  have hw' : waiting { b with active := b.active.erase id } = b.waiting := rfl
  refine ⟨⟨v.ids, v.nodup, fun id' hid => v.active id' (Finset.mem_of_mem_erase hid), v.next,
    v.popped, fun e he => absurd he (not_erased_of_free hm e), fun e he => ?_, v.inflight⟩, ?_, ?_, ?_⟩
  · obtain ⟨hi, ht⟩ := v.running e he
    exact ⟨hi, ht.issued, fun hmem => ht.inactive (Finset.mem_of_mem_erase hmem), ht.gone⟩
  · rintro i ⟨d, hd⟩
    exact hne (v.running _ hd).1
  · rw [decide_eq_true_iff]
    refine ⟨fun hid => ?_, ?_⟩
    · obtain ⟨e, he, rfl⟩ := v.active id hid
      exact ⟨e.deadline, e.callback, .inl ⟨he, hid⟩⟩
    · rintro ⟨d, i, ⟨-, hact⟩ | he⟩
      · exact hact
      · exact absurd he (not_erased_of_free hm _)
  · refine Timers.ext ?_ rfl rfl
    funext id' d' i'
    refine propext ⟨?_, ?_⟩
    · rintro (⟨hmem, hact⟩ | he)
      · exact ⟨.inl ⟨hmem, Finset.mem_of_mem_erase hact⟩, Finset.ne_of_mem_erase hact⟩
      · exact absurd he (not_erased_of_free hm _)
    · rintro ⟨⟨hmem, hact⟩ | he, hid⟩
      · exact .inl ⟨hmem, Finset.mem_erase_of_ne_of_mem hid hact⟩
      · exact .inr he

/-! ## The timer thread -/

/-- Moving the timer thread between places where it has popped no entry changes
nothing. -/
theorem move_ok {now : TimePoint} {b : ThreadTimerBackend ι} {t : ThreadPc ι} (v : b.Valid now)
    (hb : b.waiting = b.queue) (he : ∀ e, b.thread ≠ .erased e) (hr : ∀ e, b.thread ≠ .running e)
    (ht : ∀ e, t ≠ .popped e ∧ t ≠ .erased e ∧ t ≠ .running e) :
    Valid now { b with thread := t } ∧ timers { b with thread := t } = b.timers := by
  have hw : waiting { b with thread := t } = b.waiting := by
    rw [hb]; unfold waiting
    split
    · rename_i e heq; exact absurd heq (ht e).1
    · rfl
  refine ⟨⟨?_, ?_, ?_, v.next, fun e h => absurd h (ht e).1, fun e h => absurd h (ht e).2.1,
    fun e h => absurd h (ht e).2.2, fun _ => v.inflight hr⟩, ?_⟩
  · rw [hw]; exact v.ids
  · rw [hw]; exact v.nodup
  · rw [hw]; exact v.active
  · refine Timers.ext ?_ ?_ rfl
    · funext id d i
      simp only [timers, hw, (ht _).2.1, he]
    · funext id i
      simp only [timers, (ht _).2.2, hr]

theorem top?_eq {b : ThreadTimerBackend ι} {k : Nat} {e : Entry ι} (h : b.top? k = some e) :
    ∃ hk : k < b.queue.length, b.queue[k] = e := by
  simp only [top?, Option.filter_eq_some_iff] at h
  exact List.getElem?_eq_some_iff.mp h.1

/-- Popping the top only moves it out of the queue. -/
theorem pop_ok {now : TimePoint} {b : ThreadTimerBackend ι} {k : Nat} {e : Entry ι} (v : b.Valid now)
    (hb : b.thread = .inner) (hk : k < b.queue.length) (hek : b.queue[k] = e) (hd : e.deadline ≤ now) :
    Valid now { b with queue := b.queue.eraseIdx k, thread := .popped e } ∧
      timers { b with queue := b.queue.eraseIdx k, thread := .popped e } = b.timers := by
  have hw : b.waiting = b.queue := by unfold waiting; rw [hb]
  have hp : (e :: b.queue.eraseIdx k).Perm b.waiting := by
    rw [hw, ← hek]; exact List.getElem_cons_eraseIdx_perm hk
  refine ⟨⟨fun e' he' => v.ids e' (hp.mem_iff.mp he'), (hp.map Entry.id).nodup_iff.mpr v.nodup,
    fun id hid => ?_, v.next, ?_, ?_, ?_, fun _ => v.inflight (by simp [hb])⟩, ?_⟩
  · obtain ⟨e', he', hi⟩ := v.active id hid
    exact ⟨e', hp.mem_iff.mpr he', hi⟩
  · intro e' he'
    cases he'
    exact hd
  · simp
  · simp
  · refine Timers.ext ?_ ?_ rfl
    · funext id d i
      have : (⟨d, id, i⟩ : Entry ι) ∈ e :: b.queue.eraseIdx k ↔ ⟨d, id, i⟩ ∈ b.waiting := hp.mem_iff
      simp only [timers, waiting, hb, reduceCtorEq, or_false, this] at this ⊢
    · funext id i
      simp [timers, hb]

theorem erase_ok {now : TimePoint} {b : ThreadTimerBackend ι} {e : Entry ι} (v : b.Valid now)
    (hb : b.thread = .popped e) :
    Valid now { b with active := b.active.erase e.id, thread := .erased e } ∧
      (e.id ∈ b.active →
        timers { b with active := b.active.erase e.id, thread := .erased e } = b.timers) := by
  have hw : b.waiting = e :: b.queue := by unfold waiting; rw [hb]
  have hgone : ∀ e' ∈ b.queue, e'.id ≠ e.id := fun e' he' h => by
    have hn := v.nodup
    rw [hw, List.map_cons, List.nodup_cons] at hn
    exact hn.1 (h ▸ List.mem_map_of_mem he')
  refine ⟨⟨fun e' he' => v.ids e' (hw ▸ List.mem_cons_of_mem _ he'), ?_, fun id hid => ?_, v.next,
    ?_, ?_, ?_, fun _ => v.inflight (by simp [hb])⟩, fun hact => ?_⟩
  · have hn := v.nodup
    rw [hw, List.map_cons, List.nodup_cons] at hn
    exact hn.2
  · obtain ⟨e', he', hi⟩ := v.active id (Finset.mem_of_mem_erase hid)
    rw [hw, List.mem_cons] at he'
    rcases he' with rfl | he'
    · exact absurd hi.symm (Finset.ne_of_mem_erase hid)
    · exact ⟨e', he', hi⟩
  · simp
  · intro e' he'
    cases he'
    exact ⟨v.popped e hb, v.ids e (hw ▸ List.mem_cons_self), Finset.notMem_erase _ _, hgone⟩
  · simp
  · refine Timers.ext ?_ ?_ rfl
    · funext id d i
      have hq : waiting { b with active := b.active.erase e.id, thread := .erased e } = b.queue := rfl
      refine propext ⟨?_, ?_⟩
      · rintro (⟨hmem, hid⟩ | he)
        · exact .inl ⟨hw ▸ List.mem_cons_of_mem _ hmem, Finset.mem_of_mem_erase hid⟩
        · cases he
          exact .inl ⟨hw ▸ List.mem_cons_self, hact⟩
      · rintro (⟨hmem, hid⟩ | he)
        · rw [hw, List.mem_cons] at hmem
          rcases hmem with rfl | hmem
          · exact .inr rfl
          · exact .inl ⟨hq ▸ hmem, Finset.mem_erase_of_ne_of_mem (hgone _ hmem) hid⟩
        · rw [hb] at he; cases he
    · funext id i
      simp [timers, hb]

/-- An entry that was cancelled is skipped. -/
theorem skip_ok {now : TimePoint} {b : ThreadTimerBackend ι} {e : Entry ι} (v : b.Valid now)
    (hb : b.thread = .popped e) (hact : e.id ∉ b.active) :
    Valid now { b with thread := .inner } ∧ timers { b with thread := .inner } = b.timers := by
  have hw : b.waiting = e :: b.queue := by unfold waiting; rw [hb]
  refine ⟨⟨fun e' he' => v.ids e' (hw ▸ List.mem_cons_of_mem _ he'), ?_, fun id hid => ?_, v.next,
    by simp, by simp, by simp, fun _ => v.inflight (by simp [hb])⟩, ?_⟩
  · have hn := v.nodup
    rw [hw, List.map_cons, List.nodup_cons] at hn
    exact hn.2
  · obtain ⟨e', he', hi⟩ := v.active id hid
    rw [hw, List.mem_cons] at he'
    rcases he' with rfl | he'
    · exact absurd (hi ▸ hid) hact
    · exact ⟨e', he', hi⟩
  · refine Timers.ext ?_ ?_ rfl
    · funext id d i
      refine propext ⟨?_, ?_⟩
      · rintro (⟨hmem, hid⟩ | he)
        · exact .inl ⟨hw ▸ List.mem_cons_of_mem _ hmem, hid⟩
        · cases he
      · rintro (⟨hmem, hid⟩ | he)
        · rw [hw, List.mem_cons] at hmem
          rcases hmem with rfl | hmem
          · exact absurd hid hact
          · exact .inl ⟨hmem, hid⟩
        · rw [hb] at he; cases he
    · funext id i
      simp [timers, hb]

theorem internal_ok {now : TimePoint} {b b' : ThreadTimerBackend ι} {a : Internal} (v : b.Valid now)
    (h : b.internal now a = some b') : b'.Valid now ∧ b'.timers = b.timers := by
  unfold internal at h
  split at h
  · rename_i hb
    cases h
    exact move_ok v (by unfold waiting; rw [hb]) (by simp [hb]) (by simp [hb]) (by simp)
  · rename_i hb
    have mv := fun t => move_ok (t := t) v (by unfold waiting; rw [hb]) (by simp [hb]) (by simp [hb])
    split at h
    · cases h; exact mv _ (by simp)
    · split at h
      · cases h; exact mv _ (by simp)
      · obtain ⟨e, -, rfl⟩ := Option.map_eq_some_iff.mp h
        exact mv _ (by simp)
  · rename_i hb
    split at h <;> cases h
    exact move_ok v (by unfold waiting; rw [hb]) (by simp [hb]) (by simp [hb]) (by simp)
  · rename_i hb
    cases h
    exact move_ok v (by unfold waiting; rw [hb]) (by simp [hb]) (by simp [hb])
      (by intro e; split <;> simp)
  · rename_i hb
    have mv := fun t => move_ok (t := t) v (by unfold waiting; rw [hb]) (by simp [hb]) (by simp [hb])
    split at h
    · cases h; exact mv _ (by simp)
    · obtain ⟨e, he, rfl⟩ := Option.map_eq_some_iff.mp h
      obtain ⟨hk, hek⟩ := top?_eq he
      split
      · rename_i hd
        exact pop_ok v hb hk hek hd
      · exact mv _ (by simp)
  · rename_i e hb
    cases h
    split
    · rename_i hact
      exact ⟨(erase_ok v hb).1, (erase_ok v hb).2 hact⟩
    · rename_i hact
      exact skip_ok v hb hact
  · cases h

theorem fire_ok {now : TimePoint} {b b' : ThreadTimerBackend ι} {id : TimerId} {i : ι}
    (v : b.Valid now) (h : b.fire id = some (i, b')) :
    b'.Valid now ∧ (∃ d ≤ now, b.timers.scheduled id d i) ∧ b'.timers = b.timers.fire id i := by
  unfold fire at h
  split at h <;> [skip; cases h]
  rename_i e hb
  split at h <;> cases h
  rename_i hid
  subst hid
  obtain ⟨hd, ht⟩ := v.erased e hb
  have hw : b.waiting = b.queue := by unfold waiting; rw [hb]
  have hq : waiting { b with inflightId := e.id, thread := .running e } = b.waiting := by rw [hw]; rfl
  refine ⟨⟨hq ▸ v.ids, hq ▸ v.nodup, hq ▸ v.active, v.next, by simp, by simp, ?_, by simp⟩,
    ⟨e.deadline, hd, .inr hb⟩, ?_⟩
  · intro e' he'
    cases he'
    exact ⟨rfl, ht.issued, ht.inactive, hq ▸ ht.gone⟩
  · refine Timers.ext ?_ ?_ rfl
    · funext id' d' i'
      refine propext ⟨?_, ?_⟩
      · rintro (⟨hmem, hid⟩ | he)
        · exact ⟨.inl ⟨hq ▸ hmem, hid⟩, fun h => ht.inactive (h ▸ hid)⟩
        · cases he
      · rintro ⟨⟨hmem, hid⟩ | he, hne⟩
        · exact .inl ⟨hq ▸ hmem, hid⟩
        · rw [hb] at he
          cases he
          exact absurd rfl hne
    · funext id' i'
      refine propext ⟨?_, ?_⟩
      · rintro ⟨d, he⟩
        cases he
        exact .inr ⟨rfl, rfl⟩
      · rintro (⟨d, he⟩ | ⟨rfl, rfl⟩)
        · rw [hb] at he; cases he
        · exact ⟨e.deadline, rfl⟩

theorem done_ok {now : TimePoint} {b b' : ThreadTimerBackend ι} {id : TimerId} {i : ι}
    (v : b.Valid now) (h : b.done id = some (i, b')) :
    b'.Valid now ∧ b.timers.running id i ∧ b'.timers = b.timers.done id := by
  unfold done at h
  split at h <;> [skip; cases h]
  rename_i e hb
  split at h <;> cases h
  rename_i hid
  subst hid
  have hw : b.waiting = b.queue := by unfold waiting; rw [hb]
  have hq : waiting { b with inflightId := InvalidTimerId, thread := .inner } = b.waiting := by
    rw [hw]; rfl
  refine ⟨⟨hq ▸ v.ids, hq ▸ v.nodup, hq ▸ v.active, v.next, by simp, by simp, by simp, fun _ => rfl⟩,
    ⟨e.deadline, hb⟩, ?_⟩
  refine Timers.ext ?_ ?_ rfl
  · funext id' d' i'
    simp only [timers, Timers.done_scheduled, hq, hb, reduceCtorEq]
  · funext id' i'
    simp only [timers, Timers.done, hb, reduceCtorEq, exists_false, ThreadPc.running.injEq]
    refine propext ⟨False.elim, ?_⟩
    rintro ⟨⟨d, rfl⟩, hne⟩
    exact hne rfl

end ThreadTimerBackend

/-- `ThreadTimerBackend` meets the contract of `ITimerBackend`. -/
def threadTimerBackend_contract (ι : Type) : (threadTimerBackend ι).Contract where
  Valid now b := ThreadTimerBackend.Valid now b
  timers b := ThreadTimerBackend.timers b
  valid_init now :=
    { ids := by simp [threadTimerBackend, ThreadTimerBackend.waiting]
      nodup := by simp [threadTimerBackend, ThreadTimerBackend.waiting]
      active := by simp [threadTimerBackend]
      next := by simp [threadTimerBackend]
      popped := by simp [threadTimerBackend]
      erased := by simp [threadTimerBackend]
      running := by simp [threadTimerBackend]
      inflight := by simp [threadTimerBackend] }
  valid_mono h v := v.mono h
  timers_init := by
    refine Timers.ext ?_ ?_ ?_
    · funext id d i
      simp [ThreadTimerBackend.timers, ThreadTimerBackend.waiting, threadTimerBackend, Timers.empty]
    · funext id i
      simp [ThreadTimerBackend.timers, threadTimerBackend, Timers.empty]
    · funext id
      simp only [ThreadTimerBackend.timers, threadTimerBackend, Timers.empty, eq_iff_iff, iff_false]
      exact fun h => absurd (Nat.lt_of_le_of_lt h.1 h.2) (Nat.lt_irrefl 1)
  scheduleAt_ok v h := ThreadTimerBackend.scheduleAt_ok v h
  cancel_ok v h := ThreadTimerBackend.cancel_ok v h
  internal_ok v h := ThreadTimerBackend.internal_ok v h
  fire_ok v h := ThreadTimerBackend.fire_ok v h
  done_ok v h := ThreadTimerBackend.done_ok v h

end TX.Exec
