import TxPkgAux.Impl.Exec.LoopTimerBackend
import Mathlib.Algebra.Order.Group.Int

/-!
# `LoopTimerBackend`: what holds of every run

`LoopTimerBackend.Valid` is kept by the operations of the backend (`scheduleAt_ok`, `cancel_ok`,
`takeFront_ok`), and `TimerLog` ties its entries to the events that its callers saw: an entry is
an id that was scheduled and has neither fired nor been cancelled. Both hold at every step of a
run, in callbacks too, and `loop_timers_promises` reads the promises off them.
-/

namespace TX.Exec

variable {β : Type}

/-! ## The operations -/

namespace LoopTimerBackend

structure Valid (b : LoopTimerBackend β) : Prop where
  sorted : LowerBound.Sorted Entry.deadline b.entries
  nodup : (b.entries.map Entry.id).Nodup
  ids : ∀ e ∈ b.entries, 1 ≤ e.id ∧ e.id < b.nextId
  next : 1 ≤ b.nextId

theorem Valid.init : ({} : LoopTimerBackend β).Valid where
  sorted := .nil
  nodup := .nil
  ids _ he := absurd he List.not_mem_nil
  next := Nat.le_refl 1

variable {b : LoopTimerBackend β}

theorem scheduleAt_perm (v : b.Valid) (deadline : TimePoint) (callback : β) :
    (b.scheduleAt deadline callback).2.entries.Perm (⟨deadline, b.nextId, callback⟩ :: b.entries) :=
  LowerBound.insertAt_perm v.sorted

theorem scheduleAt_ok (v : b.Valid) (deadline : TimePoint) (callback : β) :
    (b.scheduleAt deadline callback).2.Valid := by
  have hp := scheduleAt_perm v deadline callback
  refine ⟨LowerBound.insertAt_sorted v.sorted, ?_, ?_, Nat.le_add_left 1 _⟩
  · rw [(hp.map Entry.id).nodup_iff]
    refine List.nodup_cons.mpr ⟨?_, v.nodup⟩
    intro hmem
    obtain ⟨e, he, hid⟩ := List.mem_map.mp hmem
    exact absurd (v.ids e he).2 (by rw [hid]; exact Nat.lt_irrefl _)
  · intro e he
    obtain rfl | he := List.mem_cons.mp (hp.mem_iff.mp he)
    · exact ⟨v.next, Nat.lt_succ_self _⟩
    · exact ⟨(v.ids e he).1, Nat.lt_succ_of_lt (v.ids e he).2⟩

/-- `Cancel` removes the entry of the id, if there is one. -/
theorem cancel_ok (v : b.Valid) (id : TimerId) :
    (b.cancel id).2.Valid ∧ (b.cancel id).2.nextId = b.nextId ∧
      ((b.cancel id).1 = true ↔ ∃ e ∈ b.entries, e.id = id) ∧
      ∀ e, e ∈ (b.cancel id).2.entries ↔ e ∈ b.entries ∧ e.id ≠ id := by
  rw [cancel]
  cases hf : b.entries.findIdx? (fun e => e.id = id) with
  | none =>
    have hno : ∀ e ∈ b.entries, e.id ≠ id := by
      intro e he
      simpa using List.findIdx?_eq_none_iff.mp hf e he
    refine ⟨v, rfl, by simpa using hno, fun e => ⟨fun he => ⟨he, hno e he⟩, fun he => he.1⟩⟩
  | some i =>
    obtain ⟨hi, hid, -⟩ := List.findIdx?_eq_some_iff_getElem.mp hf
    have hid : b.entries[i].id = id := of_decide_eq_true hid
    have hsub : (b.entries.eraseIdx i).Sublist b.entries := List.eraseIdx_sublist ..
    have hp := List.getElem_cons_eraseIdx_perm hi
    have hnodup := (hp.map Entry.id).nodup_iff.mpr v.nodup
    rw [List.map_cons, List.nodup_cons, hid] at hnodup
    refine ⟨⟨v.sorted.sublist hsub, hnodup.2, fun e he => v.ids e (hsub.subset he), v.next⟩, rfl, ?_, ?_⟩
    · exact iff_of_true rfl ⟨_, List.getElem_mem hi, hid⟩
    · intro e
      rw [← hp.mem_iff, List.mem_cons]
      constructor
      · intro he
        exact ⟨.inr he, fun heq => hnodup.1 (heq ▸ List.mem_map_of_mem he)⟩
      · rintro ⟨rfl | he, hne⟩
        · exact absurd hid hne
        · exact he

/-- What is taken is the front entry, which is due, and has a minimal deadline. -/
theorem takeFront_ok (v : b.Valid) {now : TimePoint} {entry : Entry β} {b' : LoopTimerBackend β}
    (h : b.takeFront now = some (entry, b')) :
    b'.Valid ∧ b'.nextId = b.nextId ∧ b.entries = entry :: b'.entries ∧ entry.deadline ≤ now ∧
      ∀ e ∈ b.entries, entry.deadline ≤ e.deadline := by
  obtain ⟨entries, nextId⟩ := b
  cases entries with
  | nil => cases h
  | cons e entries =>
    simp only [takeFront] at h
    split at h <;> cases h
    obtain ⟨hmin, hsorted⟩ := List.pairwise_cons.mp v.sorted
    refine ⟨⟨hsorted, (List.nodup_cons.mp v.nodup).2, fun e he => v.ids e (List.mem_cons_of_mem _ he), v.next⟩,
      rfl, rfl, ‹_›, ?_⟩
    intro e' he'
    obtain rfl | he' := List.mem_cons.mp he'
    · exact le_refl _
    · exact hmin e' he'

/-- Where nothing is taken, nothing is due. -/
theorem takeFront_none (v : b.Valid) {now : TimePoint} (h : b.takeFront now = none) :
    ∀ e ∈ b.entries, now < e.deadline := by
  obtain ⟨entries, nextId⟩ := b
  cases entries with
  | nil => exact fun e he => absurd he List.not_mem_nil
  | cons front entries =>
    simp only [takeFront, ite_eq_right_iff, reduceCtorEq, imp_false, not_le] at h
    intro e he
    obtain rfl | he := List.mem_cons.mp he
    · exact h
    · exact h.trans_le ((List.pairwise_cons.mp v.sorted).1 e he)

end LoopTimerBackend

/-! ## The events of a run -/

/-- The call of the callback of an id. -/
def LoopTimerEvent.fires (id : TimerId) : LoopTimerEvent → Bool
  | .fired id' _ => id' = id
  | .scheduled _ _ | .cancelled _ _ => false

/-- Scheduled with this deadline, and neither fired nor cancelled. -/
structure Pending (log : List LoopTimerEvent) (id : TimerId) (deadline : TimePoint) : Prop where
  scheduled : .scheduled id deadline ∈ log
  not_fired : ∀ now, .fired id now ∉ log
  not_cancelled : .cancelled id true ∉ log

/-- The events lead to the entries of the backend. -/
structure TimerLog (b : LoopTimerBackend β) (log : List LoopTimerEvent) : Prop where
  pending : ∀ id d, (∃ e ∈ b.entries, e.id = id ∧ e.deadline = d) ↔ Pending log id d
  known : ∀ id d, .scheduled id d ∈ log → id < b.nextId
  unique : ∀ id d d', .scheduled id d ∈ log → .scheduled id d' ∈ log → d = d'
  fired : ∀ id now, .fired id now ∈ log → (∃ d ≤ now, .scheduled id d ∈ log) ∧ .cancelled id true ∉ log
  cancelled : ∀ id, .cancelled id true ∈ log → ∃ d, .scheduled id d ∈ log
  once : ∀ id, log.countP (·.fires id) ≤ 1

namespace TimerLog

variable {b b' : LoopTimerBackend β} {log : List LoopTimerEvent}

theorem init : TimerLog ({} : LoopTimerBackend β) [] where
  pending id d := by
    constructor
    · rintro ⟨e, he, -⟩
      exact absurd he List.not_mem_nil
    · exact fun h => absurd h.scheduled List.not_mem_nil
  known := by simp
  unique := by simp
  fired := by simp
  cancelled := by simp
  once := by simp

/-- An entry is an id that waits. -/
theorem of_entry (h : TimerLog b log) {e : LoopTimerBackend.Entry β} (he : e ∈ b.entries) :
    Pending log e.id e.deadline := (h.pending e.id e.deadline).mp ⟨e, he, rfl, rfl⟩

/-- No event is about an id that is not handed out yet. -/
theorem fresh (h : TimerLog b log) :
    (∀ d, .scheduled b.nextId d ∉ log) ∧ (∀ now, .fired b.nextId now ∉ log) ∧
      .cancelled b.nextId true ∉ log := by
  have hno : ∀ d, .scheduled b.nextId d ∉ log := fun d hd => Nat.lt_irrefl _ (h.known _ d hd)
  refine ⟨hno, ?_, ?_⟩
  · intro now hf
    obtain ⟨⟨d, -, hd⟩, -⟩ := h.fired _ now hf
    exact hno d hd
  · intro hc
    obtain ⟨d, hd⟩ := h.cancelled _ hc
    exact hno d hd

theorem scheduleAt (h : TimerLog b log) (v : b.Valid) (deadline : TimePoint) (callback : β) :
    TimerLog (b.scheduleAt deadline callback).2 (.scheduled b.nextId deadline :: log) := by
  obtain ⟨hs, hf, hc⟩ := h.fresh
  have hp := LoopTimerBackend.scheduleAt_perm v deadline callback
  refine ⟨?_, ?_, ?_, ?_, ?_, ?_⟩
  · intro id d
    simp only [hp.mem_iff, List.mem_cons, exists_eq_or_imp, h.pending]
    constructor
    · rintro (⟨rfl, rfl⟩ | hpend)
      · exact ⟨List.mem_cons_self, by simpa using hf, by simpa using hc⟩
      · exact ⟨List.mem_cons_of_mem _ hpend.scheduled, by simpa using hpend.not_fired,
          by simpa using hpend.not_cancelled⟩
    · rintro ⟨hsch, hnf, hnc⟩
      obtain heq | hsch := List.mem_cons.mp hsch
      · cases heq
        exact .inl ⟨rfl, rfl⟩
      · exact .inr ⟨hsch, by simpa using hnf, by simpa using hnc⟩
  · intro id d hd
    obtain heq | hd := List.mem_cons.mp hd
    · cases heq
      exact Nat.lt_succ_self _
    · exact Nat.lt_succ_of_lt (h.known id d hd)
  · intro id d d' hd hd'
    obtain heq | hd := List.mem_cons.mp hd <;> obtain heq' | hd' := List.mem_cons.mp hd'
    · cases heq
      cases heq'
      rfl
    · cases heq
      exact absurd hd' (hs d')
    · cases heq'
      exact absurd hd (hs d)
    · exact h.unique id d d' hd hd'
  · intro id now hfd
    obtain ⟨⟨d, hle, hd⟩, hnc⟩ := h.fired id now ((List.mem_cons.mp hfd).resolve_left nofun)
    exact ⟨⟨d, hle, List.mem_cons_of_mem _ hd⟩, by simpa using hnc⟩
  · intro id hcd
    obtain ⟨d, hd⟩ := h.cancelled id ((List.mem_cons.mp hcd).resolve_left nofun)
    exact ⟨d, List.mem_cons_of_mem _ hd⟩
  · intro id
    rw [List.countP_cons_of_neg (by simp [LoopTimerEvent.fires])]
    exact h.once id

/-- `Cancel` returns `true` where the id waits. -/
theorem cancel_iff (h : TimerLog b log) (v : b.Valid) (id : TimerId) :
    (b.cancel id).1 = true ↔ ∃ d, Pending log id d := by
  rw [(LoopTimerBackend.cancel_ok v id).2.2.1]
  constructor
  · rintro ⟨e, he, rfl⟩
    exact ⟨e.deadline, h.of_entry he⟩
  · rintro ⟨d, hp⟩
    obtain ⟨e, he, hid, -⟩ := (h.pending id d).mpr hp
    exact ⟨e, he, hid⟩

theorem cancel (h : TimerLog b log) (v : b.Valid) (id : TimerId) :
    TimerLog (b.cancel id).2 (.cancelled id (b.cancel id).1 :: log) := by
  obtain ⟨-, hnext, -, hmem⟩ := LoopTimerBackend.cancel_ok v id
  have hwait := h.cancel_iff v id
  generalize (b.cancel id).1 = r at hwait ⊢
  refine ⟨?_, ?_, ?_, ?_, ?_, ?_⟩
  · intro id' d
    constructor
    · rintro ⟨e, he, rfl, rfl⟩
      obtain ⟨he, hne⟩ := (hmem e).mp he
      have hp := h.of_entry he
      exact ⟨List.mem_cons_of_mem _ hp.scheduled, by simpa using hp.not_fired,
        by simpa [hne] using hp.not_cancelled⟩
    · rintro ⟨hs, hf, hc⟩
      simp only [List.mem_cons, reduceCtorEq, false_or, not_or] at hs hf hc
      have hp : Pending log id' d := ⟨hs, hf, hc.2⟩
      obtain ⟨e, he, rfl, rfl⟩ := (h.pending id' d).mpr hp
      refine ⟨e, (hmem e).mpr ⟨he, ?_⟩, rfl, rfl⟩
      rintro rfl
      exact hc.1 (by rw [hwait.mpr ⟨_, hp⟩])
  · intro id' d hd
    rw [hnext]
    exact h.known id' d ((List.mem_cons.mp hd).resolve_left nofun)
  · intro id' d d' hd hd'
    exact h.unique id' d d' ((List.mem_cons.mp hd).resolve_left nofun) ((List.mem_cons.mp hd').resolve_left nofun)
  · intro id' now hf
    have hfired : .fired id' now ∈ log := (List.mem_cons.mp hf).resolve_left nofun
    obtain ⟨⟨d, hle, hd⟩, hnc⟩ := h.fired id' now hfired
    refine ⟨⟨d, hle, List.mem_cons_of_mem _ hd⟩, ?_⟩
    intro hc
    obtain heq | hc := List.mem_cons.mp hc
    · cases heq
      obtain ⟨d', hp⟩ := hwait.mp rfl
      exact hp.not_fired now hfired
    · exact hnc hc
  · intro id' hc
    obtain heq | hc := List.mem_cons.mp hc
    · cases heq
      obtain ⟨d, hp⟩ := hwait.mp rfl
      exact ⟨d, List.mem_cons_of_mem _ hp.scheduled⟩
    · obtain ⟨d, hd⟩ := h.cancelled id' hc
      exact ⟨d, List.mem_cons_of_mem _ hd⟩
  · intro id'
    rw [List.countP_cons_of_neg (by simp [LoopTimerEvent.fires])]
    exact h.once id'

theorem takeFront (h : TimerLog b log) (v : b.Valid) {now : TimePoint} {entry : LoopTimerBackend.Entry β}
    (ht : b.takeFront now = some (entry, b')) : TimerLog b' (.fired entry.id now :: log) := by
  obtain ⟨-, hnext, hentries, hdue, -⟩ := LoopTimerBackend.takeFront_ok v ht
  have hp := h.of_entry (hentries ▸ List.mem_cons_self : entry ∈ b.entries)
  have hnodup := v.nodup
  rw [hentries, List.map_cons, List.nodup_cons] at hnodup
  refine ⟨?_, ?_, ?_, ?_, ?_, ?_⟩
  · intro id d
    constructor
    · rintro ⟨e, he, rfl, rfl⟩
      have hpe := h.of_entry (hentries ▸ List.mem_cons_of_mem _ he : e ∈ b.entries)
      have hne : e.id ≠ entry.id := fun heq => hnodup.1 (heq ▸ List.mem_map_of_mem he)
      exact ⟨List.mem_cons_of_mem _ hpe.scheduled, by simpa [hne] using hpe.not_fired,
        by simpa using hpe.not_cancelled⟩
    · rintro ⟨hs, hf, hc⟩
      simp only [List.mem_cons, reduceCtorEq, false_or, not_or] at hs hf hc
      obtain ⟨e, he, rfl, rfl⟩ := (h.pending id d).mpr ⟨hs, fun t => (hf t).2, hc⟩
      rw [hentries] at he
      obtain rfl | he := List.mem_cons.mp he
      · exact absurd rfl (hf now).1
      · exact ⟨e, he, rfl, rfl⟩
  · intro id d hd
    rw [hnext]
    exact h.known id d ((List.mem_cons.mp hd).resolve_left nofun)
  · intro id d d' hd hd'
    exact h.unique id d d' ((List.mem_cons.mp hd).resolve_left nofun) ((List.mem_cons.mp hd').resolve_left nofun)
  · intro id t hf
    obtain heq | hf := List.mem_cons.mp hf
    · cases heq
      exact ⟨⟨_, hdue, List.mem_cons_of_mem _ hp.scheduled⟩, by simpa using hp.not_cancelled⟩
    · obtain ⟨⟨d, hle, hd⟩, hnc⟩ := h.fired id t hf
      exact ⟨⟨d, hle, List.mem_cons_of_mem _ hd⟩, by simpa using hnc⟩
  · intro id hc
    obtain ⟨d, hd⟩ := h.cancelled id ((List.mem_cons.mp hc).resolve_left nofun)
    exact ⟨d, List.mem_cons_of_mem _ hd⟩
  · intro id
    by_cases heq : entry.id = id
    · subst heq
      have hzero : log.countP (·.fires entry.id) = 0 := by
        rw [List.countP_eq_zero]
        intro ev hev hfires
        cases ev with
        | fired id' t => exact hp.not_fired t (of_decide_eq_true hfires ▸ hev)
        | scheduled => cases hfires
        | cancelled => cases hfires
      rw [List.countP_cons_of_pos (by simp [LoopTimerEvent.fires]), hzero]
    · rw [List.countP_cons_of_neg (by simp [LoopTimerEvent.fires, heq])]
      exact h.once id

end TimerLog

/-! ## The backend at every step -/

/-- The backend is in order, and its events tell its entries. -/
structure LoopTimers.Ok (s : LoopTimers β) : Prop where
  valid : s.backend.Valid
  log : TimerLog s.backend s.log

namespace LoopTimers

variable {clock : TimePoint} {s s' : LoopTimers β}

theorem Ok.scheduleAt (h : s.Ok) (deadline : TimePoint) (callback : β) :
    (s.scheduleAt deadline callback).2.Ok :=
  ⟨LoopTimerBackend.scheduleAt_ok h.valid deadline callback, h.log.scheduleAt h.valid deadline callback⟩

theorem Ok.cancel (h : s.Ok) (id : TimerId) : (s.cancel id).2.Ok :=
  ⟨(LoopTimerBackend.cancel_ok h.valid id).1, h.log.cancel h.valid id⟩

/-- What `fire` does: the front entry is taken, which is due. -/
theorem fire_cases {now : TimePoint} {callback : β} (h : s.fire now = some (callback, s')) :
    ∃ entry backend, s.backend.takeFront now = some (entry, backend) ∧ callback = entry.callback ∧
      s' = { s with backend, log := .fired entry.id now :: s.log } := by
  obtain ⟨⟨entry, backend⟩, ht, heq⟩ := Option.map_eq_some_iff.mp h
  cases heq
  exact ⟨entry, backend, ht, rfl, rfl⟩

theorem fire_none {now : TimePoint} (h : s.fire now = none) : s.backend.takeFront now = none :=
  Option.map_eq_none_iff.mp h

theorem Ok.fire (h : s.Ok) {now : TimePoint} {callback : β} (hf : s.fire now = some (callback, s')) :
    s'.Ok := by
  obtain ⟨entry, backend, ht, -, rfl⟩ := fire_cases hf
  exact ⟨(LoopTimerBackend.takeFront_ok h.valid ht).1, h.log.takeFront h.valid ht⟩

theorem step_ok {a : LoopTimerAction β} (h : s.Ok) (hs : s.step a = some s') : s'.Ok := by
  cases a with
  | scheduleAt deadline callback =>
    simp only [step] at hs
    split at hs <;> cases hs
    exact h.scheduleAt deadline callback
  | cancel id =>
    simp only [step] at hs
    split at hs <;> cases hs
    exact h.cancel id
  | tick now =>
    simp only [step] at hs
    split at hs <;> cases hs
    exact ⟨h.valid, h.log⟩
  | next =>
    simp only [step] at hs
    split at hs <;> cases hs
    · split
      · exact ⟨h.valid, h.log⟩
      · rename_i hf
        exact ⟨(h.fire hf).valid, (h.fire hf).log⟩
    · exact ⟨h.valid, h.log⟩

theorem reach_ok (h : (lts β clock).Reach Lts.Any s) : s.Ok :=
  h.invariant ⟨.init, .init⟩ fun hok _ hs => step_ok hok hs

/-- `Cancel` removes the id exactly where it waits. -/
theorem Ok.cancel_iff (h : s.Ok) (id : TimerId) :
    (s.cancel id).1 = true ↔ ∃ d, Pending s.log id d :=
  h.log.cancel_iff h.valid id

end LoopTimers

/-- The promises of the backend, at every step of every run: the entries are sorted by deadline,
and their ids are distinct; an id is scheduled when it fires, at its deadline or later, once, and
was not cancelled; `Cancel` returns `true` for the ids that wait; what fires has a minimal
deadline among the entries; a `Tick` that returns leaves nothing that is due. -/
theorem loop_timers_promises {clock : TimePoint} {s : LoopTimers β}
    (h : (LoopTimers.lts β clock).Reach Lts.Any s) :
    LowerBound.Sorted LoopTimerBackend.Entry.deadline s.backend.entries ∧
      (s.backend.entries.map LoopTimerBackend.Entry.id).Nodup ∧
      (∀ id, s.log.countP (·.fires id) ≤ 1) ∧
      (∀ id now, .fired id now ∈ s.log → (∃ d, .scheduled id d ∈ s.log) ∧
        (∀ d, .scheduled id d ∈ s.log → d ≤ now) ∧ .cancelled id true ∉ s.log) ∧
      (∀ id, (s.cancel id).1 = true ↔ ∃ d, Pending s.log id d) ∧
      (∀ now, s.pc = .looping now → ∀ callback s', s.fire now = some (callback, s') →
        ∃ entry ∈ s.backend.entries, callback = entry.callback ∧
          s'.log = .fired entry.id now :: s.log ∧ ∀ e ∈ s.backend.entries, entry.deadline ≤ e.deadline) ∧
      (∀ now s', s.pc = .looping now → s.step .next = some s' → s'.pc = .outside →
        ∀ e ∈ s'.backend.entries, now < e.deadline) := by
  have hok := LoopTimers.reach_ok h
  refine ⟨hok.valid.sorted, hok.valid.nodup, hok.log.once, ?_, hok.cancel_iff, ?_, ?_⟩
  · intro id now hf
    obtain ⟨⟨d, hle, hd⟩, hnc⟩ := hok.log.fired id now hf
    refine ⟨⟨d, hd⟩, ?_, hnc⟩
    intro d' hd'
    rwa [hok.log.unique id d' d hd' hd]
  · intro now _ callback s' hf
    obtain ⟨entry, backend, ht, rfl, rfl⟩ := LoopTimers.fire_cases hf
    obtain ⟨-, -, hentries, -, hmin⟩ := LoopTimerBackend.takeFront_ok hok.valid ht
    exact ⟨entry, hentries ▸ List.mem_cons_self, rfl, rfl, hmin⟩
  · intro now s' hpc hs hout
    simp only [LoopTimers.step, hpc] at hs
    cases hf : s.fire now with
    | none =>
      rw [hf] at hs
      cases hs
      exact LoopTimerBackend.takeFront_none hok.valid (LoopTimers.fire_none hf)
    | some p =>
      rw [hf] at hs
      cases hs
      cases hout

/-- A callback that schedules an entry which is due already: the same `Tick` is to take it. -/
theorem loop_timers_promises_in_tick : ∃ s, (LoopTimers.lts Unit 0).Reach Lts.Any s ∧
    s.pc = .looping 7 ∧ .fired 2 7 ∈ s.log ∧ (∀ d, .scheduled 2 d ∈ s.log → d ≤ 7) ∧
      .cancelled 2 true ∉ s.log := by
  obtain ⟨s, hs, hq⟩ := Lts.Reach.of_run (LoopTimers.lts Unit 0) Lts.Any
    [.scheduleAt 9 (), .scheduleAt 5 (), .scheduleAt 6 (), .tick 7, .next, .cancel 3, .scheduleAt 7 (), .next]
    (fun s => decide (s.pc = .looping 7) && decide (.fired 2 7 ∈ s.log)) (by decide +kernel)
  simp only [Bool.and_eq_true, decide_eq_true_eq] at hq
  obtain ⟨-, -, -, hfired, -⟩ := loop_timers_promises hs
  exact ⟨s, hs, hq.1, hq.2, (hfired 2 7 hq.2).2⟩

end TX.Exec
