import TxPkgAux.Impl.Exec.TimerThreads

/-!
# Timers: what their callers see

`Timers` says which callbacks are scheduled and which are executing. `Timers.Step` are its
operations, each with the event that the callers see of it, and `History` ties a list of
events to the timers that it leads to: a callback that is scheduled has not started and was
not cancelled. `Timers.Step.history` says that every operation keeps it. So a callback
starts once at most, and not after a `Cancel` of its id returned (`History.not_started`).
-/

namespace TX.Exec

/-- The id that `ScheduleAt` returns. -/
def TimerEvent.scheduledId : TimerEvent → Option TimerId
  | .scheduled id => some id
  | .cancelled _ _ | .started _ => none

/-- A `Cancel` of the id returned after its callback was scheduled. -/
def Ended (log : List TimerEvent) (id : TimerId) : Prop :=
  ∃ later earlier r, log = later ++ .cancelled id r :: earlier ∧ .scheduled id ∈ earlier

/-- The operations on timers, with what the callers see of them. -/
inductive Timers.Step {ι : Type} (v : Timers ι) (log : List TimerEvent) :
    Timers ι → List TimerEvent → Prop where
  | silent : Step v log v log
  | schedule (id : TimerId) (d : TimePoint) (i : ι) (hn : .scheduled id ∉ log) :
    Step v log (v.schedule id d i) (.scheduled id :: log)
  | cancel (id : TimerId) (r : Bool) (hn : ∀ i, ¬ v.running id i)
      (hr : r = true ↔ ∃ d i, v.scheduled id d i) : Step v log (v.cancel id) (.cancelled id r :: log)
  | fire (id : TimerId) (d : TimePoint) (i : ι) (hs : v.scheduled id d i) :
    Step v log (v.fire id i) (.started id :: log)
  | done (id : TimerId) : Step v log (v.done id) log

/-- The events lead to the timers. -/
structure History {ι : Type} (v : Timers ι) (log : List TimerEvent) : Prop where
  scheduled : ∀ id d i, v.scheduled id d i → .scheduled id ∈ log ∧ .started id ∉ log ∧ ¬ Ended log id
  running : ∀ id i, v.running id i → .scheduled id ∈ log ∧ ¬ Ended log id
  started : ∀ id, .started id ∈ log → .scheduled id ∈ log
  unique : (log.filterMap TimerEvent.scheduledId).Nodup
  once : ∀ id, log.count (.started id) ≤ 1
  removed : ∀ id, .cancelled id true ∈ log → Ended log id ∧ .started id ∉ log
  order : ∀ later earlier id, log = later ++ .started id :: earlier → ¬ Ended earlier id

section Ended

variable {log : List TimerEvent} {id : TimerId} {e : TimerEvent}

theorem ended_cons : Ended (e :: log) id ↔
    Ended log id ∨ (∃ r, e = .cancelled id r) ∧ .scheduled id ∈ log := by
  constructor
  · rintro ⟨later, earlier, r, heq, hs⟩
    cases later with
    | nil =>
      cases heq
      exact .inr ⟨⟨r, rfl⟩, hs⟩
    | cons e' later =>
      cases heq
      exact .inl ⟨later, earlier, r, rfl, hs⟩
  · rintro (⟨later, earlier, r, rfl, hs⟩ | ⟨⟨r, rfl⟩, hs⟩)
    · exact ⟨e :: later, earlier, r, rfl, hs⟩
    · exact ⟨[], log, r, rfl, hs⟩

theorem Ended.scheduled (h : Ended log id) : .scheduled id ∈ log := by
  obtain ⟨later, earlier, r, rfl, hs⟩ := h
  simp [hs]

end Ended

section History

variable {ι : Type} {v v' : Timers ι} {log log' : List TimerEvent}

theorem mem_scheduledId {id : TimerId} :
    id ∈ log.filterMap TimerEvent.scheduledId ↔ .scheduled id ∈ log := by
  rw [List.mem_filterMap]
  constructor
  · rintro ⟨e, he, hid⟩
    cases e with
    | scheduled id' =>
      cases hid
      exact he
    | cancelled | started => cases hid
  · exact fun h => ⟨_, h, rfl⟩

/-- The `started` events of a longer list are those of the list, or its first event. -/
theorem History.order_cons (hi : History v log) {e : TimerEvent}
    (he : ∀ id, e = .started id → ¬ Ended log id) (later earlier : List TimerEvent) (id : TimerId)
    (heq : e :: log = later ++ .started id :: earlier) : ¬ Ended earlier id := by
  cases later with
  | nil =>
    cases heq
    exact he id rfl
  | cons e' later =>
    cases heq
    exact hi.order later earlier id rfl

theorem History.schedule (hi : History v log) {id : TimerId} {d : TimePoint} {i : ι}
    (hn : .scheduled id ∉ log) : History (v.schedule id d i) (.scheduled id :: log) := by
  have hend : ∀ id', Ended (.scheduled id :: log) id' ↔ Ended log id' := fun id' => by simp [ended_cons]
  have hne : ¬ Ended log id := fun h => hn h.scheduled
  refine ⟨fun id' d' i' hs => ?_, fun id' i' hr => ?_, fun id' hs => ?_, ?_, fun id' => ?_, fun id' hc => ?_,
    hi.order_cons (by simp)⟩
  · rw [hend]
    rcases hs with hs | ⟨rfl, -, -⟩
    · obtain ⟨h₁, h₂, h₃⟩ := hi.scheduled id' d' i' hs
      exact ⟨List.mem_cons_of_mem _ h₁, by simpa using h₂, h₃⟩
    · exact ⟨List.mem_cons_self, by simpa using fun h => hn (hi.started id' h), hne⟩
  · rw [hend]
    exact ⟨List.mem_cons_of_mem _ (hi.running id' i' hr).1, (hi.running id' i' hr).2⟩
  · exact List.mem_cons_of_mem _ (hi.started id' (by simpa using hs))
  · exact List.nodup_cons.mpr ⟨mem_scheduledId.not.mpr hn, hi.unique⟩
  · simpa using hi.once id'
  · rw [hend]
    simpa using hi.removed id' (by simpa using hc)

theorem History.cancel (hi : History v log) {id : TimerId} {r : Bool} (hn : ∀ i, ¬ v.running id i)
    (hr : r = true ↔ ∃ d i, v.scheduled id d i) : History (v.cancel id) (.cancelled id r :: log) := by
  have hend : ∀ id', id' ≠ id → (Ended (.cancelled id r :: log) id' ↔ Ended log id') :=
    fun id' hne => by simp [ended_cons, Ne.symm hne]
  refine ⟨fun id' d' i' hs => ?_, fun id' i' hrun => ?_, fun id' hs => ?_, ?_, fun id' => ?_, fun id' hc => ?_,
    hi.order_cons (by simp)⟩
  · obtain ⟨hs, hne⟩ := hs
    obtain ⟨h₁, h₂, h₃⟩ := hi.scheduled id' d' i' hs
    exact ⟨List.mem_cons_of_mem _ h₁, by simpa using h₂, (hend id' hne).not.mpr h₃⟩
  · have hne : id' ≠ id := fun h => hn i' (h ▸ hrun)
    exact ⟨List.mem_cons_of_mem _ (hi.running id' i' hrun).1, (hend id' hne).not.mpr (hi.running id' i' hrun).2⟩
  · exact List.mem_cons_of_mem _ (hi.started id' (by simpa using hs))
  · exact hi.unique
  · simpa using hi.once id'
  · rw [ended_cons]
    rcases List.mem_cons.mp hc with heq | hc
    · obtain ⟨rfl, rfl⟩ : id' = id ∧ true = r := by simpa using heq
      obtain ⟨d, i, hs⟩ := hr.mp rfl
      obtain ⟨h₁, h₂, -⟩ := hi.scheduled id' d i hs
      exact ⟨.inr ⟨⟨true, rfl⟩, h₁⟩, by simpa using h₂⟩
    · exact ⟨.inl (hi.removed id' hc).1, by simpa using (hi.removed id' hc).2⟩

theorem History.fire (hi : History v log) {id : TimerId} {d : TimePoint} {i : ι}
    (hs : v.scheduled id d i) : History (v.fire id i) (.started id :: log) := by
  obtain ⟨hsch, hnew, hend⟩ := hi.scheduled id d i hs
  have hcons : ∀ id', Ended (.started id :: log) id' ↔ Ended log id' := fun id' => by simp [ended_cons]
  refine ⟨fun id' d' i' hs' => ?_, fun id' i' hr => ?_, fun id' hs' => ?_, ?_, fun id' => ?_, fun id' hc => ?_,
    hi.order_cons ?_⟩
  · obtain ⟨hs', hne⟩ := hs'
    obtain ⟨h₁, h₂, h₃⟩ := hi.scheduled id' d' i' hs'
    exact ⟨List.mem_cons_of_mem _ h₁, by simpa [hne] using h₂, (hcons id').not.mpr h₃⟩
  · rw [hcons]
    rcases hr with hr | ⟨rfl, -⟩
    · exact ⟨List.mem_cons_of_mem _ (hi.running id' i' hr).1, (hi.running id' i' hr).2⟩
    · exact ⟨List.mem_cons_of_mem _ hsch, hend⟩
  · rcases List.mem_cons.mp hs' with heq | hs'
    · cases heq
      exact List.mem_cons_of_mem _ hsch
    · exact List.mem_cons_of_mem _ (hi.started id' hs')
  · exact hi.unique
  · by_cases hid : id' = id
    · subst hid
      simp [List.count_eq_zero.mpr hnew]
    · simpa [List.count_cons, Ne.symm hid] using hi.once id'
  · have hc : .cancelled id' true ∈ log := by simpa using hc
    obtain ⟨h₁, h₂⟩ := hi.removed id' hc
    have hne : id' ≠ id := fun h => hend (h ▸ h₁)
    exact ⟨(hcons id').mpr h₁, by simpa [hne] using h₂⟩
  · rintro id' heq
    cases heq
    exact hend

theorem History.done (hi : History v log) (id : TimerId) : History (v.done id) log :=
  { hi with running := fun id' i' hr => hi.running id' i' hr.1 }

/-- Every operation leads on. -/
theorem Timers.Step.history (h : v.Step log v' log') (hi : History v log) : History v' log' := by
  cases h with
  | silent => exact hi
  | schedule id d i hn => exact hi.schedule hn
  | cancel id r hn hr => exact hi.cancel hn hr
  | fire id d i hs => exact hi.fire hs
  | done id => exact hi.done id

theorem History.empty : History (.empty : Timers ι) [] := by
  constructor <;> simp [Timers.empty]

/-- A callback does not start after a `Cancel` of its id returned. -/
theorem History.not_started (hi : History v log) {id : TimerId} {r : Bool} {later earlier : List TimerEvent}
    (heq : log = later ++ .cancelled id r :: earlier) (hs : .scheduled id ∈ earlier) :
    .started id ∉ later := by
  intro hmem
  obtain ⟨l₁, l₂, rfl⟩ := List.append_of_mem hmem
  refine hi.order l₁ (l₂ ++ .cancelled id r :: earlier) id (by simpa using heq) ?_
  exact ⟨l₂, earlier, r, rfl, hs⟩

end History

end TX.Exec
