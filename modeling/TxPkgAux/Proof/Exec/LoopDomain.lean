import TxPkgAux.Impl.Exec.LoopDomain
import TxPkgAux.Proof.Exec.LoopTimerBackend
import Mathlib.Data.List.Nodup
import Mathlib.Data.List.Perm.Subperm

/-!
# `Domain::Stop()` on one thread

`LoopDomain.Inv` says of every operation where it is: not started, waiting for its timer with its
stop callback registered, in the queue, or completed. It is kept by every function (`step_inv`).
In `Stop()` no callback is registered any more once `request_stop()` has run them all
(`requestStop_stopping`), so that nothing waits for a timer, and the drain takes what is in the
queue and what the continuations add to it (`turns_stopping`). `DomainProgram.follow` is what a
continuation starts, without the domain; `loop_stop_completes` puts it together.
-/

namespace TX.Exec

variable {ι μ : Type}

/-- The operations that have been started after a program, where `started` were before, and what
it leaves in memory. -/
def DomainProgram.startsAfter [DecidableEq ι] (started : List ι) : DomainProgram ι μ → List ι × μ
  | .done memory => (started, memory)
  | .start i k => k.startsAfter (if i ∈ started then started else i :: started)
  | .destroy _ k => k.startsAfter started

/-- The continuation of one more completion. -/
def DomainProgram.follow [DecidableEq ι] (continuation : ι → Signal → μ → DomainProgram ι μ)
    (p : List ι × μ) (completion : ι × Signal) : List ι × μ :=
  (continuation completion.1 completion.2 p.2).startsAfter p.1

namespace LoopDomain

/-- The operations that have completed. -/
def completed (d : LoopDomain ι) : List ι := d.completions.map Prod.fst

/-- In the queue, or completed. -/
def Settled (d : LoopDomain ι) (i : ι) : Prop := i ∈ d.queue ∨ i ∈ d.completed

structure Inv (d : LoopDomain ι) : Prop where
  valid : d.backend.Valid
  started : d.started.Nodup
  once : (d.queue ++ d.completed).Nodup
  known : ∀ i, d.Settled i → i ∈ d.started
  /-- An operation of `schedule()` is queued by its `start()`. -/
  schedule : ∀ i ∈ d.started, (d.ops i).kind = .schedule → d.Settled i
  pending : ∀ i deadline, (d.ops i).kind = .scheduleAt deadline →
    ((d.ops i).state = .pending ↔ ¬ d.Settled i)
  timer : ∀ i, (d.ops i).timerId ≠ InvalidTimerId →
    ∃ e ∈ d.backend.entries, e.id = (d.ops i).timerId ∧ e.callback = i
  entry : ∀ e ∈ d.backend.entries, (d.ops e.callback).timerId = e.id ∧
    e.callback ∈ d.started ∧ ¬ d.Settled e.callback
  waiting : ∀ i ∈ d.started, ¬ d.Settled i → (d.ops i).timerId ≠ InvalidTimerId ∧ i ∈ d.callbacks
  callbacks : ∀ i ∈ d.callbacks, i ∈ d.started ∧ ∃ deadline, (d.ops i).kind = .scheduleAt deadline

variable {d d' : LoopDomain ι} {i : ι}

/-- Only an operation that waits has a timer. -/
theorem Inv.no_timer (h : d.Inv) (hi : i ∉ d.started ∨ d.Settled i) :
    (d.ops i).timerId = InvalidTimerId ∧ ∀ e ∈ d.backend.entries, e.callback ≠ i := by
  have hno : ∀ e ∈ d.backend.entries, e.callback ≠ i := by
    rintro e he rfl
    obtain ⟨-, hs, hw⟩ := h.entry e he
    exact hi.elim (fun hns => hns hs) hw
  refine ⟨?_, hno⟩
  by_contra ht
  obtain ⟨e, he, -, hcb⟩ := h.timer i ht
  exact hno e he hcb

/-- No more operations have completed than were started. -/
theorem Inv.completions_le (h : d.Inv) : d.completions.length ≤ d.started.length := by
  have hnodup : d.completed.Nodup := (List.nodup_append.mp h.once).2.1
  have hsub : d.completed ⊆ d.started := fun i hi => h.known i (.inr hi)
  have hle := (hnodup.subperm hsub).length_le
  rwa [completed, List.length_map] at hle

/-- After `request_stop()`: nothing waits for a timer. -/
structure Stopping (d : LoopDomain ι) : Prop where
  inv : d.Inv
  flag : d.stopRequested = true
  callbacks : d.callbacks = []

theorem Stopping.no_entries (h : d.Stopping) : d.backend.entries = [] := by
  refine List.eq_nil_iff_forall_not_mem.mpr fun e he => ?_
  obtain ⟨-, hs, hw⟩ := h.inv.entry e he
  have hcb := (h.inv.waiting _ hs hw).2
  rw [h.callbacks] at hcb
  exact List.not_mem_nil hcb

/-! ## The functions -/

theorem tryDequeue_some (h : d.tryDequeue = some (i, d')) : ∃ queue, d.queue = i :: queue ∧ d' = { d with queue } := by
  simp only [tryDequeue] at h
  split at h <;> cases h
  exact ⟨_, ‹_›, rfl⟩

theorem Inv.execute {queue : List ι} (h : d.Inv) (hq : d.queue = i :: queue) :
    ({ d with queue }.execute i).2.Inv := by
  have hsettled : ∀ j, ({ d with queue }.execute i).2.Settled j ↔ d.Settled j := by
    intro j
    simp only [Settled, LoopDomain.execute, completed, hq, List.map_cons, List.mem_cons]
    grind
  refine ⟨h.valid, h.started, ?_, ?_, ?_, ?_, h.timer, ?_, ?_, h.callbacks⟩
  · have honce := h.once
    rw [hq] at honce
    change (queue ++ i :: d.completed).Nodup
    exact List.perm_middle.nodup_iff.mpr honce
  · exact fun j hj => h.known j ((hsettled j).mp hj)
  · exact fun j hj hk => (hsettled j).mpr (h.schedule j hj hk)
  · intro j deadline hk
    rw [hsettled]
    exact h.pending j deadline hk
  · intro e he
    rw [hsettled]
    exact h.entry e he
  · intro j hj hw
    exact h.waiting j hj ((hsettled j).not.mp hw)

variable [DecidableEq ι]

/-- An operation that is not settled is put into the queue, and has no timer any more. -/
theorem Inv.settle (h : d.Inv) (hi : ¬ d.Settled i) (state : OpState) (callbacks : List ι)
    {backend : LoopTimerBackend ι} {started : List ι}
    (hstate : ∀ deadline, (d.ops i).kind = .scheduleAt deadline → state ≠ .pending)
    (hvalid : backend.Valid) (hentries : ∀ e, e ∈ backend.entries ↔ e ∈ d.backend.entries ∧ e.callback ≠ i)
    (hcallbacks : ∀ j, j ∈ callbacks → j ∈ d.callbacks) (hkept : ∀ j ≠ i, j ∈ d.callbacks → j ∈ callbacks)
    (hnodup : started.Nodup) (hstarted : ∀ j, j ∈ started ↔ j = i ∨ j ∈ d.started) :
    ({ d with backend, callbacks, started, queue := d.queue ++ [i] }.setOp i
      { d.ops i with state, timerId := InvalidTimerId }).Inv := by
  have hsettled : ∀ j, ({ d with backend, callbacks, started, queue := d.queue ++ [i] }.setOp i
      { d.ops i with state, timerId := InvalidTimerId }).Settled j ↔ j = i ∨ d.Settled j := by
    intro j
    simp only [Settled, setOp, completed, List.mem_append, List.mem_singleton]
    grind
  have hop : ∀ j ≠ i, Function.update d.ops i { d.ops i with state, timerId := InvalidTimerId } j = d.ops j :=
    fun j hj => Function.update_of_ne hj _ _
  have hkind : ∀ j, (Function.update d.ops i { d.ops i with state, timerId := InvalidTimerId } j).kind =
      (d.ops j).kind := by
    intro j
    by_cases hj : j = i
    · subst hj
      simp
    · rw [hop j hj]
  refine ⟨hvalid, hnodup, ?_, ?_, ?_, ?_, ?_, ?_, ?_, ?_⟩
  · change ((d.queue ++ [i]) ++ d.completed).Nodup
    have hi' : i ∉ d.queue ++ d.completed := by simpa [Settled] using hi
    have hperm : ((d.queue ++ [i]) ++ d.completed).Perm (i :: (d.queue ++ d.completed)) := by
      rw [List.append_assoc]
      exact List.perm_middle
    exact hperm.nodup_iff.mpr (List.nodup_cons.mpr ⟨hi', h.once⟩)
  · intro j hj
    obtain rfl | hj := (hsettled j).mp hj
    · exact (hstarted j).mpr (.inl rfl)
    · exact (hstarted j).mpr (.inr (h.known j hj))
  · intro j hj hk
    refine (hsettled j).mpr ?_
    obtain rfl | hj := (hstarted j).mp hj
    · exact .inl rfl
    · exact .inr (h.schedule j hj ((hkind j).symm.trans hk))
  · intro j deadline hk
    have hk' := (hkind j).symm.trans hk
    rw [hsettled]
    by_cases hj : j = i
    · subst hj
      simpa [setOp] using hstate deadline hk'
    · simp only [setOp, hop j hj, h.pending j deadline hk', hj, false_or]
  · intro j hj
    have hne : j ≠ i := by
      rintro rfl
      simp [setOp] at hj
    simp only [setOp, hop j hne] at hj ⊢
    obtain ⟨e, he, hid, hcb⟩ := h.timer j hj
    exact ⟨e, (hentries e).mpr ⟨he, hcb ▸ hne⟩, hid, hcb⟩
  · intro e he
    obtain ⟨he, hne⟩ := (hentries e).mp he
    obtain ⟨hid, hs, hw⟩ := h.entry e he
    rw [hsettled]
    simp only [setOp, hop _ hne]
    exact ⟨hid, (hstarted _).mpr (.inr hs), not_or.mpr ⟨hne, hw⟩⟩
  · intro j hj hw
    rw [hsettled, not_or] at hw
    obtain ⟨ht, hcb⟩ := h.waiting j (((hstarted j).mp hj).resolve_left hw.1) hw.2
    simp only [setOp, hop j hw.1]
    exact ⟨ht, hkept j hw.1 hcb⟩
  · intro j hj
    obtain ⟨hs, deadline, hk⟩ := h.callbacks j (hcallbacks j hj)
    exact ⟨(hstarted j).mpr (.inr hs), deadline, (hkind j).trans hk⟩

/-- `TryEnqueueStop` of a pending operation: its timer is cancelled, and it is enqueued. -/
theorem tryEnqueueStop_pending (hp : (d.ops i).state = .pending) :
    d.tryEnqueueStop i = { d with
      backend := if (d.ops i).timerId = InvalidTimerId then d.backend
        else (d.backend.cancel (d.ops i).timerId).2
      queue := d.queue ++ [i] }.setOp i { d.ops i with state := .stopWon, timerId := InvalidTimerId } := by
  by_cases ht : (d.ops i).timerId = InvalidTimerId
  · simp [tryEnqueueStop, tryEnqueue, ht, hp, setOp, enqueue]
  · simp [tryEnqueueStop, tryEnqueue, ht, hp, setOp, enqueue]

theorem tryEnqueueStop_settled (ht : (d.ops i).timerId = InvalidTimerId) (hp : (d.ops i).state ≠ .pending) :
    d.tryEnqueueStop i = d := by
  simp [tryEnqueueStop, tryEnqueue, ht, hp]

/-- An operation that waits for its timer from its `start()` on. -/
theorem Inv.schedule_timer (h : d.Inv) (hi : i ∉ d.started) {deadline : TimePoint}
    (hk : (d.ops i).kind = .scheduleAt deadline) :
    ({ d with
      started := i :: d.started
      callbacks := i :: d.callbacks
      backend := (d.backend.scheduleAt deadline i).2 }.setOp i
      { d.ops i with timerId := (d.backend.scheduleAt deadline i).1 }).Inv := by
  have hset : ¬ d.Settled i := fun hs => hi (h.known i hs)
  obtain ⟨-, hno⟩ := h.no_timer (.inl hi)
  have hp := LoopTimerBackend.scheduleAt_perm h.valid deadline i
  have hop : ∀ j ≠ i, Function.update d.ops i { d.ops i with timerId := d.backend.nextId } j = d.ops j :=
    fun j hj => Function.update_of_ne hj _ _
  have hkeep : ∀ j, (Function.update d.ops i { d.ops i with timerId := d.backend.nextId } j).kind = (d.ops j).kind ∧
      (Function.update d.ops i { d.ops i with timerId := d.backend.nextId } j).state = (d.ops j).state := by
    intro j
    by_cases hj : j = i
    · subst hj
      simp
    · rw [hop j hj]
      exact ⟨rfl, rfl⟩
  have hid : (d.backend.scheduleAt deadline i).1 = d.backend.nextId := rfl
  rw [hid]
  refine ⟨LoopTimerBackend.scheduleAt_ok h.valid deadline i, List.nodup_cons.mpr ⟨hi, h.started⟩, h.once,
    fun j hj => List.mem_cons_of_mem _ (h.known j hj), ?_, ?_, ?_, ?_, ?_, ?_⟩
  · intro j hj hks
    obtain rfl | hj := List.mem_cons.mp hj
    · exact absurd (hk.symm.trans ((hkeep j).1.symm.trans hks)) nofun
    · exact h.schedule j hj ((hkeep j).1.symm.trans hks)
  · intro j dl hks
    exact (iff_of_eq (congrArg (· = OpState.pending) (hkeep j).2)).trans (h.pending j dl ((hkeep j).1.symm.trans hks))
  · intro j hj
    by_cases hji : j = i
    · subst hji
      exact ⟨_, hp.mem_iff.mpr List.mem_cons_self, by simp [setOp], rfl⟩
    · simp only [setOp, hop j hji] at hj ⊢
      obtain ⟨e, he, hide, hcb⟩ := h.timer j hj
      exact ⟨e, hp.mem_iff.mpr (List.mem_cons_of_mem _ he), hide, hcb⟩
  · intro e he
    obtain rfl | he := List.mem_cons.mp (hp.mem_iff.mp he)
    · exact ⟨by simp [setOp], List.mem_cons_self, hset⟩
    · obtain ⟨hide, hs, hw⟩ := h.entry e he
      simp only [setOp, hop _ (hno e he)]
      exact ⟨hide, List.mem_cons_of_mem _ hs, hw⟩
  · intro j hj hw
    by_cases hji : j = i
    · subst hji
      refine ⟨?_, List.mem_cons_self⟩
      simp only [setOp, Function.update_self]
      exact Nat.ne_of_gt h.valid.next
    · obtain ⟨ht, hcb⟩ := h.waiting j ((List.mem_cons.mp hj).resolve_left hji) hw
      simp only [setOp, hop j hji]
      exact ⟨ht, List.mem_cons_of_mem _ hcb⟩
  · intro j hj
    simp only [setOp, (hkeep j).1]
    obtain rfl | hj := List.mem_cons.mp hj
    · exact ⟨List.mem_cons_self, deadline, hk⟩
    · exact ⟨List.mem_cons_of_mem _ (h.callbacks j hj).1, (h.callbacks j hj).2⟩

theorem Inv.start (h : d.Inv) (hi : i ∉ d.started) : (d.start i).Inv := by
  have hset : ¬ d.Settled i := fun hs => hi (h.known i hs)
  obtain ⟨ht, hno⟩ := h.no_timer (.inl hi)
  have hentries : ∀ e, e ∈ d.backend.entries ↔ e ∈ d.backend.entries ∧ e.callback ≠ i :=
    fun e => ⟨fun he => ⟨he, hno e he⟩, fun he => he.1⟩
  have hnodup : (i :: d.started).Nodup := List.nodup_cons.mpr ⟨hi, h.started⟩
  have hmem : ∀ j, j ∈ i :: d.started ↔ j = i ∨ j ∈ d.started := fun _ => List.mem_cons
  cases hk : (d.ops i).kind with
  | schedule =>
    have hstart := h.settle hset (d.ops i).state d.callbacks (fun dl hdl => by cases hk.symm.trans hdl)
      h.valid hentries (fun _ hj => hj) (fun _ _ hj => hj) hnodup hmem
    have hself : { d.ops i with state := (d.ops i).state, timerId := InvalidTimerId } = d.ops i := by
      rw [← ht]
    rw [hself, setOp, Function.update_eq_self] at hstart
    simpa [LoopDomain.start, hk, enqueue] using hstart
  | scheduleAt deadline =>
    have hp : (d.ops i).state = .pending := (h.pending i deadline hk).mpr hset
    by_cases hstop : d.stopRequested = true
    · have hstart := h.settle hset .stopWon d.callbacks (fun _ _ => by decide) h.valid hentries
        (fun _ hj => hj) (fun _ _ hj => hj) hnodup hmem
      have hemplace := tryEnqueueStop_pending (d := { d with started := i :: d.started }) hp
      rw [if_pos ht] at hemplace
      simp only [LoopDomain.start, hk, emplace, if_pos hstop, hemplace]
      simpa [setOp, hk] using hstart
    · have hwait := h.schedule_timer hi hk
      simp only [LoopDomain.start, hk, emplace, if_neg hstop, if_pos hp]
      simpa only [hk] using hwait

/-- The callback of a timer runs, which leaves the backend. -/
theorem Inv.fire (h : d.Inv) {now : TimePoint} (hf : d.tickTurn now = some d') : d'.Inv := by
  obtain ⟨⟨entry, backend⟩, ht, rfl⟩ := Option.map_eq_some_iff.mp hf
  obtain ⟨hvalid, -, hentries, -⟩ := LoopTimerBackend.takeFront_ok h.valid ht
  have hmem : entry ∈ d.backend.entries := hentries ▸ List.mem_cons_self
  obtain ⟨hid, hs, hw⟩ := h.entry entry hmem
  have hrest : ∀ e, e ∈ backend.entries ↔ e ∈ d.backend.entries ∧ e.callback ≠ entry.callback := by
    have hnodup := h.valid.nodup
    rw [hentries, List.map_cons, List.nodup_cons] at hnodup
    intro e
    rw [hentries, List.mem_cons]
    constructor
    · intro he
      refine ⟨.inr he, fun hcb => hnodup.1 ?_⟩
      have hide := (h.entry e (hentries ▸ List.mem_cons_of_mem _ he)).1
      rw [hcb, hid] at hide
      exact hide ▸ List.mem_map_of_mem he
    · rintro ⟨rfl | he, hne⟩
      · exact absurd rfl hne
      · exact he
  obtain ⟨-, deadline, hk⟩ := h.callbacks _ (h.waiting _ hs hw).2
  have hp : (d.ops entry.callback).state = .pending := (h.pending _ deadline hk).mpr hw
  have hfire := h.settle hw .timerWon d.callbacks (fun _ _ => by decide) hvalid hrest (fun _ hj => hj)
    (fun _ _ hj => hj) h.started (fun j => ⟨.inr, fun hj => hj.elim (fun he => he ▸ hs) id⟩)
  simpa [timerCallback, tryEnqueue, setOp, hp, enqueue] using hfire

theorem Inv.unregister (h : d.Inv) (hi : d.Settled i) : ({ d with callbacks := d.callbacks.erase i } : LoopDomain ι).Inv where
  valid := h.valid
  started := h.started
  once := h.once
  known := h.known
  schedule := h.schedule
  pending := h.pending
  timer := h.timer
  entry := h.entry
  waiting j hj hw := by
    obtain ⟨ht, hcb⟩ := h.waiting j hj hw
    have hne : j ≠ i := fun heq => hw (heq ▸ hi)
    exact ⟨ht, (List.mem_erase_of_ne hne).mpr hcb⟩
  callbacks j hj := h.callbacks j (List.mem_of_mem_erase hj)

theorem Inv.stopCallback (h : d.Inv) (hi : i ∈ d.callbacks) : (d.stopCallback i).Inv := by
  obtain ⟨hs, deadline, hk⟩ := h.callbacks i hi
  by_cases hw : d.Settled i
  · have hp : (d.ops i).state ≠ .pending := fun hp => (h.pending i deadline hk).mp hp hw
    have hnothing := tryEnqueueStop_settled (d := { d with callbacks := d.callbacks.erase i })
      (h.no_timer (.inr hw)).1 hp
    rw [LoopDomain.stopCallback, hnothing]
    exact h.unregister hw
  · have hp : (d.ops i).state = .pending := (h.pending i deadline hk).mpr hw
    obtain ⟨ht, -⟩ := h.waiting i hs hw
    obtain ⟨hvalid, -, -, hmem⟩ := LoopTimerBackend.cancel_ok h.valid (d.ops i).timerId
    have hrest : ∀ e, e ∈ (d.backend.cancel (d.ops i).timerId).2.entries ↔
        e ∈ d.backend.entries ∧ e.callback ≠ i := by
      intro e
      rw [hmem]
      refine and_congr_right fun he => not_congr ⟨fun hid => ?_, fun hcb => ?_⟩
      · obtain ⟨e', he', hid', hcb'⟩ := h.timer i ht
        have heq : e = e' := List.inj_on_of_nodup_map h.valid.nodup he he' (hid.trans hid'.symm)
        rw [heq, hcb']
      · rw [← hcb, (h.entry e he).1]
    have hstop := h.settle hw .stopWon (d.callbacks.erase i) (fun _ _ => by decide) hvalid hrest
      (fun _ hj => List.mem_of_mem_erase hj)
      (fun _ hne hj => (List.mem_erase_of_ne hne).mpr hj) h.started
      (fun j => ⟨.inr, fun hj => hj.elim (fun he => he ▸ hs) id⟩)
    have hqueued := tryEnqueueStop_pending (d := { d with callbacks := d.callbacks.erase i }) hp
    rw [if_neg ht] at hqueued
    rw [LoopDomain.stopCallback, hqueued]
    exact hstop

theorem Inv.destroy (h : d.Inv) (hi : i ∈ d.completed) : (d.destroy i).Inv := by
  obtain ⟨ht, -⟩ := h.no_timer (.inr (.inr hi))
  have hd : ({ d with destroyed := i :: d.destroyed } : LoopDomain ι).Inv :=
    ⟨h.valid, h.started, h.once, h.known, h.schedule, h.pending, h.timer, h.entry, h.waiting, h.callbacks⟩
  cases hk : (d.ops i).kind with
  | schedule => simpa only [LoopDomain.destroy, hk] using hd
  | scheduleAt deadline =>
    simp only [LoopDomain.destroy, hk, if_pos ht]
    exact hd.unregister (.inr hi)

/-! ## Runs -/

theorem step_inv {a : LoopDomainAction ι} (h : d.Inv) (hs : d.step a = some d') : d'.Inv := by
  cases a with
  | start i =>
    simp only [step, mayStart, decide_eq_true_eq] at hs
    split at hs <;> cases hs
    exact h.start ‹_›
  | fire now => exact h.fire hs
  | execute =>
    obtain ⟨⟨i, d₁⟩, hd, rfl⟩ := Option.map_eq_some_iff.mp hs
    obtain ⟨queue, hq, rfl⟩ := tryDequeue_some hd
    exact h.execute hq
  | destroy i =>
    simp only [step, mayDestroy, decide_eq_true_eq] at hs
    split at hs <;> cases hs
    rename_i hi
    exact h.destroy hi.1

theorem reach_inv {kind : ι → OpKind} (h : (lts kind).Reach Lts.Any d) : d.Inv := by
  refine h.invariant ?_ fun hi _ hs => step_inv hi hs
  exact ⟨.init, .nil, .nil, by simp [Settled, completed, lts], by simp [lts], by simp [Settled, completed, lts],
    by simp [lts], by simp [lts], by simp [lts], by simp [lts]⟩

/-- The calls of a continuation are steps. -/
theorem runProgram_path (kind : ι → OpKind) (p : DomainProgram ι μ) (d : LoopDomain ι) :
    (lts kind).Path Lts.Any d (d.runProgram p).1 := by
  induction p generalizing d with
  | done memory => exact .refl _
  | start i k ih =>
    refine Lts.Path.trans ?_ (ih _)
    by_cases hi : d.mayStart i = true
    · exact .tail (a := .start i) (.refl _) trivial (by simp only [lts, step, if_pos hi])
    · rw [if_neg hi]
      exact .refl _
  | destroy i k ih =>
    refine Lts.Path.trans ?_ (ih _)
    by_cases hi : d.mayDestroy i = true
    · exact .tail (a := .destroy i) (.refl _) trivial (by simp only [lts, step, if_pos hi])
    · rw [if_neg hi]
      exact .refl _

variable {continuation : ι → Signal → μ → DomainProgram ι μ} {memory memory' : μ} {now : TimePoint}

/-- `Update()` is a run. -/
theorem update_path (kind : ι → OpKind) {fuel : Nat}
    (h : d.update continuation now fuel memory = some (d', memory')) : (lts kind).Path Lts.Any d d' := by
  obtain ⟨⟨count, p⟩, hd, rfl⟩ := Option.map_eq_some_iff.mp h
  obtain ⟨⟨fired, d₁⟩, htick, hdrain⟩ := Option.bind_eq_some_iff.mp hd
  obtain ⟨n, -, rfl, -⟩ := Loop.run_some htick
  obtain ⟨m, -, heq, -⟩ := Loop.run_some hdrain
  have hfired : (lts kind).Path Lts.Any d (Loop.turns (tickTurn now) n d) :=
    Loop.turns_invariant (I := fun d₁ => (lts kind).Path Lts.Any d d₁) (.refl d)
      (fun hp ht => .tail (a := .fire now) hp trivial ht) n
  have hall : (lts kind).Path Lts.Any d (Loop.turns (drainTurn continuation) m (Loop.turns (tickTurn now) n d, memory)).1 := by
    refine Loop.turns_invariant (I := fun p : LoopDomain ι × μ => (lts kind).Path Lts.Any d p.1) hfired ?_ m
    rintro ⟨d₁, m₁⟩ ⟨d₂, m₂⟩ hp ht
    obtain ⟨⟨i, d₃⟩, hdeq, hrun⟩ := Option.map_eq_some_iff.mp ht
    have hexec : (lts kind).step d₁ .execute = some (d₃.execute i).2 := by
      simp only [lts, step, hdeq, Option.map_some]
    have hcont := runProgram_path kind (continuation i (d₃.execute i).1 m₁) (d₃.execute i).2
    have hd₂ : ((d₃.execute i).2.runProgram (continuation i (d₃.execute i).1 m₁)).1 = d₂ := congrArg Prod.fst hrun
    rw [hd₂] at hcont
    exact (Lts.Path.tail hp trivial hexec).trans hcont
  rw [← heq] at hall
  exact hall

/-! ## The stop -/

theorem tryEnqueueStop_keeps (d : LoopDomain ι) (i : ι) :
    (d.tryEnqueueStop i).stopRequested = d.stopRequested ∧ (d.tryEnqueueStop i).callbacks = d.callbacks ∧
      (d.tryEnqueueStop i).completions = d.completions ∧ (d.tryEnqueueStop i).started = d.started := by
  simp only [tryEnqueueStop, tryEnqueue]
  split <;> split <;> exact ⟨rfl, rfl, rfl, rfl⟩

theorem start_keeps (d : LoopDomain ι) (i : ι) :
    (d.start i).stopRequested = d.stopRequested ∧ (d.start i).completions = d.completions ∧
      (d.start i).started = i :: d.started ∧ (d.stopRequested = true → (d.start i).callbacks = d.callbacks) := by
  obtain ⟨hs, hc, hcomp, hst⟩ := tryEnqueueStop_keeps { d with started := i :: d.started } i
  cases hk : (d.ops i).kind with
  | schedule => simp [start, hk, enqueue]
  | scheduleAt deadline =>
    by_cases hstop : d.stopRequested = true
    · simp only [start, hk, emplace, if_pos hstop]
      split
      · exact ⟨hs, hcomp, hst, fun _ => hc⟩
      · exact ⟨hs, hcomp, hst, fun _ => hc⟩
    · simp only [start, hk, emplace, if_neg hstop]
      split
      · exact ⟨rfl, rfl, rfl, fun h => absurd h hstop⟩
      · exact ⟨rfl, rfl, rfl, fun h => absurd h hstop⟩

theorem Stopping.start (h : d.Stopping) (hi : i ∉ d.started) : (d.start i).Stopping := by
  obtain ⟨hs, -, -, hc⟩ := start_keeps d i
  exact ⟨h.inv.start hi, hs.trans h.flag, (hc h.flag).trans h.callbacks⟩

theorem destroy_keeps (d : LoopDomain ι) (i : ι) :
    (d.destroy i).stopRequested = d.stopRequested ∧ (d.destroy i).completions = d.completions ∧
      (d.destroy i).started = d.started ∧ (d.callbacks = [] → (d.destroy i).callbacks = []) := by
  cases hk : (d.ops i).kind with
  | schedule => simp [destroy, hk]
  | scheduleAt deadline =>
    simp only [destroy, hk]
    split
    · exact ⟨rfl, rfl, rfl, fun h => by simp [h]⟩
    · exact ⟨rfl, rfl, rfl, fun h => by simp [h]⟩

theorem Stopping.destroy (h : d.Stopping) (hi : i ∈ d.completed) : (d.destroy i).Stopping := by
  obtain ⟨hs, -, -, hc⟩ := destroy_keeps d i
  exact ⟨h.inv.destroy hi, hs.trans h.flag, hc h.callbacks⟩

/-- A continuation starts and destroys operations, and completes none. -/
theorem Stopping.runProgram (h : d.Stopping) (p : DomainProgram ι μ) :
    (d.runProgram p).1.Stopping ∧ (d.runProgram p).1.completions = d.completions ∧
      ∀ i ∈ d.started, i ∈ (d.runProgram p).1.started := by
  induction p generalizing d with
  | done memory => exact ⟨h, rfl, fun _ hi => hi⟩
  | start i k ih =>
    rw [LoopDomain.runProgram]
    by_cases hi : d.mayStart i = true
    · rw [if_pos hi]
      obtain ⟨-, hcomp, hst, -⟩ := start_keeps d i
      obtain ⟨hp, hcomp', hst'⟩ := ih (h.start (of_decide_eq_true hi))
      exact ⟨hp, hcomp'.trans hcomp, fun j hj => hst' j (hst ▸ List.mem_cons_of_mem _ hj)⟩
    · rw [if_neg hi]
      exact ih h
  | destroy i k ih =>
    rw [LoopDomain.runProgram]
    by_cases hi : d.mayDestroy i = true
    · rw [if_pos hi]
      obtain ⟨-, hcomp, hst, -⟩ := destroy_keeps d i
      obtain ⟨hp, hcomp', hst'⟩ := ih (h.destroy (of_decide_eq_true hi).1)
      exact ⟨hp, hcomp'.trans hcomp, fun j hj => hst' j (hst ▸ hj)⟩
    · rw [if_neg hi]
      exact ih h

/-- What has been started after a program, and what it leaves in memory. -/
theorem runProgram_starts (d : LoopDomain ι) (p : DomainProgram ι μ) :
    ((d.runProgram p).1.started, (d.runProgram p).2) = p.startsAfter d.started := by
  induction p generalizing d with
  | done memory => rfl
  | start i k ih =>
    rw [LoopDomain.runProgram, DomainProgram.startsAfter, ih]
    by_cases hi : i ∈ d.started
    · simp [mayStart, hi]
    · simp [mayStart, hi, (start_keeps d i).2.2.1]
  | destroy i k ih =>
    rw [LoopDomain.runProgram, DomainProgram.startsAfter, ih]
    split
    · rw [(destroy_keeps d i).2.2.1]
    · rfl

theorem Stopping.drainTurn {p p' : LoopDomain ι × μ} (h : p.1.Stopping) (ht : drainTurn continuation p = some p') :
    p'.1.Stopping ∧ (∃ i, p'.1.completions = (i, .setStopped) :: p.1.completions ∧
      (p'.1.started, p'.2) = DomainProgram.follow continuation (p.1.started, p.2) (i, .setStopped)) ∧
      ∀ i ∈ p.1.started, i ∈ p'.1.started := by
  obtain ⟨d, memory⟩ := p
  obtain ⟨⟨i, d₁⟩, hd, rfl⟩ := Option.map_eq_some_iff.mp ht
  obtain ⟨queue, hq, rfl⟩ := tryDequeue_some hd
  have hflag : d.stopRequested = true := h.flag
  have hexec : ({ d with queue }.execute i).2.Stopping := ⟨h.inv.execute hq, h.flag, h.callbacks⟩
  have hcomp : ({ d with queue }.execute i).2.completions = (i, .setStopped) :: d.completions := by
    simp only [execute, hflag, if_true]
  have hsignal : ({ d with queue }.execute i).1 = .setStopped := by simp only [execute, hflag, if_true]
  obtain ⟨hstop, hcomp', hst⟩ := hexec.runProgram (continuation i ({ d with queue }.execute i).1 memory)
  refine ⟨hstop, ⟨i, hcomp'.trans hcomp, ?_⟩, hst⟩
  rw [runProgram_starts, hsignal]
  rfl

/-- What holds after some turns of the drain. -/
structure StoppedFrom (continuation : ι → Signal → μ → DomainProgram ι μ) (d : LoopDomain ι) (memory : μ)
    (d' : LoopDomain ι) (memory' : μ) : Prop where
  stopping : d'.Stopping
  completions : ∃ new, d'.completions = new ++ d.completions ∧ (∀ p ∈ new, p.2 = .setStopped) ∧
    new.reverse.foldl (DomainProgram.follow continuation) (d.started, memory) = (d'.started, memory')
  started : ∀ i ∈ d.started, i ∈ d'.started

theorem turns_stopping (h : d.Stopping) {k : Nat}
    (hk : Loop.Makes (LoopDomain.drainTurn continuation) k (d, memory)) :
    StoppedFrom continuation d memory (Loop.turns (LoopDomain.drainTurn continuation) k (d, memory)).1
      (Loop.turns (LoopDomain.drainTurn continuation) k (d, memory)).2 ∧
      (Loop.turns (LoopDomain.drainTurn continuation) k (d, memory)).1.completions.length = d.completions.length + k := by
  induction k with
  | zero => exact ⟨⟨h, ⟨[], rfl, by simp, rfl⟩, fun _ hi => hi⟩, rfl⟩
  | succ k ih =>
    obtain ⟨⟨hstop, ⟨new, hnew, hsignal, hfollow⟩, hst⟩, hlen⟩ := ih fun j hj => hk j (Nat.lt_succ_of_lt hj)
    obtain ⟨hstop', ⟨i, hcomp, hnext⟩, hst'⟩ := hstop.drainTurn (hk.turn_some (Nat.lt_succ_self k))
    refine ⟨⟨hstop', ⟨(i, .setStopped) :: new, by rw [hcomp, hnew]; rfl, ?_, ?_⟩,
      fun j hj => hst' j (hst j hj)⟩, ?_⟩
    · exact List.forall_mem_cons.mpr ⟨rfl, hsignal⟩
    · rw [List.reverse_cons, List.foldl_append, hfollow, hnext]
      rfl
    · rw [hcomp, List.length_cons, hlen, Nat.add_assoc]

/-- `request_stop()` runs every registered callback. -/
theorem requestStop_stopping (h : d.Inv) {order : List ι} (horder : d.callbacks.Perm order) :
    (d.requestStop order).Stopping ∧ (d.requestStop order).completions = d.completions ∧
      (d.requestStop order).started = d.started := by
  have hflag : ({ d with stopRequested := true } : LoopDomain ι).Inv :=
    ⟨h.valid, h.started, h.once, h.known, h.schedule, h.pending, h.timer, h.entry, h.waiting, h.callbacks⟩
  have hall : ∀ (order : List ι) (d : LoopDomain ι), d.Inv → d.stopRequested = true → d.callbacks.Perm order →
      (order.foldl LoopDomain.stopCallback d).Stopping ∧
        (order.foldl LoopDomain.stopCallback d).completions = d.completions ∧
        (order.foldl LoopDomain.stopCallback d).started = d.started := by
    intro order
    induction order with
    | nil => exact fun d hi hs hp => ⟨⟨hi, hs, hp.eq_nil⟩, rfl, rfl⟩
    | cons i order ih =>
      intro d hi hs hp
      obtain ⟨hs', hc', hcomp', hst'⟩ := tryEnqueueStop_keeps { d with callbacks := d.callbacks.erase i } i
      have hperm : (d.stopCallback i).callbacks.Perm order := by
        rw [LoopDomain.stopCallback, hc']
        simpa using hp.erase i
      obtain ⟨hstop, hcomp, hst⟩ := ih (d.stopCallback i)
        (hi.stopCallback (hp.mem_iff.mpr List.mem_cons_self)) (hs'.trans hs) hperm
      exact ⟨hstop, hcomp.trans hcomp', hst.trans hst'⟩
  exact hall order _ hflag rfl horder

/-- Where the drain ends, every operation that was started has completed. -/
theorem Stopping.all_completed (h : d.Stopping) (hqueue : d.queue = []) (hi : i ∈ d.started) : i ∈ d.completed := by
  by_contra hno
  have hw : ¬ d.Settled i := by
    rintro (hq | hc)
    · rw [hqueue] at hq
      exact List.not_mem_nil hq
    · exact hno hc
  have hcb := (h.inv.waiting i hi hw).2
  rw [h.callbacks] at hcb
  exact List.not_mem_nil hcb

/-- What has completed completes once: before, or since. -/
theorem Inv.count_new (h : d'.Inv) {new : List (ι × Signal)} (hnew : d'.completions = new ++ d.completions)
    (hi : i ∈ d'.completed) : (new.map Prod.fst).count i = if i ∈ d.completions.map Prod.fst then 0 else 1 := by
  have hcompleted : d'.completed = new.map Prod.fst ++ d.completed := by
    rw [completed, hnew, List.map_append, completed]
  have hnodup : d'.completed.Nodup := (List.nodup_append.mp h.once).2.1
  rw [hcompleted] at hnodup hi
  obtain ⟨hnew', -, hdisjoint⟩ := List.nodup_append.mp hnodup
  split
  · rename_i hold
    exact List.count_eq_zero.mpr fun hi' => hdisjoint i hi' i hold rfl
  · rename_i hold
    exact List.count_eq_one_of_mem hnew' ((List.mem_append.mp hi).resolve_right hold)

theorem drainTurn_none {p : LoopDomain ι × μ} (h : LoopDomain.drainTurn continuation p = none) : p.1.queue = [] := by
  have hd := Option.map_eq_none_iff.mp h
  simp only [tryDequeue] at hd
  split at hd
  · assumption
  · cases hd

/-- `Tick` finds nothing to fire. -/
theorem Stopping.tick (h : d.Stopping) {fuel : Nat} (hfuel : 0 < fuel) :
    Loop.run (tickTurn now) fuel 0 d = some (0, d) := by
  refine Loop.run_eq (n := 0) (fun j hj => absurd hj (Nat.not_lt_zero j)) ?_ hfuel 0
  rw [Loop.turns, tickTurn, LoopTimerBackend.takeFront, h.no_entries]
  rfl

end LoopDomain

open LoopDomain in
/-- `Stop()` of any reachable domain, where the continuations start finitely many operations.
Every operation that was started and had not completed, or that is started meanwhile, completes
once, with `set_stopped`; those that had completed get nothing more. What was started is what
the continuations of the completions started. Before `_opState` is destroyed the queue is empty,
and no entry is left in the backend. -/
theorem loop_stop_completes [DecidableEq ι] {kind : ι → OpKind} {d : LoopDomain ι}
    (h : (LoopDomain.lts kind).Reach Lts.Any d) (continuation : ι → Signal → μ → DomainProgram ι μ) (memory : μ)
    (now : TimePoint) {order : List ι} (horder : d.callbacks.Perm order)
    (hfinite : ∃ N, ∀ k,
      (Loop.turns (drainTurn continuation) k (d.requestStop order, memory)).1.started.length ≤ N) :
    ∃ n d' memory' new, (∀ fuel > n, d.stop continuation order now fuel memory = some (d', memory')) ∧
      d'.completions = new ++ d.completions ∧ (∀ p ∈ new, p.2 = .setStopped) ∧
      (∀ i ∈ d.started, i ∈ d'.started) ∧
      new.reverse.foldl (DomainProgram.follow continuation) (d.started, memory) = (d'.started, memory') ∧
      (∀ i ∈ d'.started, (new.map Prod.fst).count i = if i ∈ d.completions.map Prod.fst then 0 else 1) ∧
      d'.queue = [] ∧ d'.backend.entries = [] := by
  obtain ⟨N, hN⟩ := hfinite
  obtain ⟨hstop, hcomp, hst⟩ := requestStop_stopping (reach_inv h) horder
  have hbound : ∀ k, Loop.Makes (drainTurn continuation) k (d.requestStop order, memory) → k ≤ N := by
    intro k hk
    obtain ⟨hs, hlen⟩ := turns_stopping hstop hk
    have hle := hs.stopping.inv.completions_le.trans (hN k)
    omega
  obtain ⟨n, -, hmakes, hend, hrun⟩ := Loop.run_of_bounded hbound 0
  obtain ⟨⟨hs, ⟨new, hnew, hsignal, hfollow⟩, hstarted⟩, -⟩ := turns_stopping hstop hmakes
  rw [Nat.zero_add] at hrun
  rw [hcomp] at hnew
  rw [hst] at hfollow
  have hqueue := drainTurn_none hend
  refine ⟨n, _, (Loop.turns (drainTurn continuation) n (d.requestStop order, memory)).2, new,
    fun fuel hfuel => ?_, hnew, hsignal, fun i hi => hstarted i (hst ▸ hi), hfollow, fun i hi => ?_,
    hqueue, hs.no_entries⟩
  · simp only [LoopDomain.stop, drainQueue, hstop.tick (Nat.zero_lt_of_lt hfuel), Option.bind_some,
      hrun fuel hfuel, Option.map_some]
  · exact hs.inv.count_new hnew (hs.all_completed hqueue hi)

/-- One operation is queued, one waits, and one has fired and is queued. The first one's
continuation starts a fourth one, which is due later. -/
theorem loop_stop_completes_mixed :
    let kind : Nat → OpKind := fun i => if i = 0 then .schedule else .scheduleAt (2 * i)
    let continuation : Nat → Signal → Unit → DomainProgram Nat Unit :=
      fun i _ _ => if i = 0 then .start 3 (.done ()) else .done ()
    ∃ d, (LoopDomain.lts kind).Reach Lts.Any d ∧ d.queue = [0, 1] ∧ d.callbacks = [2, 1] ∧
      ∃ n d' memory' new, (∀ fuel > n, d.stop continuation [1, 2] 2 fuel () = some (d', memory')) ∧
        d'.completions = new ++ d.completions ∧ (∀ p ∈ new, p.2 = .setStopped) ∧
        (∀ i ∈ d.started, i ∈ d'.started) ∧
        new.reverse.foldl (DomainProgram.follow continuation) (d.started, ()) = (d'.started, memory') ∧
        (∀ i ∈ d'.started, (new.map Prod.fst).count i = if i ∈ d.completions.map Prod.fst then 0 else 1) ∧
        d'.queue = [] ∧ d'.backend.entries = [] := by
  intro kind continuation
  obtain ⟨d, h, hq⟩ := Lts.Reach.of_run (LoopDomain.lts kind) Lts.Any [.start 0, .start 1, .start 2, .fire 2]
    (fun d => decide (d.queue = [0, 1] ∧ d.callbacks = [2, 1]) &&
      (LoopDomain.drainTurn continuation
        (Loop.turns (LoopDomain.drainTurn continuation) 4 (d.requestStop [1, 2], ()))).isNone &&
      (List.range 5).all fun j => decide ((Loop.turns (LoopDomain.drainTurn continuation) j
        (d.requestStop [1, 2], ())).1.started.length ≤ 4))
    (by decide +kernel)
  simp only [Bool.and_eq_true, decide_eq_true_eq, Option.isNone_iff_eq_none, List.all_eq_true, List.mem_range] at hq
  obtain ⟨⟨⟨hqueue, hcallbacks⟩, hend⟩, hfew⟩ := hq
  exact ⟨d, h, hqueue, hcallbacks, loop_stop_completes h continuation () 2 (hcallbacks ▸ .swap 1 2 [])
    ⟨4, Loop.turns_forall (P := fun p => (LoopDomain.started (Prod.fst p)).length ≤ 4) hend
      fun j hj => hfew j (Nat.lt_succ_of_le hj)⟩⟩

end TX.Exec
