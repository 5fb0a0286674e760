import TxPkgAux.Proof.Exec.LoopTimerBackend

/-!
# `LoopTimerBackend::Tick` and the entries that its callbacks add

The comment of `Tick` promises a snapshot: what a callback adds is left to a later `Tick`. The
loop looks at the front of the live entries, so that it fires an added entry that is due. The
promise is kept in the `Tick`s whose callbacks cancel every due entry that they add
(`tick_snapshot_iff`), and only in them.
-/

namespace TX.Exec

namespace LoopTimers

variable {β μ : Type}

/-- The events since a state before. -/
def newSince (s s' : LoopTimers β) : List LoopTimerEvent := s'.log.take (s'.log.length - s.log.length)

/-- The backend after `k` turns of the loop of a `Tick`. -/
def ticked (program : β → μ → CallbackProgram β μ) (now : TimePoint) (s : LoopTimers β) (memory : μ)
    (k : Nat) : LoopTimers β := (Loop.turns (tickTurn program now) k (s, memory)).1

/-- What a callback of a `Tick` adds, the `Tick` does not fire, and it ends after as many
callbacks as there were entries at most. -/
def Snapshot (program : β → μ → CallbackProgram β μ) (now : TimePoint) (s : LoopTimers β)
    (memory : μ) : Prop :=
  (∀ k id d t, .scheduled id d ∈ s.newSince (ticked program now s memory k) →
    .fired id t ∉ s.newSince (ticked program now s memory k)) ∧
  ∃ n ≤ s.backend.entries.length, ∃ r, ∀ fuel > n, tick program now fuel (s, memory) = some (n, r)

/-- What the callbacks of a `Tick` add with a deadline that its clock reading has passed, they
cancel. -/
def CancelsDue (program : β → μ → CallbackProgram β μ) (now : TimePoint) (s : LoopTimers β)
    (memory : μ) : Prop :=
  ∀ k id d, .scheduled id d ∈ s.newSince (ticked program now s memory k) → d ≤ now →
    ∃ k', .cancelled id true ∈ s.newSince (ticked program now s memory k')

variable {program : β → μ → CallbackProgram β μ} {now : TimePoint} {s s' s'' : LoopTimers β} {memory : μ}

/-! ## What a callback does, and what a turn does -/

/-- From a state to a later one of the same `Tick`: with the reading of its clock where callbacks
are called on the way, and with `none` in a callback. -/
structure Later (fires : Option TimePoint) (s s' : LoopTimers β) : Prop where
  ok : s'.Ok
  next : s.backend.nextId ≤ s'.backend.nextId
  log : ∃ new, s'.log = new ++ s.log ∧ (∀ id d, .scheduled id d ∈ new → s.backend.nextId ≤ id) ∧
    ∀ id t, .fired id t ∈ new → fires = some t

variable {fires : Option TimePoint}

theorem Later.refl (h : s.Ok) : Later fires s s :=
  ⟨h, Nat.le_refl _, [], rfl, by simp, by simp⟩

theorem Later.trans (h : Later fires s s') (h' : Later fires s' s'') : Later fires s s'' := by
  obtain ⟨new, hlog, hs, hf⟩ := h.log
  obtain ⟨new', hlog', hs', hf'⟩ := h'.log
  refine ⟨h'.ok, h.next.trans h'.next, new' ++ new, by rw [hlog', hlog, List.append_assoc], ?_, ?_⟩
  · intro id d hmem
    obtain hmem | hmem := List.mem_append.mp hmem
    · exact h.next.trans (hs' id d hmem)
    · exact hs id d hmem
  · intro id t hmem
    obtain hmem | hmem := List.mem_append.mp hmem
    · exact hf' id t hmem
    · exact hf id t hmem

theorem Later.in_tick (h : Later none s s') : Later fires s s' := by
  obtain ⟨new, hlog, hs, hf⟩ := h.log
  exact ⟨h.ok, h.next, new, hlog, hs, fun id t hmem => absurd (hf id t hmem) nofun⟩

/-- The entries with ids below `n`. -/
def older (n : TimerId) (s : LoopTimers β) : Nat := s.backend.entries.countP fun e => decide (e.id < n)

theorem scheduleAt_later (h : s.Ok) (deadline : TimePoint) (callback : β) :
    Later none s (s.scheduleAt deadline callback).2 ∧
      ∀ n ≤ s.backend.nextId, older n (s.scheduleAt deadline callback).2 = older n s := by
  refine ⟨⟨h.scheduleAt deadline callback, Nat.le_succ _, [.scheduled s.backend.nextId deadline], rfl, ?_, by simp⟩,
    ?_⟩
  · intro id d hmem
    cases List.mem_singleton.mp hmem
    exact Nat.le_refl _
  · intro n hn
    have hp := LoopTimerBackend.scheduleAt_perm h.valid deadline callback
    rw [older, scheduleAt, hp.countP_eq, List.countP_cons_of_neg (by simpa using hn), older]

theorem cancel_later (h : s.Ok) (id : TimerId) :
    Later none s (s.cancel id).2 ∧ ∀ n, older n (s.cancel id).2 ≤ older n s := by
  obtain ⟨-, hnext, -⟩ := LoopTimerBackend.cancel_ok h.valid id
  refine ⟨⟨h.cancel id, hnext.ge, [.cancelled id (s.backend.cancel id).1], rfl, by simp, by simp⟩, ?_⟩
  intro n
  simp only [older, cancel, LoopTimerBackend.cancel]
  cases s.backend.entries.findIdx? fun e => e.id = id with
  | none => exact Nat.le_refl _
  | some i => exact (List.eraseIdx_sublist ..).countP_le

/-- A callback only adds ids that are new, and fires nothing. -/
theorem program_later (h : s.Ok) (p : CallbackProgram β μ) :
    Later none s (p.run s).1 ∧ ∀ n ≤ s.backend.nextId, older n (p.run s).1 ≤ older n s := by
  induction p generalizing s with
  | done memory => exact ⟨.refl h, fun n _ => Nat.le_refl _⟩
  | scheduleAt deadline callback k ih =>
    obtain ⟨hl, hold⟩ := scheduleAt_later h deadline callback
    obtain ⟨hl', hold'⟩ := ih (s.scheduleAt deadline callback).1 hl.ok
    exact ⟨hl.trans hl', fun n hn => (hold' n (hn.trans hl.next)).trans (hold n hn).le⟩
  | cancel id k ih =>
    obtain ⟨hl, hold⟩ := cancel_later h id
    obtain ⟨hl', hold'⟩ := ih (s.cancel id).1 hl.ok
    exact ⟨hl.trans hl', fun n hn => (hold' n (hn.trans hl.next)).trans (hold n)⟩

/-- A turn fires the front entry. Where its id is below `n`, it is one less of them. -/
theorem turn_later (h : s.Ok) {memory' : μ} (ht : tickTurn program now (s, memory) = some (s', memory')) :
    Later (some now) s s' ∧ ∃ entry ∈ s.backend.entries, .fired entry.id now ∈ s'.log ∧
      ∀ n ≤ s.backend.nextId, entry.id < n → older n s' + 1 ≤ older n s := by
  obtain ⟨⟨callback, s₁⟩, hf, heq⟩ := Option.map_eq_some_iff.mp ht
  have hok₁ := h.fire hf
  obtain ⟨entry, backend, htake, -, rfl⟩ := fire_cases hf
  obtain ⟨-, hnext, hentries, -⟩ := LoopTimerBackend.takeFront_ok h.valid htake
  have hrun : (program callback memory).run { s with backend, log := .fired entry.id now :: s.log } =
      (s', memory') := heq
  obtain ⟨hl, hold⟩ := program_later hok₁ (program callback memory)
  rw [hrun] at hl hold
  have hfire : Later (some now) s { s with backend, log := .fired entry.id now :: s.log } :=
    ⟨hok₁, hnext.ge, [.fired entry.id now], rfl, by simp, by simp⟩
  refine ⟨hfire.trans (hl.in_tick), entry, hentries ▸ List.mem_cons_self, ?_, ?_⟩
  · obtain ⟨new, hlog, -⟩ := hl.log
    rw [hlog]
    exact List.mem_append_right _ List.mem_cons_self
  · intro n hn hid
    have hcount : older n s = backend.entries.countP (fun e => decide (e.id < n)) + 1 := by
      rw [older, hentries, List.countP_cons_of_pos (by simpa using hid)]
    rw [hcount]
    exact Nat.succ_le_succ (hold n (hnext ▸ hn))

/-! ## The turns of a `Tick` -/

variable (program now memory) in
theorem ticked_later (h : s.Ok) (k : Nat) : Later (some now) s (ticked program now s memory k) := by
  refine Loop.turns_invariant (I := fun p : LoopTimers β × μ => Later (some now) s p.1) (.refl h) ?_ k
  rintro ⟨s₁, m₁⟩ ⟨s₂, m₂⟩ h₁ ht
  exact h₁.trans (turn_later h₁.ok ht).1

/-- The log only grows. -/
theorem ticked_suffix (h : s.Ok) {j k : Nat} (hjk : j ≤ k) :
    (ticked program now s memory j).log <:+ (ticked program now s memory k).log := by
  refine Loop.turns_le (fun p q => p.1.log <:+ q.1.log) (fun _ => List.suffix_refl _) List.IsSuffix.trans
    (I := fun p => p.1.Ok) (s := (s, memory)) h ?_ hjk
  rintro ⟨s₁, m₁⟩ ⟨s₂, m₂⟩ h₁ ht
  obtain ⟨hl, -⟩ := turn_later h₁ ht
  obtain ⟨new, hlog, -⟩ := hl.log
  exact ⟨hl.ok, new, hlog.symm⟩

theorem Later.newSince (h : Later fires s s') :
    s'.log = s.newSince s' ++ s.log ∧
      (∀ id d, .scheduled id d ∈ s.newSince s' → s.backend.nextId ≤ id) ∧
      ∀ id t, .fired id t ∈ s.newSince s' → fires = some t := by
  obtain ⟨new, hlog, hs, hf⟩ := h.log
  have hnew : s.newSince s' = new := by
    rw [LoopTimers.newSince, hlog, List.length_append, Nat.add_sub_cancel_right, List.take_left]
  rw [hnew]
  exact ⟨hlog, hs, hf⟩

/-- The events about an id that is new are new. -/
theorem Later.new_of_id (h : Later fires s s') (hs : s.Ok) {id : TimerId} (hid : s.backend.nextId ≤ id)
    {ev : LoopTimerEvent} (hev : ev ∈ s'.log)
    (habout : (∃ d, ev = .scheduled id d) ∨ (∃ t, ev = .fired id t) ∨ ev = .cancelled id true) :
    ev ∈ s.newSince s' := by
  rw [h.newSince.1] at hev
  refine (List.mem_append.mp hev).resolve_right ?_
  have hno : ∀ d, .scheduled id d ∉ s.log := fun d hd => absurd (hs.log.known id d hd) hid.not_gt
  obtain ⟨d, rfl⟩ | ⟨t, rfl⟩ | rfl := habout
  · exact hno d
  · intro hf
    obtain ⟨⟨d, -, hd⟩, -⟩ := hs.log.fired id t hf
    exact hno d hd
  · intro hc
    obtain ⟨d, hd⟩ := hs.log.cancelled id hc
    exact hno d hd

/-- What a turn of the `Tick` has added, is in the log from then on. -/
theorem ticked_keeps (h : s.Ok) {ev : LoopTimerEvent} {j k : Nat}
    (hev : ev ∈ s.newSince (ticked program now s memory j)) (hjk : j ≤ k) :
    ev ∈ (ticked program now s memory k).log := by
  refine (ticked_suffix h hjk).subset ?_
  rw [(ticked_later program now memory h j).newSince.1]
  exact List.mem_append_left _ hev

/-- A due entry that the callbacks cancel is not fired. -/
theorem added_not_fired (h : s.Ok) (hc : CancelsDue program now s memory) {k : Nat} {id : TimerId} {d t : TimePoint}
    (hs : .scheduled id d ∈ s.newSince (ticked program now s memory k)) :
    .fired id t ∉ s.newSince (ticked program now s memory k) := by
  intro hf
  have hl := ticked_later program now memory h k
  obtain rfl := Option.some.inj (hl.newSince.2.2 id t hf)
  obtain ⟨⟨d', hle, hd'⟩, -⟩ := hl.ok.log.fired id _ (ticked_keeps h hf (Nat.le_refl k))
  obtain rfl := hl.ok.log.unique id d' d hd' (ticked_keeps h hs (Nat.le_refl k))
  obtain ⟨k', hcancelled⟩ := hc k id d' hs hle
  have hmax := ticked_later program now memory h (max k k')
  exact (hmax.ok.log.fired id _ (ticked_keeps h hf (Nat.le_max_left k k'))).2
    (ticked_keeps h hcancelled (Nat.le_max_right k k'))

/-- An entry that the `Tick` takes was there when it began. -/
theorem taken_old (h : s.Ok) (hc : CancelsDue program now s memory) {k : Nat}
    {entry : LoopTimerBackend.Entry β} (he : entry ∈ (ticked program now s memory k).backend.entries)
    (hf : .fired entry.id now ∈ (ticked program now s memory (k + 1)).log) : entry.id < s.backend.nextId := by
  have hl := ticked_later program now memory h k
  have hl' := ticked_later program now memory h (k + 1)
  have hpending := hl.ok.log.of_entry he
  by_contra hid
  refine added_not_fired (t := now) h hc (hl'.new_of_id h (not_lt.mp hid)
    ((ticked_suffix h (Nat.le_succ k)).subset hpending.scheduled) (.inl ⟨_, rfl⟩)) ?_
  exact hl'.new_of_id h (not_lt.mp hid) hf (.inr (.inl ⟨now, rfl⟩))

/-- Every turn takes one of the entries that were there when the `Tick` began. -/
theorem ticked_older (h : s.Ok) (hc : CancelsDue program now s memory) {k : Nat}
    (hk : Loop.Makes (tickTurn program now) k (s, memory)) :
    older s.backend.nextId (ticked program now s memory k) + k ≤ older s.backend.nextId s := by
  induction k with
  | zero => exact Nat.le_refl _
  | succ k ih =>
    have hturn := hk.turn_some (Nat.lt_succ_self k)
    have hl := ticked_later program now memory h k
    obtain ⟨-, entry, he, hf, hold⟩ := turn_later (s := ticked program now s memory k) hl.ok hturn
    have hless := hold _ hl.next (taken_old h hc he hf)
    have := ih fun j hj => hk j (Nat.lt_succ_of_lt hj)
    exact (Nat.le_of_eq (Nat.add_right_comm _ _ _)).trans ((Nat.add_le_add_right hless k).trans this)

/-- Where a `Tick` ends, a due entry that it added and did not fire has been cancelled. -/
theorem due_cancelled (h : s.Ok) (hnot : ∀ k id d t, .scheduled id d ∈ s.newSince (ticked program now s memory k) →
      .fired id t ∉ s.newSince (ticked program now s memory k)) {n k : Nat} {id : TimerId} {d : TimePoint}
    (hend : tickTurn program now (Loop.turns (tickTurn program now) n (s, memory)) = none)
    (hs : .scheduled id d ∈ s.newSince (ticked program now s memory k)) (hd : d ≤ now) :
    .cancelled id true ∈ s.newSince (ticked program now s memory (n + k)) := by
  have hl := ticked_later program now memory h (n + k)
  have hid := (ticked_later program now memory h k).newSince.2.1 id d hs
  have hsched := ticked_keeps h hs (Nat.le_add_left k n)
  by_contra hnc
  have hpending : Pending (ticked program now s memory (n + k)).log id d := by
    refine ⟨hsched, fun t hf => ?_, fun hc => hnc (hl.new_of_id h hid hc (.inr (.inr rfl)))⟩
    exact hnot (n + k) id d t (hl.new_of_id h hid hsched (.inl ⟨d, rfl⟩)) (hl.new_of_id h hid hf (.inr (.inl ⟨t, rfl⟩)))
  obtain ⟨e, he, -, rfl⟩ := (hl.ok.log.pending id d).mpr hpending
  have hstill : ticked program now s memory (n + k) = ticked program now s memory n := by
    rw [ticked, Loop.turns_add, Loop.turns_of_none hend, ticked]
  rw [hstill] at he hl
  exact absurd hd (LoopTimerBackend.takeFront_none hl.ok.valid (fire_none (Option.map_eq_none_iff.mp hend)) e he).not_ge

/-! ## A `Tick` with programs is a run -/

/-- The same, with `Tick` at another place. -/
def atPc (now : TimePoint) (pc : TickPc) (s : LoopTimers β) : LoopTimers β := { s with pc, clock := now }

theorem program_path (clock now : TimePoint) (p : CallbackProgram β μ) (s : LoopTimers β) :
    (lts β clock).Path Lts.Any (s.atPc now (.callback now)) ((p.run s).1.atPc now (.callback now)) := by
  induction p generalizing s with
  | done memory => exact .refl _
  | scheduleAt deadline callback k ih =>
    have hstep : (lts β clock).step (s.atPc now (.callback now)) (.scheduleAt deadline callback) =
        some ((s.scheduleAt deadline callback).2.atPc now (.callback now)) := rfl
    exact (Lts.Path.tail (.refl _) trivial hstep).trans (ih _ _)
  | cancel id k ih =>
    have hstep : (lts β clock).step (s.atPc now (.callback now)) (.cancel id) =
        some ((s.cancel id).2.atPc now (.callback now)) := rfl
    exact (Lts.Path.tail (.refl _) trivial hstep).trans (ih _ _)

theorem turn_path {clock : TimePoint} {memory' : μ} (ht : tickTurn program now (s, memory) = some (s', memory')) :
    (lts β clock).Path Lts.Any (s.atPc now (.looping now)) (s'.atPc now (.looping now)) := by
  obtain ⟨⟨callback, s₁⟩, hf, heq⟩ := Option.map_eq_some_iff.mp ht
  obtain ⟨entry, backend, htake, -, rfl⟩ := fire_cases hf
  have hrun : (program callback memory).run { s with backend, log := .fired entry.id now :: s.log } =
      (s', memory') := heq
  have htest : (lts β clock).step (s.atPc now (.looping now)) .next =
      some (atPc now (.callback now) { s with backend, log := .fired entry.id now :: s.log }) := by
    simp only [lts, step, atPc, fire, htake, Option.map_some]
  have hcall := program_path clock now (program callback memory)
    { s with backend, log := .fired entry.id now :: s.log }
  rw [hrun] at hcall
  exact .tail ((Lts.Path.tail (.refl _) trivial htest).trans hcall) (a := .next) trivial rfl

/-- The turns of a `Tick` are steps of the backend at work. -/
theorem ticked_path {clock : TimePoint} (program : β → μ → CallbackProgram β μ) (memory : μ)
    (hout : s.pc = .outside) (hclock : s.clock ≤ now) (k : Nat) :
    (lts β clock).Path Lts.Any s ((ticked program now s memory k).atPc now (.looping now)) := by
  have hstart : (lts β clock).step s (.tick now) = some (s.atPc now (.looping now)) :=
    if_pos ⟨hout, hclock⟩
  refine (Lts.Path.tail (.refl _) trivial hstart).trans (Loop.turns_invariant
    (I := fun p : LoopTimers β × μ => (lts β clock).Path Lts.Any (s.atPc now (.looping now))
      (p.1.atPc now (.looping now))) (.refl _) ?_ k)
  rintro ⟨s₁, m₁⟩ ⟨s₂, m₂⟩ h₁ ht
  exact h₁.trans (turn_path ht)

end LoopTimers

open LoopTimers in
/-- A `Tick` fires none of the entries that its callbacks add, and ends after as many callbacks as
there were entries at most, exactly where its callbacks cancel what they add with a deadline
that its clock reading has passed. -/
theorem tick_snapshot_iff {β μ : Type} {clock : TimePoint} {s : LoopTimers β}
    (h : (LoopTimers.lts β clock).Reach Lts.Any s) (program : β → μ → CallbackProgram β μ) (now : TimePoint)
    (memory : μ) : Snapshot program now s memory ↔ CancelsDue program now s memory := by
  have hok := reach_ok h
  constructor
  · rintro ⟨hnot, n, -, r, hrun⟩ k id d hs hd
    obtain ⟨n, -, rfl, hend⟩ := Loop.run_some (hrun (n + 1) (Nat.lt_succ_self n))
    exact ⟨n + k, due_cancelled hok hnot hend hs hd⟩
  · intro hc
    refine ⟨fun k id d t hs => added_not_fired hok hc hs, ?_⟩
    have hbound : ∀ k, Loop.Makes (tickTurn program now) k (s, memory) → k ≤ s.backend.entries.length := by
      intro k hk
      have hold := ticked_older hok hc hk
      exact (Nat.le_add_left _ _).trans (hold.trans List.countP_le_length)
    obtain ⟨n, hn, -, -, hrun⟩ := Loop.run_of_bounded hbound 0
    rw [Nat.zero_add] at hrun
    exact ⟨n, hn, _, hrun⟩

/-- A callback that schedules an entry for a time that has passed, and cancels it before it
returns: the `Tick` ends after the one entry. -/
theorem tick_snapshot_iff_cancelled : ∃ s, (LoopTimers.lts Unit 0).Reach Lts.Any s ∧
    s.backend.entries.length = 1 ∧
    LoopTimers.Snapshot (fun _ _ => .scheduleAt 5 () fun id => .cancel id fun _ => .done ()) 7 s () := by
  have hs : (LoopTimers.lts Unit 0).Reach Lts.Any (((LoopTimers.lts Unit 0).init.scheduleAt 5 ()).2) :=
    .tail (a := .scheduleAt 5 ()) (.refl _) trivial rfl
  refine ⟨_, hs, rfl, (tick_snapshot_iff hs _ 7 ()).mpr ?_⟩
  intro k id d hmem _
  refine ⟨1, ?_⟩
  cases k with
  | zero => cases hmem
  | succ k =>
    rw [LoopTimers.ticked, Nat.add_comm, Loop.turns_add, Loop.turns_of_none rfl] at hmem
    change _ ∈ [LoopTimerEvent.cancelled 2 true, .scheduled 2 5, .fired 1 7] at hmem
    have hid : id = 2 := by
      simp only [List.mem_cons, reduceCtorEq, LoopTimerEvent.scheduled.injEq, List.not_mem_nil] at hmem
      grind
    subst hid
    exact List.mem_cons_self

/-- A callback that schedules itself again for a time that has passed. -/
def rearm (_ : Unit) (_ : Unit) : CallbackProgram Unit Unit := .scheduleAt 5 () fun _ => .done ()

theorem rearm_goes_on {s : LoopTimers Unit} (id : TimerId) (h : s.backend.entries = [⟨5, id, ()⟩])
    (fuel count : Nat) : Loop.run (LoopTimers.tickTurn rearm 7) fuel count (s, ()) = none := by
  induction fuel generalizing s id count with
  | zero => rfl
  | succ fuel ih =>
    have hfire : s.fire 7 = some ((), { s with
        backend := { s.backend with entries := [] }, log := .fired id 7 :: s.log }) := by
      rw [LoopTimers.fire, LoopTimerBackend.takeFront, h]
      rfl
    rw [Loop.run, LoopTimers.tickTurn, hfire]
    exact ih s.backend.nextId rfl (count + 1)

/-- The `Tick` fires the entry that its first callback added, and never ends. -/
theorem tick_fires_added : ∃ s, (LoopTimers.lts Unit 0).Reach Lts.Any s ∧
    (∃ k, .scheduled 2 5 ∈ s.newSince (LoopTimers.ticked rearm 7 s () k) ∧
      .fired 2 7 ∈ s.newSince (LoopTimers.ticked rearm 7 s () k)) ∧
    ∀ fuel, LoopTimers.tick rearm 7 fuel (s, ()) = none := by
  have hs : (LoopTimers.lts Unit 0).Reach Lts.Any (((LoopTimers.lts Unit 0).init.scheduleAt 5 ()).2) :=
    .tail (a := .scheduleAt 5 ()) (.refl _) trivial rfl
  exact ⟨_, hs, ⟨2, by decide, by decide⟩, fun fuel => rearm_goes_on 1 rfl fuel 0⟩

end TX.Exec
