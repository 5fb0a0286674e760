import TxPkgAux.Proof.Exec.ThreadTimerBackend
import TxPkgAux.Proof.Exec.TimedInv

/-!
# Timed operations: one completion each

The steps of a run show when a stop was requested, and when `Execute` of an
operation asked `stop_requested()` (`TimedMark`). `Marked` is what this record
says of the stop sources and of the signals that were chosen: it is an invariant
next to `OpInv`, by cases on the steps (`OpStep.signals_cases`).

`completes_once` reads both off for any number of operations over any backend
that meets the contract, in every state before an operation is destroyed.
-/

namespace TX.Exec

/-- What the record of a run has. -/
inductive TimedMark (ι σ : Type) where
  /-- `request_stop()` on a stop source. -/
  | requestStop (token : σ)
  /-- `Execute` of the operation comes to `stop_requested()`. -/
  | execute (i : ι)
  deriving DecidableEq

/-- The signals of an operation: the one that `Execute` is about to deliver, and
those that were delivered. -/
def TimedOperation.signals {σ : Type} (o : TimedOperation σ) : List Signal :=
  (match o.execPc with
    | .signalling signal _ => [signal]
    | .idle | .loading => []) ++ o.completions.map Completion.signal

section Step

variable {σ : Type} {v v' : OpView σ} {a : OpAct}

/-- A signal is chosen where `Execute` asks `stop_requested()`, by its answer. -/
theorem OpStep.signals_cases (h : OpStep v a v') (hv : OpInv v) :
    (a = .execute ∧ v.op.execPc = .loading ∧ v.op.signals = [] ∧
      v'.op.signals = [if v.stop then .setStopped else .setValue]) ∨
    ¬ (a = .execute ∧ v.op.execPc = .loading) ∧ v'.op.signals = v.op.signals := by
  cases h with
  | dequeue hq =>
    refine .inr ⟨by simp, ?_⟩
    simp only [TimedOperation.signals, hv.idle hq]
  | execLoad hp =>
    have hnil := hv.completions_nil (by simp [hp])
    exact .inl ⟨rfl, hp, by simp [TimedOperation.signals, hp, hnil], by simp [TimedOperation.signals, hnil]⟩
  | execSignal hp =>
    have hnil := hv.completions_nil (by simp [hp])
    exact .inr ⟨by simp [hp], by simp [TimedOperation.signals, hp, hnil]⟩
  | _ => exact .inr ⟨by simp, rfl⟩

theorem OpStep.stopToken (h : OpStep v a v') : v'.op.stopToken = v.op.stopToken := by
  cases h <;> rfl

/-- Completions were delivered in the past. -/
theorem OpStep.past (h : OpStep v a v') (hv : ∀ c ∈ v.op.completions, c.time ≤ v.now) :
    ∀ c ∈ v'.op.completions, c.time ≤ v'.now := by
  cases h with
  | clock ht => exact fun c hc => (hv c hc).trans ht
  | execSignal hp =>
    intro c hc
    obtain hc | hc := List.mem_append.mp hc
    · exact hv c hc
    · obtain rfl := List.mem_singleton.mp hc
      exact Int.le_refl _
  | _ => exact hv

end Step

namespace TimedLoop

variable {ι σ : Type} [DecidableEq ι] {B : ITimerBackend ι}

omit [DecidableEq ι] in
/-- What a step shows. -/
def marks (s : TimedLoop ι σ B) : TimedAction ι σ B → List (TimedMark ι σ)
  | .requestStop token => [.requestStop token]
  | .execute i => if (s.ops i).execPc = .loading then [.execute i] else []
  | _ => []

/-- The system with a record of the stop requests and of the executions, newest first. -/
def observed [DecidableEq σ] (B : ITimerBackend ι) (now : TimePoint) (deadline : ι → TimePoint)
    (token : ι → σ) : Lts (TimedLoop ι σ B × List (TimedMark ι σ)) (TimedAction ι σ B) :=
  (lts B now deadline token).observe marks

variable {s s' : TimedLoop ι σ B} {a : TimedAction ι σ B} {i : ι}

theorem on_execute : a.on i = .execute ↔ a = .execute i := by
  cases a with
  | execute j => by_cases h : j = i <;> simp [TimedAction.on, h]
  | start j | timer j | stop j | dequeue j | destroy j =>
    simp only [TimedAction.on]
    split <;> simp
  | _ => simp [TimedAction.on]

omit [DecidableEq ι] in
theorem execute_mem_marks : .execute i ∈ s.marks a ↔ a = .execute i ∧ (s.ops i).execPc = .loading := by
  cases a with
  | execute j =>
    simp only [marks]
    split <;> grind
  | _ => simp [marks]

/-- A stop source is requested by `request_stop()` alone. -/
theorem step_stopRequested_eq [DecidableEq σ] (he : s.step a = some s') (ha : ∀ x, a ≠ .requestStop x) :
    s'.stopRequested = s.stopRequested := by
  cases a with
  | requestStop token => exact absurd rfl (ha token)
  | _ =>
    simp only [step, start, timer, stop, dequeue, execute, destroy, fire, done] at he
    grind [setOp, enqueue, Option.map_eq_some_iff, Option.bind_eq_some_iff]

theorem step_stopRequested [DecidableEq σ] (he : s.step a = some s') (x : σ) :
    s'.stopRequested x = true ↔ .requestStop x ∈ s.marks a ∨ s.stopRequested x = true := by
  cases a with
  | requestStop token =>
    cases he
    by_cases hx : x = token <;> simp [marks, hx]
  | execute j =>
    rw [step_stopRequested_eq he (by simp)]
    simp only [marks]
    split <;> simp
  | _ =>
    rw [step_stopRequested_eq he (by simp)]
    simp [marks]

end TimedLoop

variable {ι σ : Type} [DecidableEq ι] {B : ITimerBackend ι} {C : B.Contract}

/-! ## The record -/

/-- What the record says of an operation: the signal was chosen by what
`stop_requested()` had to say when `Execute` asked. -/
structure OpMarked (i : ι) (v : OpView σ) (ms : List (TimedMark ι σ)) : Prop where
  asked : .execute i ∈ ms ↔ v.op.signals ≠ []
  chose : ∀ before, .execute i :: before <:+ ms → ∀ signal ∈ v.op.signals,
    (signal = .setStopped ↔ .requestStop v.op.stopToken ∈ before)

/-- What the record says of a state. -/
structure Marked (C : B.Contract) (s : TimedLoop ι σ B) (ms : List (TimedMark ι σ)) : Prop where
  stopRequested : ∀ x, s.stopRequested x = true ↔ .requestStop x ∈ ms
  ops : ∀ i, (s.ops i).dtorPc ≠ .finished → OpMarked i (view C s i) ms
  past : ∀ i, ∀ c ∈ (s.ops i).completions, c.time ≤ s.now

section Marked

variable [DecidableEq σ] {s s' : TimedLoop ι σ B} {ms : List (TimedMark ι σ)} {a : TimedAction ι σ B} {i : ι}

theorem OpMarked.step (h : OpMarked i (view C s i) ms) (hI : Inv C s) (he : s.step a = some s')
    (hd : (s.ops i).dtorPc ≠ .finished) (hstop : ∀ x, s.stopRequested x = true ↔ .requestStop x ∈ ms) :
    OpMarked i (view C s' i) (s.marks a ++ ms) := by
  have hstep := step_view hI.ids he i
  have htoken := hstep.stopToken
  obtain ⟨ha, hp, hnil, hchosen⟩ | ⟨hno, hsame⟩ := hstep.signals_cases (hI.ops i hd)
  · -- `Execute` asks: it has not asked before
    obtain rfl := TimedLoop.on_execute.mp ha
    have hms : s.marks (.execute i) = [.execute i] := if_pos hp
    have hnew : .execute i ∉ ms := fun hm => h.asked.mp hm hnil
    refine ⟨by simp [hms, hchosen], fun before hs signal hsig => ?_⟩
    rw [hms, List.singleton_append, List.suffix_cons_iff] at hs
    obtain heq | hs := hs
    · obtain ⟨-, rfl⟩ := List.cons.inj heq
      rw [hchosen, List.mem_singleton] at hsig
      have hflag : (view C s i).stop = true ↔ .requestStop (view C s i).op.stopToken ∈ before := hstop _
      rw [htoken, ← hflag, hsig]
      cases (view C s i).stop <;> simp
    · exact absurd (hs.mem List.mem_cons_self) hnew
  · have hm : .execute i ∉ s.marks a := by
      rw [TimedLoop.execute_mem_marks, ← TimedLoop.on_execute]
      exact hno
    refine ⟨?_, fun before hs signal hsig => ?_⟩
    · rw [List.mem_append, or_iff_right hm, hsame, h.asked]
    · rw [htoken]
      exact h.chose before (suffix_of_notMem hm hs) signal (hsame ▸ hsig)

theorem Marked.step (h : Marked C s ms) (hI : Inv C s) (he : s.step a = some s') :
    Marked C s' (s.marks a ++ ms) where
  stopRequested x := by
    rw [TimedLoop.step_stopRequested he, h.stopRequested, List.mem_append]
  ops i hd :=
    have hf := (step_view hI.ids he i).not_finished hd
    (h.ops i hf).step hI he hf h.stopRequested
  past i := (step_view hI.ids he i).past (h.past i)

theorem Marked.reach {now : TimePoint} {deadline : ι → TimePoint} {token : ι → σ} (C : B.Contract)
    (h : (TimedLoop.observed B now deadline token).Reach Lts.Any (s, ms)) :
    (TimedLoop.lts B now deadline token).Reach Lts.Any s ∧ Marked C s ms := by
  refine h.invariant (I := fun p : TimedLoop ι σ B × List (TimedMark ι σ) =>
    (TimedLoop.lts B now deadline token).Reach Lts.Any p.1 ∧ Marked C p.1 p.2) ⟨.refl _, ?_⟩ fun hI _ he => ?_
  · refine ⟨fun x => ?_, fun i _ => ⟨?_, ?_⟩, fun i => ?_⟩ <;>
      simp [TimedLoop.observed, Lts.observe, TimedLoop.lts, TimedLoop.init, view, TimedOperation.signals]
  · obtain ⟨he, hp⟩ := Lts.observe_step.mp he
    exact ⟨.tail hI.1 trivial he, hp ▸ hI.2.step (.reach hI.1) he⟩

theorem stopToken_reach {now : TimePoint} {deadline : ι → TimePoint} {token : ι → σ} (C : B.Contract)
    (h : (TimedLoop.lts B now deadline token).Reach Lts.Any s) (i : ι) : (s.ops i).stopToken = token i := by
  refine (h.invariant (I := fun s => Ids C s ∧ (s.ops i).stopToken = token i) ⟨.init, rfl⟩ ?_).2
  intro s₁ s₂ a hI _ he
  exact ⟨hI.1.step he, (step_view hI.1 he i).stopToken.trans hI.2⟩

end Marked

/-! ## The result -/

/-- How often the operation `i` is queued, about to be queued, executing and
completed. -/
def TimedLoop.tally (s : TimedLoop ι σ B) (i : ι) : Nat :=
  s.queue.count i + (s.ops i).enqueuing + (s.ops i).executing + (s.ops i).completions.length

/-- The timer callback is executing. -/
def TimerPc.running : TimerPc → Bool
  | .clearing | .swapping | .enqueuing | .returning => true
  | .idle | .returned => false

/-- As long as no operation is destroyed: an operation is queued, executed and
completed once, from the moment its state is decided on; a started operation
that is still pending has its timer in the backend, or one of its functions is
executing; it completes with `set_stopped` exactly when a stop was requested as
`Execute` ran, and so always if the stop side won, and it never completes with
`set_value` before its deadline. -/
theorem completes_once [DecidableEq σ] {now : TimePoint} {deadline : ι → TimePoint} {token : ι → σ}
    (C : B.Contract) {s : TimedLoop ι σ B} {ms : List (TimedMark ι σ)}
    (hs : (TimedLoop.observed B now deadline token).Reach Lts.Any (s, ms))
    (hd : ∀ j, (s.ops j).dtorPc ≠ .finished) (i : ι) :
    s.tally i ≤ 1 ∧ (s.tally i = 1 ↔ (s.ops i).state ≠ .pending) ∧
      ((s.ops i).startPc ≠ .idle → (s.ops i).state = .pending →
        (∃ id, (C.timers s.backend).scheduled id (deadline i) i) ∨ (s.ops i).startPc ≠ .returned ∨
          (s.ops i).timerPc.running = true ∨ (s.ops i).stopPc.running = true) ∧
      ∀ c ∈ (s.ops i).completions, .execute i ∈ ms ∧
        (∀ before, .execute i :: before <:+ ms →
          (c.signal = .setStopped ↔ .requestStop (token i) ∈ before)) ∧
        (c.signal = .setStopped ↔ c.stopSeen = true) ∧
        ((s.ops i).state = .stopWon → c.signal ≠ .setValue) ∧
        c.time ≤ s.now ∧ (c.signal = .setValue → deadline i ≤ c.time) := by
  obtain ⟨hs, hm⟩ := Marked.reach C hs
  have hv := (Inv.reach (C := C) hs).ops i (hd i)
  have ha : s.tally i = if (s.ops i).state = .pending then 0 else 1 := hv.account
  have hdl := deadline_reach C hs i
  refine ⟨?_, ?_, fun _ hp => ?_, fun c hc => ?_⟩
  · rw [ha]; split <;> omega
  · rw [ha]; split <;> simp_all
  · by_cases hr : (s.ops i).startPc = .returned
    · rcases hv.kept (hv.returned hr hp) hp with h | h | h | h
      · have hsch : (C.timers s.backend).scheduled _ (s.ops i).deadline i := h
        rw [hdl] at hsch
        exact .inl ⟨_, hsch⟩
      · exact .inr (.inr (.inl (congrArg TimerPc.running h)))
      · exact .inr (.inr (.inl (congrArg TimerPc.running h)))
      · exact .inr (.inr (.inr h))
    · exact .inr (.inl hr)
  · obtain ⟨h1, h2⟩ := hv.completed c hc
    have hom := hm.ops i (hd i)
    have hsig : c.signal ∈ (s.ops i).signals := List.mem_append_right _ (List.mem_map_of_mem hc)
    refine ⟨hom.asked.mpr (List.ne_nil_of_mem hsig), fun before hb => ?_, h1, fun hw hsig => ?_,
      hm.past i c hc, fun hsig => hdl ▸ (h2 hsig).2⟩
    · rw [← stopToken_reach C hs i]
      exact hom.chose before hb _ hsig
    have := (h2 hsig).1
    rw [show (view C s i).op.state = (s.ops i).state from rfl, hw] at this
    cases this

/-- One operation on a `ThreadTimerBackend`, due at the time the clock starts. -/
def oneTimer : Lts (TimedLoop Unit Unit (threadTimerBackend Unit))
    (TimedAction Unit Unit (threadTimerBackend Unit)) :=
  TimedLoop.lts (threadTimerBackend Unit) 0 (fun _ => 0) (fun _ => ())

/-- `start()` returns, and the timer thread enters the callback. -/
def fired : List (TimedAction Unit Unit (threadTimerBackend Unit)) :=
  [.start (), .start (), .start (), .start (), .backend .lock, .backend (.test 0),
    .backend (.wakeUntil true), .backend (.pop 0), .backend .erase, .fire 1]

/-- The timer wins, the stop is requested before `Execute` runs, and the operation completes
with `set_stopped`. -/
theorem completes_once_fired : ∃ s ms,
    (oneTimer.observe TimedLoop.marks).Reach Lts.Any (s, ms) ∧ (s.ops ()).state = .timerWon ∧
      (s.ops ()).completions.map Completion.signal = [.setStopped] ∧ ms = [.execute (), .requestStop ()] ∧
      (s.tally () = 1 ↔ (s.ops ()).state ≠ .pending) := by
  obtain ⟨⟨s, ms⟩, hs, hq⟩ := Lts.Reach.of_run (oneTimer.observe TimedLoop.marks) Lts.Any
    (fired.append [.timer () false, .timer () false, .timer () false, .done 1, .requestStop (), .dequeue (),
      .execute (), .execute ()])
    (fun p => (p.1.ops ()).dtorPc = .idle ∧ (p.1.ops ()).state = .timerWon ∧
      (p.1.ops ()).completions.map Completion.signal = [.setStopped] ∧ p.2 = [.execute (), .requestStop ()])
    (by decide +kernel)
  obtain ⟨hd, hst, hc, hms⟩ := of_decide_eq_true hq
  exact ⟨s, ms, hs, hst, hc, hms, (completes_once (threadTimerBackend_contract Unit) hs
    (fun () => by simp [show (s.ops ()).dtorPc = .idle from hd]) ()).2.1⟩

end TX.Exec
