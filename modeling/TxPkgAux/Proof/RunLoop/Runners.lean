import TxPkgAux.Impl.RunLoop.Runner

/-!
# `TightRunner` and `WasmRunner`

`TightRunner` keeps in `_running` whether it is to exit, `WasmRunner` looks at the exit code.
`TightRunner::Run` sets `_running` after `Start`: an `Exit` that `Start` made is lost on it,
and it goes on to `Update`. Where `Start` makes none, `_running` and the exit code tell the
same, the two runners move in lockstep, and they make the same calls
(`runners_agree_iff`).
-/

namespace TX.RunLoop

variable {R σ : Type}

/-! ## What the runners are to agree on -/

/-- The calls of the handler up to some point of the run, newest first. -/
def callsOf (M : Lts (Running R (σ × List Call)) Unit) : Set (List Call) :=
  { calls | ∃ s, M.Reach Lts.Any s ∧ s.world.state.2 = calls }

/-- What the run ends with. -/
def exitCodesOf (M : Lts (Running R (σ × List Call)) Unit) : Set Int :=
  { code | ∃ s, M.Reach Lts.Any s ∧ s.pc = .ended code }

def Call.isUpdate : Call → Bool
  | .update _ => true
  | .start _ _ | .stop _ => false

def Call.isStop : Call → Bool
  | .stop _ => true
  | .start _ _ | .update _ => false

/-- The calls of a run that `Exit` in `Start` ends: no `Update`, and one `Stop`. -/
def StoppedAtOnce (M : Lts (Running R (σ × List Call)) Unit) : Prop :=
  (∀ calls ∈ callsOf M, calls.countP Call.isUpdate = 0 ∧ calls.countP Call.isStop ≤ 1) ∧
    ∃ calls ∈ callsOf M, calls.countP Call.isStop = 1

/-- No `Update` follows one that called `Exit`. -/
def UpdatesEnd (M : Lts (Running R (σ × List Call)) Unit) : Prop :=
  ∀ calls ∈ callsOf M, ∀ later earlier exits, calls = later ++ .update exits :: earlier → exits ≠ [] →
    later.countP Call.isUpdate = 0

/-- The two runners make the same calls of the handler and end with the same exit code. A
handler that called `Exit` in `Start` gets no `Update` and, as it has started, one `Stop`. -/
def RunnersAgree (p : Program σ) (state : σ) : Prop :=
  callsOf (TightRunner.lts p.handler (state, [])) = callsOf (WasmRunner.lts p.handler (state, [])) ∧
  exitCodesOf (TightRunner.lts p.handler (state, [])) = exitCodesOf (WasmRunner.lts p.handler (state, [])) ∧
  ((p.start state none).1 = true → (p.start state none).2.1 ≠ [] →
    StoppedAtOnce (TightRunner.lts p.handler (state, [])) ∧ StoppedAtOnce (WasmRunner.lts p.handler (state, []))) ∧
  UpdatesEnd (TightRunner.lts p.handler (state, [])) ∧ UpdatesEnd (WasmRunner.lts p.handler (state, []))

/-! ## `Exit` -/

theorem TightRunner.foldl_exit (r : TightRunner) (exits : List Int) :
    exits.foldl IRunner.exit r =
      { exitCode := exits.getLast?.or r.exitCode, running := exits.isEmpty && r.running } := by
  induction exits generalizing r with
  | nil => simp
  | cons code exits ih =>
    rw [List.foldl_cons, ih, List.getLast?_cons]
    cases exits.getLast? <;> simp [IRunner.exit]

theorem WasmRunner.foldl_exit (r : WasmRunner) (exits : List Int) :
    exits.foldl IRunner.exit r = { exitCode := exits.getLast?.or r.exitCode } := by
  induction exits generalizing r with
  | nil => simp
  | cons code exits ih =>
    rw [List.foldl_cons, ih, List.getLast?_cons]
    cases exits.getLast? <;> simp [IRunner.exit]

/-! ## Lockstep -/

/-- `WasmRunner` has no `_running`. -/
def World.wasm (w : World TightRunner σ) : World WasmRunner σ := ⟨⟨w.runner.exitCode⟩, w.state⟩

/-- The state of `WasmRunner` for one of `TightRunner`. -/
def Running.wasm (s : Running TightRunner σ) : Running WasmRunner σ := ⟨s.pc, s.world.wasm⟩

/-- Where it loops, `TightRunner` is running if no exit code is set. -/
structure InStep (state : σ) (s : Running TightRunner (σ × List Call)) : Prop where
  starting : s.pc = .starting → s.world = ⟨{}, (state, [])⟩
  looping : s.pc = .looping → s.world.runner.running = s.world.runner.exitCode.isNone

theorem Program.call_wasm (w : World TightRunner (σ × List Call)) (exits : List Int) (s : σ) (c : Call) :
    (Program.call w exits s c).wasm = Program.call w.wasm exits s c := by
  simp [Program.call, World.wasm, TightRunner.foldl_exit, WasmRunner.foldl_exit]

section Lockstep

variable {p : Program σ} {state : σ} {s s' : Running TightRunner (σ × List Call)}

theorem Program.start_wasm (w : World TightRunner (σ × List Call)) :
    p.handler.start w.wasm = ((p.handler.start w).1, (p.handler.start w).2.wasm) := by
  simp only [Program.handler, Program.call_wasm]
  rfl

theorem Program.update_wasm (w : World TightRunner (σ × List Call)) :
    p.handler.update w.wasm = (p.handler.update w).wasm := by
  simp only [Program.handler, Program.call_wasm]
  rfl

theorem Program.stop_wasm (w : World TightRunner (σ × List Call)) :
    p.handler.stop w.wasm = (p.handler.stop w).wasm := by
  simp only [Program.handler, Program.call_wasm]
  rfl

/-- A step of `TightRunner` is a step of `WasmRunner`. -/
theorem next_wasm (hi : InStep state s) :
    WasmRunner.next p.handler s.wasm = (TightRunner.next p.handler s).map Running.wasm := by
  obtain ⟨pc, w⟩ := s
  cases pc with
  | starting =>
    simp only [TightRunner.next, WasmRunner.next, Running.wasm, Program.start_wasm]
    obtain ⟨ok, w'⟩ := p.handler.start w
    cases ok <;> rfl
  | looping =>
    have hr : w.runner.running = w.runner.exitCode.isNone := hi.looping rfl
    simp only [TightRunner.next, WasmRunner.next, Running.wasm, hr, Program.update_wasm, Program.stop_wasm]
    cases hc : w.runner.exitCode with
    | none => simp [World.wasm, Running.wasm, hc]
    | some code => simp [World.wasm, Running.wasm, hc]
  | stopped => rfl
  | ended => rfl

theorem Program.call_running (w : World TightRunner (σ × List Call)) (exits : List Int) (t : σ) (c : Call)
    (hr : w.runner.running = w.runner.exitCode.isNone) :
    (Program.call w exits t c).runner.running = (Program.call w exits t c).runner.exitCode.isNone := by
  rw [Program.call, TightRunner.foldl_exit, hr]
  cases exits <;> simp [List.getLast?_cons]

/-- Where `Start` makes no `Exit`, the runners stay in step. -/
theorem InStep.next (hs : (p.start state none).1 = true → (p.start state none).2.1 = [])
    (hi : InStep state s) (he : TightRunner.next p.handler s = some s') : InStep state s' := by
  obtain ⟨pc, w⟩ := s
  cases pc with
  | starting =>
    obtain rfl : w = ⟨{}, (state, [])⟩ := hi.starting rfl
    have hcode : (p.start state none).1 = true →
        (p.handler.start (⟨{}, (state, [])⟩ : World TightRunner _)).2.runner.exitCode = none := by
      intro hok
      show (List.foldl IRunner.exit ({} : TightRunner) (p.start state none).2.1).exitCode = none
      rw [hs hok]
      rfl
    simp only [TightRunner.next] at he
    split at he <;> cases he
    · exact ⟨fun h => (by cases h), fun h => (by cases h)⟩
    · rename_i w' hst
      refine ⟨fun h => (by cases h), fun _ => ?_⟩
      have hnone := hcode (congrArg Prod.fst hst)
      rw [hst] at hnone
      simpa using hnone
  | looping =>
    have hr : w.runner.running = w.runner.exitCode.isNone := hi.looping rfl
    simp only [TightRunner.next] at he
    split at he <;> cases he
    · exact ⟨fun h => (by cases h), fun _ => Program.call_running w _ _ _ hr⟩
    · exact ⟨fun h => (by cases h), fun h => (by cases h)⟩
  | stopped =>
    cases he
    exact ⟨fun h => (by cases h), fun h => (by cases h)⟩
  | ended => cases he

theorem InStep.init : InStep state (TightRunner.lts p.handler (state, [])).init :=
  ⟨fun _ => rfl, fun h => (by cases h)⟩

/-- The states that `TightRunner` reaches, and those that `WasmRunner` does. -/
theorem reach_wasm (hs : (p.start state none).1 = true → (p.start state none).2.1 = []) :
    (∀ s, (TightRunner.lts p.handler (state, [])).Reach Lts.Any s →
      (WasmRunner.lts p.handler (state, [])).Reach Lts.Any s.wasm) ∧
    ∀ t, (WasmRunner.lts p.handler (state, [])).Reach Lts.Any t →
      ∃ s, (TightRunner.lts p.handler (state, [])).Reach Lts.Any s ∧ s.wasm = t := by
  refine ⟨fun s h => ?_, fun t h => ?_⟩
  · exact (Lts.Path.image (M := TightRunner.lts p.handler (state, []))
      (N := WasmRunner.lts p.handler (state, [])) (f := Running.wasm) InStep.init
      (fun hi he => hi.next hs he) (fun _ hi => next_wasm hi) h).1
  · obtain ⟨s, hr, heq, -⟩ := Lts.Path.of_image (M := TightRunner.lts p.handler (state, [])) (f := Running.wasm)
      InStep.init (fun hi he => hi.next hs he) (fun _ hi => next_wasm hi) h
    exact ⟨s, hr, heq⟩

theorem callsOf_wasm (hs : (p.start state none).1 = true → (p.start state none).2.1 = []) :
    callsOf (TightRunner.lts p.handler (state, [])) = callsOf (WasmRunner.lts p.handler (state, [])) := by
  obtain ⟨hto, hfrom⟩ := reach_wasm hs
  ext calls
  constructor
  · rintro ⟨s, hr, rfl⟩
    exact ⟨s.wasm, hto s hr, rfl⟩
  · rintro ⟨t, hr, rfl⟩
    obtain ⟨s, hr', rfl⟩ := hfrom t hr
    exact ⟨s, hr', rfl⟩

theorem exitCodesOf_wasm (hs : (p.start state none).1 = true → (p.start state none).2.1 = []) :
    exitCodesOf (TightRunner.lts p.handler (state, [])) =
      exitCodesOf (WasmRunner.lts p.handler (state, [])) := by
  obtain ⟨hto, hfrom⟩ := reach_wasm hs
  ext code
  constructor
  · rintro ⟨s, hr, hc⟩
    exact ⟨s.wasm, hto s hr, hc⟩
  · rintro ⟨t, hr, hc⟩
    obtain ⟨s, hr', rfl⟩ := hfrom t hr
    exact ⟨s, hr', hc⟩

end Lockstep

/-! ## Updates -/

/-- An `Update` that called `Exit` is the last one, and an exit code is set. -/
structure LastUpdate (s : Running WasmRunner (σ × List Call)) : Prop where
  exiting : ∀ exits, .update exits ∈ s.world.state.2 → exits ≠ [] → s.world.runner.exitCode.isSome = true
  last : ∀ later earlier exits, s.world.state.2 = later ++ .update exits :: earlier → exits ≠ [] →
    later.countP Call.isUpdate = 0

section Updates

variable {p : Program σ} {w : World WasmRunner (σ × List Call)} {pc pc' : RunnerPc}

theorem exitCode_call (exits : List Int) (t : σ) (c : Call) :
    (Program.call w exits t c).runner.exitCode.isSome =
      (!exits.isEmpty || w.runner.exitCode.isSome) := by
  rw [Program.call, WasmRunner.foldl_exit]
  cases exits <;> simp [List.getLast?_cons]

/-- A call of `Start` or `Stop`. -/
theorem LastUpdate.other (hi : LastUpdate ⟨pc, w⟩) {exits : List Int} {t : σ} {c : Call}
    (hc : c.isUpdate = false) : LastUpdate ⟨pc', Program.call w exits t c⟩ := by
  refine ⟨fun exits' hmem hne => ?_, fun later earlier exits' heq hne => ?_⟩
  · rw [exitCode_call]
    rcases List.mem_cons.mp hmem with rfl | hmem
    · cases hc
    · simp [hi.exiting exits' hmem hne]
  · cases later with
    | nil =>
      cases heq
      cases hc
    | cons c' later =>
      obtain ⟨hc', hlog⟩ := List.cons.inj heq
      rw [List.countP_cons_of_neg (by simp [← hc', hc])]
      exact hi.last later earlier exits' hlog hne

/-- A call of `Update`, where no exit code is set. -/
theorem LastUpdate.update (hi : LastUpdate ⟨pc, w⟩) (hn : w.runner.exitCode = none) {exits : List Int} {t : σ} :
    LastUpdate ⟨pc', Program.call w exits t (.update exits)⟩ := by
  have hold : ∀ exits', .update exits' ∈ w.state.2 → exits' = [] := by
    intro exits' hmem
    by_contra hne
    simpa [hn] using hi.exiting exits' hmem hne
  refine ⟨fun exits' hmem hne => ?_, fun later earlier exits' heq hne => ?_⟩
  · rw [exitCode_call]
    rcases List.mem_cons.mp hmem with heq | hmem
    · cases heq
      simp [hne]
    · exact absurd (hold exits' hmem) hne
  · cases later with
    | nil => rfl
    | cons c' later =>
      obtain ⟨-, heq⟩ := List.cons.inj heq
      exact absurd (hold exits' (by simp [heq])) hne

theorem LastUpdate.next {s s' : Running WasmRunner (σ × List Call)} (hi : LastUpdate s)
    (he : WasmRunner.next p.handler s = some s') : LastUpdate s' := by
  obtain ⟨pc, w⟩ := s
  cases pc with
  | starting =>
    simp only [WasmRunner.next] at he
    split at he <;> rename_i hst <;> cases he
    · obtain rfl := congrArg Prod.snd hst
      exact hi.other rfl
    · obtain rfl := congrArg Prod.snd hst
      exact hi.other rfl
  | looping =>
    simp only [WasmRunner.next] at he
    split at he <;> cases he
    · exact hi.other rfl
    · exact hi.update ‹_›
  | stopped =>
    cases he
    exact ⟨hi.exiting, hi.last⟩
  | ended => cases he

end Updates

variable (p : Program σ) (state : σ)

theorem updatesEnd_wasm : UpdatesEnd (WasmRunner.lts p.handler (state, [])) := by
  rintro calls ⟨s, hr, rfl⟩
  have hi : LastUpdate s := hr.invariant ⟨by simp [WasmRunner.lts], by simp [WasmRunner.lts]⟩
    fun hi _ he => hi.next he
  exact hi.last

/-- `TightRunner` goes on to `Update` after a `Start` that returned `true`. -/
theorem update_of_start (hok : (p.start state none).1 = true) :
    ∃ calls ∈ callsOf (TightRunner.lts p.handler (state, [])), calls.countP Call.isUpdate = 1 := by
  obtain ⟨w, hst, hcalls⟩ : ∃ w, p.handler.start (⟨{}, (state, [])⟩ : World TightRunner _) = (true, w) ∧
      w.state.2 = [.start true (p.start state none).2.1] :=
    ⟨_, Prod.ext hok rfl, by rw [← hok]; rfl⟩
  have hstart : (TightRunner.lts p.handler (state, [])).step (TightRunner.lts p.handler (state, [])).init () =
      some ⟨.looping, { w with runner := { w.runner with running := true } }⟩ := by
    simp only [TightRunner.lts, TightRunner.next, hst]
  refine ⟨_, ⟨_, .tail (a := ()) (.tail (.refl _) trivial hstart) trivial rfl, rfl⟩, ?_⟩
  simp only [Program.handler, Program.call, hcalls]
  rfl

/-- The two runners agree on a handler if and only if its `Start` returns `false` or makes no
`Exit`. -/
theorem runners_agree_iff : RunnersAgree p state ↔
    ((p.start state none).1 = true → (p.start state none).2.1 = []) := by
  constructor
  · rintro ⟨-, -, hstop, -⟩ hok
    by_contra hne
    obtain ⟨calls, hmem, hcount⟩ := update_of_start p state hok
    have hzero := ((hstop hok hne).1.1 calls hmem).1
    omega
  · intro hs
    refine ⟨callsOf_wasm hs, exitCodesOf_wasm hs, fun hok hne => absurd (hs hok) hne, ?_, updatesEnd_wasm p state⟩
    intro calls hmem
    rw [callsOf_wasm hs] at hmem
    exact updatesEnd_wasm p state calls hmem

/-- `Start` calls `Exit(5)`, and `Update` calls `Exit(7)`. -/
def exitInStart : Program Unit where
  start _ _ := (true, [5], ())
  update _ _ := ([7], ())
  stop _ _ := ([], ())

/-- `TightRunner` makes an `Update` and returns 7, where `WasmRunner` exits with 5. -/
theorem runners_disagree : ¬ RunnersAgree exitInStart () ∧
    (∃ s, (TightRunner.lts exitInStart.handler ((), [])).Reach Lts.Any s ∧ s.pc = .ended 7 ∧
      s.world.state.2 = [.stop [], .update [7], .start true [5]]) ∧
    ∃ s, (WasmRunner.lts exitInStart.handler ((), [])).Reach Lts.Any s ∧ s.pc = .ended 5 ∧
      s.world.state.2 = [.stop [], .start true [5]] := by
  refine ⟨fun h => ?_, ?_, ?_⟩
  · obtain ⟨calls, hmem, hcount⟩ := update_of_start exitInStart () rfl
    have hzero := ((h.2.2.1 rfl (by decide)).1.1 calls hmem).1
    omega
  · obtain ⟨s, hs, hq⟩ := Lts.Reach.of_run (TightRunner.lts exitInStart.handler ((), [])) Lts.Any
      [(), (), (), ()]
      (fun s => s.pc = .ended 7 ∧ s.world.state.2 = [.stop [], .update [7], .start true [5]]) (by decide +kernel)
    exact ⟨s, hs, of_decide_eq_true hq⟩
  · obtain ⟨s, hs, hq⟩ := Lts.Reach.of_run (WasmRunner.lts exitInStart.handler ((), [])) Lts.Any
      [(), (), ()]
      (fun s => s.pc = .ended 5 ∧ s.world.state.2 = [.stop [], .start true [5]]) (by decide +kernel)
    exact ⟨s, hs, of_decide_eq_true hq⟩

end TX.RunLoop
