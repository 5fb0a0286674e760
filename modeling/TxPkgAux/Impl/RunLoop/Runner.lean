import TxPkgAux.Framework.Lts

/-!
# `Runner`

`pkg/runloop/RunLoop/{Handler,Runner}.h`, `pkg/app/App/{TightRunner,WasmRunner}.cpp`: a
handler is three functions on a world, which holds the fields of the runner that it calls
`Exit` on and the state of everything else. A runner makes one call of its handler in a step.

`WasmRunner::Run` hands `Update` to the main loop, which calls it once per frame. The clock
readings of `UpdateCtx` are left to the state of the handler.
-/

namespace TX.RunLoop

namespace ExitCode

def Success : Int := 0
def NotStarted : Int := 126
def Cancelled : Int := 130

end ExitCode

/-- `Handler`, on a world. -/
structure Handler (ω : Type) where
  start : ω → Bool × ω
  update : ω → ω
  stop : ω → ω

/-- `IRunner`, as handlers know it: `R` are the fields of the runner. -/
class IRunner (R : Type) where
  exit : R → Int → R
  exiting : R → Option Int

/-- The fields of a runner, and the state of its handlers. -/
structure World (R σ : Type) where
  runner : R
  state : σ

/-- Where a runner is. -/
inductive RunnerPc where
  /-- Before `InvokeStart()`. -/
  | starting
  /-- At the test of the loop of `TightRunner::Run`, or before a frame of the main loop. -/
  | looping
  /-- `InvokeStop()` returned. -/
  | stopped
  /-- `Run` returned, or the process exits. -/
  | ended (code : Int)
  deriving DecidableEq

/-- A runner and its handler in a run. -/
structure Running (R σ : Type) where
  pc : RunnerPc := .starting
  world : World R σ

/-! ## `TightRunner` -/

structure TightRunner where
  exitCode : Option Int := none
  running : Bool := false

namespace TightRunner

instance : IRunner TightRunner where
  exit _ code := { exitCode := some code, running := false }
  exiting r := r.exitCode

variable {σ : Type}

/-- `TightRunner::Run`. -/
def next (h : Handler (World TightRunner σ)) (s : Running TightRunner σ) : Option (Running TightRunner σ) :=
  match s.pc with
  | .starting =>
    match h.start s.world with
    | (false, w) => some ⟨.ended ExitCode.NotStarted, w⟩
    | (true, w) => some ⟨.looping, { w with runner := { w.runner with running := true } }⟩
  | .looping =>
    if s.world.runner.running then some { s with world := h.update s.world }
    else some ⟨.stopped, h.stop s.world⟩
  | .stopped => some { s with pc := .ended (s.world.runner.exitCode.getD ExitCode.Success) }
  | .ended _ => none

def lts (h : Handler (World TightRunner σ)) (state : σ) : Lts (Running TightRunner σ) Unit where
  init := { world := { runner := {}, state } }
  step s _ := next h s

end TightRunner

/-! ## `WasmRunner` -/

structure WasmRunner where
  exitCode : Option Int := none

namespace WasmRunner

instance : IRunner WasmRunner where
  exit _ code := { exitCode := some code }
  exiting r := r.exitCode

variable {σ : Type}

/-- `WasmRunner::Run`, the frames of the main loop, and the call that `StopAndExit` leaves to
the event loop. -/
def next (h : Handler (World WasmRunner σ)) (s : Running WasmRunner σ) : Option (Running WasmRunner σ) :=
  match s.pc with
  | .starting =>
    match h.start s.world with
    | (false, w) => some ⟨.ended ExitCode.NotStarted, w⟩
    | (true, w) => some ⟨.looping, w⟩
  | .looping =>
    match s.world.runner.exitCode with
    | some _ => some ⟨.stopped, h.stop s.world⟩
    | none => some { s with world := h.update s.world }
  | .stopped => some { s with pc := .ended (s.world.runner.exitCode.getD 0) }
  | .ended _ => none

def lts (h : Handler (World WasmRunner σ)) (state : σ) : Lts (Running WasmRunner σ) Unit where
  init := { world := { runner := {}, state } }
  step s _ := next h s

end WasmRunner

/-! ## Any handler -/

/-- A handler as a machine of its own: each function reads `Exiting()`, and calls `Exit` with
these codes, in this order. -/
structure Program (σ : Type) where
  start : σ → Option Int → Bool × List Int × σ
  update : σ → Option Int → List Int × σ
  stop : σ → Option Int → List Int × σ

/-- A call of a handler, with the codes it called `Exit` with. -/
inductive Call where
  | start (ok : Bool) (exits : List Int)
  | update (exits : List Int)
  | stop (exits : List Int)
  deriving DecidableEq

namespace Program

variable {R σ : Type} [IRunner R]

/-- A call: the codes go to the runner, and the call is recorded, newest first. -/
def call (w : World R (σ × List Call)) (exits : List Int) (s : σ) (c : Call) : World R (σ × List Call) where
  runner := exits.foldl IRunner.exit w.runner
  state := (s, c :: w.state.2)

/-- The handler, called by a runner. -/
def handler (p : Program σ) : Handler (World R (σ × List Call)) where
  start w :=
    let (ok, exits, s) := p.start w.state.1 (IRunner.exiting w.runner)
    (ok, call w exits s (.start ok exits))
  update w :=
    let (exits, s) := p.update w.state.1 (IRunner.exiting w.runner)
    call w exits s (.update exits)
  stop w :=
    let (exits, s) := p.stop w.state.1 (IRunner.exiting w.runner)
    call w exits s (.stop exits)

end Program

end TX.RunLoop
