import TxPkgAux.Framework.LowerBound
import TxPkgAux.Framework.Loops
import TxPkgAux.Framework.Lts
import TxPkgAux.Impl.Exec.ITimerBackend

/-!
# `LoopTimerBackend`

`pkg/exec/Exec/Delay/LoopTimerBackend.h`, on the thread that runs the loop. `LoopTimers` is
the backend at work: `Tick` is stepped turn by turn, and in the callbacks that it runs
`ScheduleAt` and `Cancel` are called with any arguments (`LoopTimers.lts`).

In `tick` the callbacks run programs instead (`CallbackProgram`): a callback is named by a
value of `β`, and its program depends on what the callbacks before it left in memory (`μ`) and
on what its own calls return. It calls finitely often.
-/

namespace TX.Exec

namespace LoopTimerBackend

/-- `LoopTimerBackend::Entry`. -/
structure Entry (β : Type) where
  deadline : TimePoint
  id : TimerId
  callback : β

end LoopTimerBackend

structure LoopTimerBackend (β : Type) where
  entries : List (LoopTimerBackend.Entry β) := []
  nextId : TimerId := 1

namespace LoopTimerBackend

variable {β : Type}

def scheduleAt (b : LoopTimerBackend β) (deadline : TimePoint) (callback : β) :
    TimerId × LoopTimerBackend β :=
  let it := LowerBound.lowerBound (fun e => decide (e.deadline < deadline)) b.entries
  (b.nextId, { b with
    nextId := b.nextId + 1
    entries := b.entries.insertIdx it ⟨deadline, b.nextId, callback⟩ })

def cancel (b : LoopTimerBackend β) (id : TimerId) : Bool × LoopTimerBackend β :=
  match b.entries.findIdx? (fun e => e.id = id) with
  | none => (false, b)
  | some it => (true, { b with entries := b.entries.eraseIdx it })

/-- The test of the loop of `Tick`, and the front entry moved out where it is due. -/
def takeFront (b : LoopTimerBackend β) (now : TimePoint) : Option (Entry β × LoopTimerBackend β) :=
  match b.entries with
  | [] => none
  | entry :: entries => if entry.deadline ≤ now then some (entry, { b with entries }) else none

end LoopTimerBackend

/-- Where `Tick` is. -/
inductive TickPc where
  /-- Not called. -/
  | outside
  /-- At the test of the loop. -/
  | looping (now : TimePoint)
  /-- In the callback of an entry. -/
  | callback (now : TimePoint)
  deriving DecidableEq

inductive LoopTimerEvent where
  | scheduled (id : TimerId) (deadline : TimePoint)
  | cancelled (id : TimerId) (r : Bool)
  /-- The callback of the id is called in a `Tick` at the clock reading `now`. -/
  | fired (id : TimerId) (now : TimePoint)
  deriving DecidableEq

/-- The backend at work. `clock` is the last reading of the clock; `log` is newest first. -/
structure LoopTimers (β : Type) where
  backend : LoopTimerBackend β := {}
  pc : TickPc := .outside
  clock : TimePoint := 0
  log : List LoopTimerEvent := []

inductive LoopTimerAction (β : Type) where
  | scheduleAt (deadline : TimePoint) (callback : β)
  | cancel (id : TimerId)
  /-- `Tick` is called and reads the clock. -/
  | tick (now : TimePoint)
  /-- `Tick` goes on: at the test of the loop, or after a callback. -/
  | next

namespace LoopTimers

variable {β : Type}

def scheduleAt (s : LoopTimers β) (deadline : TimePoint) (callback : β) : TimerId × LoopTimers β :=
  let (id, backend) := s.backend.scheduleAt deadline callback
  (id, { s with backend, log := .scheduled id deadline :: s.log })

def cancel (s : LoopTimers β) (id : TimerId) : Bool × LoopTimers β :=
  let (r, backend) := s.backend.cancel id
  (r, { s with backend, log := .cancelled id r :: s.log })

/-- An entry is moved out, and its callback is called. -/
def fire (s : LoopTimers β) (now : TimePoint) : Option (β × LoopTimers β) :=
  (s.backend.takeFront now).map fun (entry, backend) =>
    (entry.callback, { s with backend, log := .fired entry.id now :: s.log })

/-- No call of `Tick` is at the test of its loop. -/
def mayCall (s : LoopTimers β) : Bool :=
  match s.pc with
  | .outside | .callback _ => true
  | .looping _ => false

def step (s : LoopTimers β) : LoopTimerAction β → Option (LoopTimers β)
  | .scheduleAt deadline callback => if s.mayCall then some (s.scheduleAt deadline callback).2 else none
  | .cancel id => if s.mayCall then some (s.cancel id).2 else none
  | .tick now =>
    if s.pc = .outside ∧ s.clock ≤ now then some { s with pc := .looping now, clock := now } else none
  | .next =>
    match s.pc with
    | .outside => none
    | .looping now =>
      some (match s.fire now with
        | none => { s with pc := .outside }
        | some (_, s) => { s with pc := .callback now })
    | .callback now => some { s with pc := .looping now }

/-- A backend that was constructed when the clock showed `clock`. -/
def lts (β : Type) (clock : TimePoint) : Lts (LoopTimers β) (LoopTimerAction β) where
  init := { clock }
  step := step

end LoopTimers

/-! ## `Tick` with programs -/

/-- What a callback does: its calls, each with what follows on the result, and what it leaves
in memory. -/
inductive CallbackProgram (β μ : Type) where
  | done (memory : μ)
  | scheduleAt (deadline : TimePoint) (callback : β) (k : TimerId → CallbackProgram β μ)
  | cancel (id : TimerId) (k : Bool → CallbackProgram β μ)

namespace CallbackProgram

variable {β μ : Type}

def run (s : LoopTimers β) : CallbackProgram β μ → LoopTimers β × μ
  | .done memory => (s, memory)
  | .scheduleAt deadline callback k =>
    let (id, s) := s.scheduleAt deadline callback
    (k id).run s
  | .cancel id k =>
    let (r, s) := s.cancel id
    (k r).run s

end CallbackProgram

namespace LoopTimers

variable {β μ : Type}

/-- A turn of the loop of `Tick`. -/
def tickTurn (program : β → μ → CallbackProgram β μ) (now : TimePoint) :
    LoopTimers β × μ → Option (LoopTimers β × μ)
  | (s, memory) => (s.fire now).map fun (callback, s) => (program callback memory).run s

/-- `Tick` at the clock reading `now`, with the number of callbacks it called. -/
def tick (program : β → μ → CallbackProgram β μ) (now : TimePoint) (fuel : Nat)
    (s : LoopTimers β × μ) : Option (Nat × LoopTimers β × μ) :=
  Loop.run (tickTurn program now) fuel 0 s

end LoopTimers

end TX.Exec
