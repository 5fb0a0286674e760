import TxPkgAux.Impl.Exec.LoopTimerBackend
import TxPkgAux.Impl.Exec.TimedOperation

/-!
# `Domain` on one thread

`pkg/exec/Exec/Domain.cpp` with a `LoopTimerBackend`, as on the thread of a frame loop: operations
of `schedule()` (`PureLoopContext::Operation`) and of `schedule_at()` (`TimedOperation`), whose
receivers all carry the domain's stop token. On one thread a function of an operation is not
interrupted by another, so that each is one step.

The continuation of an operation is a program (`DomainProgram`), chosen by the operation, its
signal and what the continuations before it left in memory (`μ`). An operation is started once,
and is destroyed after its completion: what a program asks for beyond that is not done.
`LoopDomain.lts` is the domain before `Stop()`, where code that is not modelled may start and
destroy operations at any time; `LoopDomain.stop` is `Stop()` up to `_opState.reset()`.
-/

namespace TX.Exec

/-- The senders of the scheduler. -/
inductive OpKind where
  | schedule
  | scheduleAt (deadline : TimePoint)

/-- `PureLoopContext::Operation`, which has only its kind, or `TimedOperation`. -/
structure LoopOp where
  kind : OpKind
  state : OpState := .pending
  timerId : TimerId := InvalidTimerId

/-- `callbacks` are the operations whose stop callbacks are registered, and `completions` the
signals that were delivered, newest first. A callback in the backend is one of an operation. -/
structure LoopDomain (ι : Type) where
  ops : ι → LoopOp
  backend : LoopTimerBackend ι := {}
  stopRequested : Bool := false
  callbacks : List ι := []
  queue : List ι := []
  started : List ι := []
  destroyed : List ι := []
  completions : List (ι × Signal) := []

inductive LoopDomainAction (ι : Type) where
  | start (i : ι)
  /-- A turn of the loop of `Tick`, at the clock reading `now`. -/
  | fire (now : TimePoint)
  /-- A turn of the loop of `DrainQueue`. -/
  | execute
  | destroy (i : ι)

/-- What the continuation of an operation does with operations, and what it leaves in memory. -/
inductive DomainProgram (ι μ : Type) where
  | done (memory : μ)
  | start (i : ι) (k : DomainProgram ι μ)
  | destroy (i : ι) (k : DomainProgram ι μ)

namespace LoopDomain

variable {ι μ : Type} [DecidableEq ι]

def setOp (d : LoopDomain ι) (i : ι) (o : LoopOp) : LoopDomain ι :=
  { d with ops := Function.update d.ops i o }

/-- `PureLoopContext::Push` and `PureLoopContext::Enqueue`. -/
def enqueue (d : LoopDomain ι) (i : ι) : LoopDomain ι := { d with queue := d.queue ++ [i] }

def tryEnqueue (d : LoopDomain ι) (i : ι) (desired : OpState) : LoopDomain ι :=
  if (d.ops i).state = .pending then (d.setOp i { d.ops i with state := desired }).enqueue i else d

def tryEnqueueStop (d : LoopDomain ι) (i : ι) : LoopDomain ι :=
  let d :=
    if (d.ops i).timerId = InvalidTimerId then d
    else
      { d with backend := (d.backend.cancel (d.ops i).timerId).2 }.setOp i
        { d.ops i with timerId := InvalidTimerId }
  d.tryEnqueue i .stopWon

/-- `stopRegistration.emplace`: a callback that comes after the stop runs at once. -/
def emplace (d : LoopDomain ι) (i : ι) : LoopDomain ι :=
  if d.stopRequested then d.tryEnqueueStop i else { d with callbacks := i :: d.callbacks }

/-- `start()` of an operation. -/
def start (d : LoopDomain ι) (i : ι) : LoopDomain ι :=
  let d := { d with started := i :: d.started }
  match (d.ops i).kind with
  | .schedule => d.enqueue i
  | .scheduleAt deadline =>
    let d := d.emplace i
    if (d.ops i).state = .pending then
      let (id, backend) := d.backend.scheduleAt deadline i
      { d with backend }.setOp i { d.ops i with timerId := id }
    else d

/-- The callback that `start()` passes to `ScheduleAt`. -/
def timerCallback (d : LoopDomain ι) (i : ι) : LoopDomain ι :=
  (d.setOp i { d.ops i with timerId := InvalidTimerId }).tryEnqueue i .timerWon

/-- `Execute` of either operation: the signal, and the domain after its delivery. -/
def execute (d : LoopDomain ι) (i : ι) : Signal × LoopDomain ι :=
  let signal := if d.stopRequested then .setStopped else .setValue
  (signal, { d with completions := (i, signal) :: d.completions })

/-- The destructor of an operation. -/
def destroy (d : LoopDomain ι) (i : ι) : LoopDomain ι :=
  let d := { d with destroyed := i :: d.destroyed }
  match (d.ops i).kind with
  | .schedule => d
  | .scheduleAt _ =>
    let d := { d with callbacks := d.callbacks.erase i }
    if (d.ops i).timerId = InvalidTimerId then d
    else { d with backend := (d.backend.cancel (d.ops i).timerId).2 }

/-- The operation is connected, and was not started. -/
def mayStart (d : LoopDomain ι) (i : ι) : Bool := i ∉ d.started

/-- The operation has completed, and was not destroyed. -/
def mayDestroy (d : LoopDomain ι) (i : ι) : Bool := i ∈ d.completions.map Prod.fst ∧ i ∉ d.destroyed

/-- A turn of the loop of `Tick`. -/
def tickTurn (now : TimePoint) (d : LoopDomain ι) : Option (LoopDomain ι) :=
  (d.backend.takeFront now).map fun (entry, backend) => { d with backend }.timerCallback entry.callback

/-- `try_dequeue`. -/
def tryDequeue (d : LoopDomain ι) : Option (ι × LoopDomain ι) :=
  match d.queue with
  | [] => none
  | i :: queue => some (i, { d with queue })

def step (d : LoopDomain ι) : LoopDomainAction ι → Option (LoopDomain ι)
  | .start i => if d.mayStart i then some (d.start i) else none
  | .fire now => d.tickTurn now
  | .execute => d.tryDequeue.map fun (i, d) => (d.execute i).2
  | .destroy i => if d.mayDestroy i then some (d.destroy i) else none

/-- A domain with operations of these kinds, none started. -/
def lts (kind : ι → OpKind) : Lts (LoopDomain ι) (LoopDomainAction ι) where
  init := { ops := fun i => { kind := kind i } }
  step := step

/-! ## `Update()` and `Stop()` -/

def runProgram (d : LoopDomain ι) : DomainProgram ι μ → LoopDomain ι × μ
  | .done memory => (d, memory)
  | .start i k => (if d.mayStart i then d.start i else d).runProgram k
  | .destroy i k => (if d.mayDestroy i then d.destroy i else d).runProgram k

/-- A turn of the loop of `PureLoopContext::DrainQueue`. -/
def drainTurn (continuation : ι → Signal → μ → DomainProgram ι μ) :
    LoopDomain ι × μ → Option (LoopDomain ι × μ)
  | (d, memory) => d.tryDequeue.map fun (i, d) =>
    let (signal, d) := d.execute i
    d.runProgram (continuation i signal memory)

/-- `TimedLoopContext::DrainQueue`, with the number of operations that were executed. -/
def drainQueue (continuation : ι → Signal → μ → DomainProgram ι μ) (now : TimePoint) (fuel : Nat)
    (d : LoopDomain ι) (memory : μ) : Option (Nat × LoopDomain ι × μ) :=
  (Loop.run (tickTurn now) fuel 0 d).bind fun (_, d) =>
    Loop.run (drainTurn continuation) fuel 0 (d, memory)

/-- `Domain::Update`. -/
def update (continuation : ι → Signal → μ → DomainProgram ι μ) (now : TimePoint) (fuel : Nat)
    (d : LoopDomain ι) (memory : μ) : Option (LoopDomain ι × μ) :=
  (d.drainQueue continuation now fuel memory).map Prod.snd

/-- A registered stop callback runs, and is not registered any more. -/
def stopCallback (d : LoopDomain ι) (i : ι) : LoopDomain ι :=
  { d with callbacks := d.callbacks.erase i }.tryEnqueueStop i

/-- `_stopSource.request_stop()`, which runs the registered callbacks in the order `order`. -/
def requestStop (order : List ι) (d : LoopDomain ι) : LoopDomain ι :=
  order.foldl stopCallback { d with stopRequested := true }

/-- `Domain::Stop`, up to `_opState.reset()`. -/
def stop (continuation : ι → Signal → μ → DomainProgram ι μ) (order : List ι) (now : TimePoint)
    (fuel : Nat) (d : LoopDomain ι) (memory : μ) : Option (LoopDomain ι × μ) :=
  ((d.requestStop order).drainQueue continuation now fuel memory).map Prod.snd

end LoopDomain

end TX.Exec
