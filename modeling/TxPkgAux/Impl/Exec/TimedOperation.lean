import TxPkgAux.Framework.Lts
import TxPkgAux.Impl.Exec.ITimerBackend

/-!
# `TimedOperation`

`pkg/exec/Exec/Context/TimedOperation.h`, with the `PureLoopContext` it
completes on and the stop tokens its receivers carry: any number of operations
(`ι`) over any number of stop sources (`σ`), one queue and one timer backend.

Every read and write of an operation is one step. Each function that touches an
operation has its own program counter in it: `start()` (`StartPc`), the timer
callback registered by it (`TimerPc`), the stop callback (`StopPc`), `Execute`
(`ExecPc`) and the destructor (`DtorPc`). The steps of different operations, and
of different functions on one operation, interleave freely, so that the threads
they run on need not be named; who may call what is said where it matters.

The queue is taken as a bag: `moodycamel::ConcurrentQueue` keeps no order
between producers. A stop source is its flag; `request_stop` sets it, and from
then on each registered callback may run.
-/

namespace TX.Exec

/-- `TimedOperation::State`. -/
inductive OpState where
  | pending | timerWon | stopWon
  deriving DecidableEq

/-- The completion signals. -/
inductive Signal where
  | setValue | setStopped
  deriving DecidableEq

/-- A delivered completion: the signal, what `stop_requested()` said when
`Execute` ran, and the time of the delivery. -/
structure Completion where
  signal : Signal
  stopSeen : Bool
  time : TimePoint

/-- Where `start()` is. -/
inductive StartPc where
  | idle
  /-- Inside `stopRegistration.emplace`, which runs the stop callback. -/
  | emplacing
  /-- At `state.load`. -/
  | loading
  /-- At `backend->ScheduleAt`. -/
  | scheduling
  /-- At the assignment of the id `ScheduleAt` returned to `timerId`. -/
  | assigning (id : TimerId)
  | returned
  deriving DecidableEq

/-- Where the callback passed to `ScheduleAt` is. -/
inductive TimerPc where
  | idle
  /-- At `timerId = InvalidTimerId`. -/
  | clearing
  /-- At the compare-exchange of `TryEnqueue(TimerWon)`. -/
  | swapping
  /-- At `scheduler->Enqueue(this)`. -/
  | enqueuing
  /-- Out of the operation, not yet back in the backend. -/
  | returning
  | returned
  deriving DecidableEq

/-- Where the stop registration and its callback (`TryEnqueueStop`) are. -/
inductive StopPc where
  | unregistered
  | registered
  /-- At `if (timerId)`. -/
  | testing
  /-- At `std::exchange(timerId, InvalidTimerId)`. -/
  | exchanging
  /-- Inside `backend->Cancel(id)`. -/
  | cancelling (id : TimerId)
  /-- At the compare-exchange of `TryEnqueue(StopWon)`. -/
  | swapping
  /-- At `scheduler->Enqueue(this)`. -/
  | enqueuing
  | returned
  /-- After `stopRegistration.reset()`. -/
  | deregistered
  deriving DecidableEq

/-- The stop callback is executing. -/
def StopPc.running : StopPc → Bool
  | .testing | .exchanging | .cancelling _ | .swapping | .enqueuing => true
  | .unregistered | .registered | .returned | .deregistered => false

/-- Where `Execute` is. -/
inductive ExecPc where
  | idle
  /-- At `stopToken.stop_requested()`. -/
  | loading
  /-- At the call of the completion it chose. -/
  | signalling (signal : Signal) (stopSeen : Bool)
  deriving DecidableEq

/-- Where `~TimedOperation` is. -/
inductive DtorPc where
  | idle
  /-- At `stopRegistration.reset()`. -/
  | resetting
  /-- At `if (timerId)`. -/
  | testing
  /-- At the read of `timerId` for the argument of `Cancel`. -/
  | reading
  /-- Inside `backend->Cancel(id)`. -/
  | cancelling (id : TimerId)
  | finished
  deriving DecidableEq

/-- An operation: its fields, and where the functions that touch it are.
`issuedId` is the id `ScheduleAt` returned, which no function reads. -/
structure TimedOperation (σ : Type) where
  deadline : TimePoint
  stopToken : σ
  state : OpState := .pending
  timerId : TimerId := InvalidTimerId
  completions : List Completion := []
  startPc : StartPc := .idle
  timerPc : TimerPc := .idle
  stopPc : StopPc := .unregistered
  execPc : ExecPc := .idle
  dtorPc : DtorPc := .idle
  issuedId : TimerId := InvalidTimerId

/-- Whether a compare-exchange from `Pending` succeeds. On a destroyed operation
it reads freed storage, which may hold anything. -/
def TimedOperation.readsPending {σ : Type} (o : TimedOperation σ) (freed : Bool) : Bool :=
  if o.dtorPc = .finished then freed else o.state = .pending

/-- The operations, the loop context's queue, the stop sources, the backend and
the clock. -/
structure TimedLoop (ι σ : Type) (B : ITimerBackend ι) where
  now : TimePoint
  backend : B.State
  stopRequested : σ → Bool
  queue : List ι
  ops : ι → TimedOperation σ

/-- The atomic steps. -/
inductive TimedAction (ι σ : Type) (B : ITimerBackend ι) where
  /-- The next step of `start()`. -/
  | start (i : ι)
  /-- The next step of the timer callback; `freed` is what its compare-exchange
  finds if the operation is destroyed. -/
  | timer (i : ι) (freed : Bool)
  /-- The next step of the stop callback. -/
  | stop (i : ι)
  /-- `DrainQueue` dequeues the operation. -/
  | dequeue (i : ι)
  /-- The next step of `Execute`. -/
  | execute (i : ι)
  /-- The next step of the destructor. -/
  | destroy (i : ι)
  /-- `request_stop()` sets the flag of a stop source. -/
  | requestStop (token : σ)
  /-- Time passes. -/
  | clock (now : TimePoint)
  /-- A step of the backend's own thread. -/
  | backend (a : B.Internal)
  /-- The backend enters the callback of an id. -/
  | fire (id : TimerId)
  /-- The callback of an id returns to the backend. -/
  | done (id : TimerId)

namespace TimedLoop

variable {ι σ : Type} [DecidableEq ι] {B : ITimerBackend ι}

/-- The operation `i` is replaced. -/
def setOp (s : TimedLoop ι σ B) (i : ι) (o : TimedOperation σ) : TimedLoop ι σ B :=
  { s with ops := Function.update s.ops i o }

/-- `PureLoopContext::Enqueue`. -/
def enqueue (s : TimedLoop ι σ B) (i : ι) : TimedLoop ι σ B :=
  { s with queue := s.queue ++ [i] }

/-- `start()`. A stop callback registered after the stop was requested runs at
once, inside the registration. -/
def start (s : TimedLoop ι σ B) (i : ι) : Option (TimedLoop ι σ B) :=
  let o := s.ops i
  match o.startPc with
  | .idle =>
    if s.stopRequested o.stopToken then
      some (s.setOp i { o with startPc := .emplacing, stopPc := .testing })
    else some (s.setOp i { o with startPc := .loading, stopPc := .registered })
  | .emplacing =>
    if o.stopPc = .returned then some (s.setOp i { o with startPc := .loading }) else none
  | .loading =>
    some (s.setOp i { o with startPc := if o.state = .pending then .scheduling else .returned })
  | .scheduling =>
    (B.scheduleAt s.backend o.deadline i).map fun (id, b) =>
      { s with backend := b }.setOp i { o with startPc := .assigning id, issuedId := id }
  | .assigning id => some (s.setOp i { o with timerId := id, startPc := .returned })
  | .returned => none

/-- The callback `start()` passes to `ScheduleAt`. -/
def timer (s : TimedLoop ι σ B) (i : ι) (freed : Bool) : Option (TimedLoop ι σ B) :=
  let o := s.ops i
  match o.timerPc with
  | .clearing => some (s.setOp i { o with timerId := InvalidTimerId, timerPc := .swapping })
  | .swapping =>
    if o.readsPending freed then
      some (s.setOp i { o with state := .timerWon, timerPc := .enqueuing })
    else some (s.setOp i { o with timerPc := .returning })
  | .enqueuing => some ((s.enqueue i).setOp i { o with timerPc := .returning })
  | .idle | .returning | .returned => none

/-- `StopCallback`, which is `TryEnqueueStop()`. -/
def stop (s : TimedLoop ι σ B) (i : ι) : Option (TimedLoop ι σ B) :=
  let o := s.ops i
  match o.stopPc with
  | .registered =>
    if s.stopRequested o.stopToken then some (s.setOp i { o with stopPc := .testing }) else none
  | .testing =>
    some (s.setOp i
      { o with stopPc := if o.timerId = InvalidTimerId then .swapping else .exchanging })
  | .exchanging =>
    some (s.setOp i { o with stopPc := .cancelling o.timerId, timerId := InvalidTimerId })
  | .cancelling id =>
    (B.cancel s.backend id).map fun (_, b) =>
      { s with backend := b }.setOp i { o with stopPc := .swapping }
  | .swapping =>
    if o.state = .pending then some (s.setOp i { o with state := .stopWon, stopPc := .enqueuing })
    else some (s.setOp i { o with stopPc := .returned })
  | .enqueuing => some ((s.enqueue i).setOp i { o with stopPc := .returned })
  | .unregistered | .returned | .deregistered => none

/-- `try_dequeue` of `DrainQueue` finds the operation. -/
def dequeue (s : TimedLoop ι σ B) (i : ι) : Option (TimedLoop ι σ B) :=
  if i ∈ s.queue then
    some ({ s with queue := s.queue.erase i }.setOp i { s.ops i with execPc := .loading })
  else none

/-- `Execute`. -/
def execute (s : TimedLoop ι σ B) (i : ι) : Option (TimedLoop ι σ B) :=
  let o := s.ops i
  match o.execPc with
  | .idle => none
  | .loading =>
    let stop := s.stopRequested o.stopToken
    some (s.setOp i { o with execPc := .signalling (if stop then .setStopped else .setValue) stop })
  | .signalling signal stopSeen =>
    some (s.setOp i
      { o with execPc := .idle, completions := o.completions ++ [⟨signal, stopSeen, s.now⟩] })

/-- `~TimedOperation`. Destroying the stop registration blocks while its callback
is executing. -/
def destroy (s : TimedLoop ι σ B) (i : ι) : Option (TimedLoop ι σ B) :=
  let o := s.ops i
  match o.dtorPc with
  | .idle => some (s.setOp i { o with dtorPc := .resetting })
  | .resetting =>
    if o.stopPc.running then none
    else some (s.setOp i { o with stopPc := .deregistered, dtorPc := .testing })
  | .testing =>
    some (s.setOp i { o with dtorPc := if o.timerId = InvalidTimerId then .finished else .reading })
  | .reading => some (s.setOp i { o with dtorPc := .cancelling o.timerId })
  | .cancelling id =>
    (B.cancel s.backend id).map fun (_, b) =>
      { s with backend := b }.setOp i { o with dtorPc := .finished }
  | .finished => none

/-- The backend enters a callback. -/
def fire (s : TimedLoop ι σ B) (id : TimerId) : Option (TimedLoop ι σ B) :=
  (B.fire s.backend id).map fun (i, b) =>
    { s with backend := b }.setOp i { s.ops i with timerPc := .clearing }

/-- A callback returns to the backend. -/
def done (s : TimedLoop ι σ B) (id : TimerId) : Option (TimedLoop ι σ B) :=
  (B.done s.backend id).bind fun (i, b) =>
    if (s.ops i).timerPc = .returning then
      some ({ s with backend := b }.setOp i { s.ops i with timerPc := .returned })
    else none

def step [DecidableEq σ] (s : TimedLoop ι σ B) : TimedAction ι σ B → Option (TimedLoop ι σ B)
  | .start i => s.start i
  | .timer i freed => s.timer i freed
  | .stop i => s.stop i
  | .dequeue i => s.dequeue i
  | .execute i => s.execute i
  | .destroy i => s.destroy i
  | .requestStop token => some { s with stopRequested := Function.update s.stopRequested token true }
  | .clock now => if s.now ≤ now then some { s with now := now } else none
  | .backend a => (B.internal s.now s.backend a).map fun b => { s with backend := b }
  | .fire id => s.fire id
  | .done id => s.done id

/-- The lifetime of an operation: the loop thread destroys it after `start()`
returned and its completion was delivered. -/
def lifetime (s : TimedLoop ι σ B) : TimedAction ι σ B → Bool
  | .destroy i => (s.ops i).dtorPc ≠ .idle ∨
      (s.ops i).startPc = .returned ∧ (s.ops i).completions.isEmpty = false
  | _ => true

/-- Connected operations, none started. -/
def init (B : ITimerBackend ι) (now : TimePoint) (deadline : ι → TimePoint) (token : ι → σ) :
    TimedLoop ι σ B where
  now := now
  backend := B.init
  stopRequested := fun _ => false
  queue := []
  ops i := { deadline := deadline i, stopToken := token i }

/-- The system of the operations with the deadlines `deadline` and the stop
tokens `token`, from the time `now` on. -/
def lts [DecidableEq σ] (B : ITimerBackend ι) (now : TimePoint) (deadline : ι → TimePoint)
    (token : ι → σ) : Lts (TimedLoop ι σ B) (TimedAction ι σ B) where
  init := init B now deadline token
  step := step

end TimedLoop

end TX.Exec
