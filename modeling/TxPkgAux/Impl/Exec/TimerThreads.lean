import TxPkgAux.Framework.Lts
import TxPkgAux.Impl.Exec.ThreadTimerBackend

/-!
# `ThreadTimerBackend` and its threads

`pkg/exec/Exec/Delay/ThreadTimerBackend.{h,cpp}` in finer steps than `ThreadTimerBackend.lean`
takes them: the calls of `ScheduleAt` and `Cancel` in progress, on other threads (`τ` names
them) and on the timer thread inside a callback, the two condition variables, and the
destructor. A critical section of a caller is one step. The timer thread is stepped
statement by statement; it parks on `_cv` in a step that releases `_mutex`.

A parked thread may wake up at any time, and `_cv.wait_until` may time out early. What it
may not do is to count on that: a thread that is parked and was not notified is said to be
so.
-/

namespace TX.Exec

open Function (update)

/-- Where `RunTimerThread` is. -/
inductive RunPc (ι : Type) where
  /-- Before the `unique_lock`. -/
  | starting
  /-- At `_stopping.load()` of the outer loop. -/
  | top
  /-- At `_queue.empty()`. -/
  | testQueue
  /-- In `_cv.wait`, at the predicate. -/
  | waitPred
  /-- In `_cv.wait`: the predicate was false, and the thread is to park. -/
  | waitPark
  /-- Parked in `_cv.wait`. -/
  | waitParked
  /-- In `_cv.wait`, woken and to take the mutex again. -/
  | waitWoken
  /-- In `_cv.wait_until`, and to park. -/
  | untilPark (deadline : TimePoint)
  /-- Parked in `_cv.wait_until`. -/
  | untilParked (deadline : TimePoint)
  /-- In `_cv.wait_until`, woken or timed out and to take the mutex again. -/
  | untilWoken (deadline : TimePoint) (timeout : Bool)
  /-- At the test of the inner loop. -/
  | inner
  /-- `entry` was popped, before the test of `_active.erase`. -/
  | popped (entry : Entry ι)
  /-- `entry` was erased from `_active`, before `_inflightId = entry.id`. -/
  | erased (entry : Entry ι)
  /-- Executing `entry.callback()`. -/
  | running (entry : Entry ι)
  /-- `entry.callback()` returned, before `lock.lock()`. -/
  | returned (entry : Entry ι)
  | exited

namespace RunPc

variable {ι : Type}

/-- Whether the timer thread holds `_mutex`. -/
def holdsMutex : RunPc ι → Bool
  | .top | .testQueue | .waitPred | .waitPark | .untilPark _ | .inner | .popped _ | .erased _ => true
  | .starting | .waitParked | .waitWoken | .untilParked _ | .untilWoken _ _ | .running _
  | .returned _ | .exited => false

/-- Parked on `_cv`, without a notification. -/
def parked : RunPc ι → Bool
  | .waitParked | .untilParked _ => true
  | _ => false

/-- A notification of `_cv`. -/
def notified : RunPc ι → RunPc ι
  | .waitParked => .waitWoken
  | .untilParked deadline => .untilWoken deadline false
  | pc => pc

end RunPc

/-- A call of `ScheduleAt` or `Cancel` in progress. -/
inductive TimerCall (ι : Type) where
  /-- `ScheduleAt`, at its `lock_guard`, with the id it drew. -/
  | scheduling (id : TimerId) (deadline : TimePoint) (callback : ι)
  /-- `ScheduleAt`, at `_cv.notify_one()`. -/
  | notifying (id : TimerId)
  /-- `Cancel`, to take the mutex. -/
  | cancelling (id : TimerId)
  /-- `Cancel`, parked in `_doneCv.wait`. -/
  | blocked (id : TimerId)

/-- Who calls: a thread other than the timer thread, or the callback it executes. -/
inductive Caller (τ : Type) where
  | thread (t : τ)
  | callback
  deriving DecidableEq

inductive TimerEvent where
  /-- `ScheduleAt` stored the entry of the id that it returns. -/
  | scheduled (id : TimerId)
  /-- `Cancel` of the id returns. -/
  | cancelled (id : TimerId) (r : Bool)
  /-- The callback of the id starts. -/
  | started (id : TimerId)
  deriving DecidableEq

/-- The backend with its threads. `notifiedAll` tells whether the destructor's
`_cv.notify_all()` is done, `now` is the reading of the clock. `log` is newest first. -/
structure TimerThreads (τ ι : Type) where
  queue : List (Entry ι) := []
  active : Finset TimerId := ∅
  inflightId : TimerId := InvalidTimerId
  stopping : Bool := false
  nextId : TimerId := 1
  pc : RunPc ι := .starting
  calls : Caller τ → Option (TimerCall ι) := fun _ => none
  notifiedAll : Bool := false
  now : TimePoint := 0
  log : List TimerEvent := []

inductive TimerThreadsAction (τ ι : Type) where
  /-- `ScheduleAt` is called, and draws its id. -/
  | scheduleAt (c : Caller τ) (deadline : TimePoint) (callback : ι)
  /-- `Cancel` is called. -/
  | cancel (c : Caller τ) (id : TimerId)
  /-- The next step of a call. -/
  | call (c : Caller τ)
  /-- A `Cancel` parked in `_doneCv.wait` wakes up. -/
  | wake (c : Caller τ)
  /-- The next step of the timer thread; `k` is the place in the queue of its top. -/
  | next (k : Nat)
  /-- The timer thread parked on `_cv` wakes up, or times out. -/
  | wakeUp (timeout : Bool)
  /-- Time passes. -/
  | clock (d : Nat)
  /-- The destructor's `_stopping.store(true)`. -/
  | store
  /-- The destructor's `_cv.notify_all()`. -/
  | notifyAll

namespace TimerThreads

variable {τ ι : Type} [DecidableEq τ]

def setCall (s : TimerThreads τ ι) (c : Caller τ) (call : Option (TimerCall ι)) : TimerThreads τ ι :=
  { s with calls := update s.calls c call }

def emit (s : TimerThreads τ ι) (e : TimerEvent) : TimerThreads τ ι := { s with log := e :: s.log }

/-- The caller is in no call; a callback calls while it is executed. -/
def mayCall (s : TimerThreads τ ι) (c : Caller τ) : Bool :=
  (s.calls c).isNone && match c, s.pc with
    | .thread _, _ | .callback, .running _ => true
    | .callback, _ => false

/-- The top of the queue, at place `k`: an entry with a smallest deadline. -/
def top? (s : TimerThreads τ ι) (k : Nat) : Option (Entry ι) :=
  s.queue[k]?.filter fun e => s.queue.all fun e' => decide (e.deadline ≤ e'.deadline)

/-- The next step of a call. -/
def callNext (s : TimerThreads τ ι) (c : Caller τ) : Option (TimerThreads τ ι) :=
  match s.calls c with
  | some (.scheduling id deadline callback) =>
    if s.pc.holdsMutex then none
    else some (({ s with
      active := insert id s.active
      queue := ⟨deadline, id, callback⟩ :: s.queue }.setCall c (some (.notifying id))).emit (.scheduled id))
  | some (.notifying _) => some { s.setCall c none with pc := s.pc.notified }
  | some (.cancelling id) =>
    if s.pc.holdsMutex then none
    else if s.inflightId = id then some (s.setCall c (some (.blocked id)))
    else some (({ s with active := s.active.erase id }.setCall c none).emit
      (.cancelled id (decide (id ∈ s.active))))
  | some (.blocked _) | none => none

/-- `_doneCv.notify_all()`. -/
def unblock : Option (TimerCall ι) → Option (TimerCall ι)
  | some (.blocked id) => some (.cancelling id)
  | call => call

/-- The next step of the timer thread. -/
def next (s : TimerThreads τ ι) (k : Nat) : Option (TimerThreads τ ι) :=
  match s.pc with
  | .starting => some { s with pc := .top }
  | .top => some { s with pc := if s.stopping then .exited else .testQueue }
  | .testQueue =>
    if s.queue.isEmpty then some { s with pc := .waitPred }
    else (s.top? k).map fun e => { s with pc := .untilPark e.deadline }
  | .waitPred =>
    some { s with pc := if !s.queue.isEmpty || s.stopping then .top else .waitPark }
  | .waitPark => some { s with pc := .waitParked }
  | .waitWoken => some { s with pc := .waitPred }
  | .untilPark deadline => some { s with pc := .untilParked deadline }
  | .untilWoken deadline timeout =>
    some { s with pc := if timeout ∨ deadline ≤ s.now then .inner else .top }
  | .inner =>
    if s.queue.isEmpty then some { s with pc := .top }
    else (s.top? k).map fun e =>
      if e.deadline ≤ s.now then { s with queue := s.queue.eraseIdx k, pc := .popped e }
      else { s with pc := .top }
  | .popped e =>
    some (if e.id ∈ s.active then { s with active := s.active.erase e.id, pc := .erased e }
      else { s with pc := .inner })
  | .erased e => some ({ s with inflightId := e.id, pc := .running e }.emit (.started e.id))
  | .running e =>
    if (s.calls .callback).isNone then some { s with pc := .returned e } else none
  | .returned _ =>
    some { s with
      inflightId := InvalidTimerId
      calls := fun c => unblock (s.calls c)
      pc := .inner }
  | .waitParked | .untilParked _ | .exited => none

def step (s : TimerThreads τ ι) : TimerThreadsAction τ ι → Option (TimerThreads τ ι)
  | .scheduleAt c deadline callback =>
    if s.mayCall c then
      some ({ s with nextId := s.nextId + 1 }.setCall c (some (.scheduling s.nextId deadline callback)))
    else none
  | .cancel c id => if s.mayCall c then some (s.setCall c (some (.cancelling id))) else none
  | .call c => s.callNext c
  | .wake c =>
    match s.calls c with
    | some (.blocked id) => some (s.setCall c (some (.cancelling id)))
    | _ => none
  | .next k => s.next k
  | .wakeUp timeout =>
    match s.pc with
    | .waitParked => some { s with pc := .waitWoken }
    | .untilParked deadline => some { s with pc := .untilWoken deadline timeout }
    | _ => none
  | .clock d => some { s with now := s.now + d }
  | .store => some { s with stopping := true }
  | .notifyAll => if s.stopping then some { s with pc := s.pc.notified, notifiedAll := true } else none

/-- A backend that was constructed. -/
def lts (τ ι : Type) [DecidableEq τ] : Lts (TimerThreads τ ι) (TimerThreadsAction τ ι) where
  init := {}
  step := step

end TimerThreads

end TX.Exec
