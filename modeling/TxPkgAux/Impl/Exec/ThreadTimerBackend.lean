import TxPkgAux.Impl.Exec.ITimerBackend
import Mathlib.Data.Finset.Erase
import Mathlib.Data.Finset.Insert

/-!
# `ThreadTimerBackend`

`pkg/exec/Exec/Delay/ThreadTimerBackend.{h,cpp}`. Each critical section of a
caller is one step, enabled while the timer thread does not hold `_mutex`. The
timer thread is stepped statement by statement (`ThreadPc`), so that a caller
sees `_active` and `_inflightId` only where the source lets it.

`ScheduleAt` draws its id in the step of its critical section: the source draws
it just before, but nothing else reads `_nextId`. The two condition variables
are not modelled: a parked thread may wake up at any time, as the standard
allows it to.
-/

namespace TX.Exec

/-- `ThreadTimerBackend::Entry`. -/
structure Entry (ι : Type) where
  deadline : TimePoint
  id : TimerId
  callback : ι

/-- Where `RunTimerThread` is. -/
inductive ThreadPc (ι : Type) where
  /-- Before the `unique_lock`. -/
  | starting
  /-- At the test of the outer loop. -/
  | top
  /-- Parked in `_cv.wait`: the queue was empty. -/
  | idle
  /-- Parked in `_cv.wait_until(deadline)`. -/
  | sleep (deadline : TimePoint)
  /-- At the test of the inner loop. -/
  | inner
  /-- `entry` was popped, before the test of `_active.erase`. -/
  | popped (entry : Entry ι)
  /-- `entry` was erased from `_active`, before `_inflightId = entry.id`. -/
  | erased (entry : Entry ι)
  /-- Executing `entry.callback()`. -/
  | running (entry : Entry ι)
  | exited

/-- Whether the timer thread holds `_mutex`. -/
def ThreadPc.holdsMutex {ι : Type} : ThreadPc ι → Bool
  | .top | .inner | .popped _ | .erased _ => true
  | .starting | .idle | .sleep _ | .running _ | .exited => false

structure ThreadTimerBackend (ι : Type) where
  queue : List (Entry ι) := []
  active : Finset TimerId := ∅
  inflightId : TimerId := InvalidTimerId
  stopping : Bool := false
  nextId : TimerId := 1
  thread : ThreadPc ι := .starting

namespace ThreadTimerBackend

variable {ι : Type}

def scheduleAt (b : ThreadTimerBackend ι) (deadline : TimePoint) (callback : ι) :
    Option (TimerId × ThreadTimerBackend ι) :=
  if b.thread.holdsMutex then none
  else some (b.nextId, { b with
    nextId := b.nextId + 1
    active := insert b.nextId b.active
    queue := ⟨deadline, b.nextId, callback⟩ :: b.queue })

/-- `Cancel(id)`: it waits on `_doneCv` while `_inflightId` is `id`. -/
def cancel (b : ThreadTimerBackend ι) (id : TimerId) : Option (Bool × ThreadTimerBackend ι) :=
  if b.thread.holdsMutex ∨ b.inflightId = id then none
  else some (decide (id ∈ b.active), { b with active := b.active.erase id })

/-- The steps of the timer thread outside callbacks. -/
inductive Internal where
  /-- It takes `_mutex` for the first time. -/
  | lock
  /-- The test of the outer loop; `k` is the place in the queue of its top. -/
  | test (k : Nat)
  /-- `_cv.wait` returns. -/
  | wake
  /-- `_cv.wait_until` returns, with `cv_status::timeout` or not. -/
  | wakeUntil (timeout : Bool)
  /-- The test of the inner loop and, where it holds, `_queue.pop()`. -/
  | pop (k : Nat)
  /-- The test of `_active.erase(entry.id)`. -/
  | erase

/-- The top of the queue, at place `k`: an entry with a smallest deadline. -/
def top? (b : ThreadTimerBackend ι) (k : Nat) : Option (Entry ι) :=
  b.queue[k]?.filter fun e => b.queue.all fun e' => decide (e.deadline ≤ e'.deadline)

def internal (now : TimePoint) (b : ThreadTimerBackend ι) (a : Internal) :
    Option (ThreadTimerBackend ι) :=
  match b.thread, a with
  | .starting, .lock => some { b with thread := .top }
  | .top, .test k =>
    if b.stopping then some { b with thread := .exited }
    else if b.queue.isEmpty then some { b with thread := .idle }
    else (b.top? k).map fun e => { b with thread := .sleep e.deadline }
  | .idle, .wake =>
    if b.queue.isEmpty ∧ b.stopping = false then none else some { b with thread := .top }
  | .sleep deadline, .wakeUntil timeout =>
    some { b with thread := if timeout ∨ deadline ≤ now then .inner else .top }
  | .inner, .pop k =>
    if b.queue.isEmpty then some { b with thread := .top }
    else (b.top? k).map fun e =>
      if e.deadline ≤ now then { b with queue := b.queue.eraseIdx k, thread := .popped e }
      else { b with thread := .top }
  | .popped e, .erase =>
    some (if e.id ∈ b.active then { b with active := b.active.erase e.id, thread := .erased e }
      else { b with thread := .inner })
  | _, _ => none

/-- `_inflightId = entry.id`, the mutex released, the callback entered. -/
def fire (b : ThreadTimerBackend ι) (id : TimerId) : Option (ι × ThreadTimerBackend ι) :=
  match b.thread with
  | .erased e =>
    if e.id = id then some (e.callback, { b with inflightId := e.id, thread := .running e }) else none
  | _ => none

/-- The callback has returned: the mutex taken again, `_inflightId` cleared. -/
def done (b : ThreadTimerBackend ι) (id : TimerId) : Option (ι × ThreadTimerBackend ι) :=
  match b.thread with
  | .running e =>
    if e.id = id then
      some (e.callback, { b with inflightId := InvalidTimerId, thread := .inner })
    else none
  | _ => none

end ThreadTimerBackend

/-- `ThreadTimerBackend` behind the interface. -/
def threadTimerBackend (ι : Type) : ITimerBackend ι where
  State := ThreadTimerBackend ι
  Internal := ThreadTimerBackend.Internal
  init := {}
  scheduleAt := ThreadTimerBackend.scheduleAt
  cancel := ThreadTimerBackend.cancel
  internal := ThreadTimerBackend.internal
  fire := ThreadTimerBackend.fire
  done := ThreadTimerBackend.done

end TX.Exec
