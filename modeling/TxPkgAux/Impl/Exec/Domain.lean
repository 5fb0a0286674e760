import TxPkgAux.Impl.Exec.ThreadTimerBackend
import TxPkgAux.Impl.Exec.TimedOperation

/-!
# `Domain`

`pkg/exec/Exec/Domain.cpp`: the timed operations of a domain, whose receivers all
carry its stop token, with the loop thread made explicit. The loop thread runs one
function at a time (`current`): it starts operations, executes those it dequeues
and destroys them, in `Update()` or in the code that a completion resumes, and it
runs `Stop()`, whose statements are the phases. The timer thread and the clock run
on their own.

`Tick()` does nothing on a `ThreadTimerBackend`. An operation that was never
started has nothing registered, so its destructor is left out.
-/

namespace TX.Exec

/-- The functions on an operation that the loop thread runs. -/
inductive LoopFn where
  | start | stop | execute | destroy
  deriving DecidableEq

/-- Where `Domain::Stop()` is. -/
inductive Phase where
  /-- Not called. -/
  | running
  /-- In `_stopSource.request_stop()`, which runs the registered callbacks. -/
  | notifying
  /-- In `_scheduler.DrainQueue()`. -/
  | draining
  /-- In `_opState.reset()`, or returned. -/
  | resetting
  deriving DecidableEq

structure Domain (ι : Type) where
  loop : TimedLoop ι Unit (threadTimerBackend ι)
  phase : Phase := .running
  current : Option (LoopFn × ι) := none
  started : List ι := []

inductive DomainAction (ι : Type) where
  /-- A step of an operation, the timer thread or the clock. -/
  | op (a : TimedAction ι Unit (threadTimerBackend ι))
  /-- `Stop()` is called and sets the stop flag. -/
  | stop
  /-- `request_stop()` returns: no callback is left to run. -/
  | notified
  /-- `try_dequeue` finds the queue empty: `DrainQueue()` returns. -/
  | drained

namespace Domain

variable {ι : Type} [DecidableEq ι]

/-- Which steps may be taken. The loop thread goes on with the function it is in;
`start()` runs the stop callback inside the registration. It is free for a next
one otherwise: while it drains it starts operations and destroys completed ones,
and `reset()` destroys all that were started. -/
def may (d : Domain ι) : TimedAction ι Unit (threadTimerBackend ι) → Bool
  | .start i => d.current = some (.start, i) ∨
      d.current = none ∧ (d.phase = .running ∨ d.phase = .draining) ∧ (d.loop.ops i).startPc = .idle
  | .stop i => d.current = some (.stop, i) ∨
      d.current = some (.start, i) ∧ (d.loop.ops i).startPc = .emplacing ∨
      d.current = none ∧ d.phase = .notifying ∧ (d.loop.ops i).stopPc = .registered
  | .dequeue _ => d.current = none ∧ (d.phase = .running ∨ d.phase = .draining)
  | .execute i => d.current = some (.execute, i)
  | .destroy i => d.current = some (.destroy, i) ∨
      d.current = none ∧ i ∈ d.started ∧ (d.loop.ops i).dtorPc = .idle ∧
        ((d.phase = .running ∨ d.phase = .draining) ∧ (d.loop.ops i).completions.isEmpty = false ∨
          d.phase = .resetting)
  | .requestStop _ => false
  | .timer _ _ | .clock _ | .backend _ | .fire _ | .done _ => true

/-- What the loop thread is in after the step. -/
def next (d : Domain ι) (loop : TimedLoop ι Unit (threadTimerBackend ι)) :
    TimedAction ι Unit (threadTimerBackend ι) → Option (LoopFn × ι)
  | .start i => if (loop.ops i).startPc = .returned then none else some (.start, i)
  | .stop i =>
    if d.current = some (.start, i) then d.current
    else if (loop.ops i).stopPc.running then some (.stop, i) else none
  | .dequeue i => some (.execute, i)
  | .execute i => if (loop.ops i).execPc = .idle then none else some (.execute, i)
  | .destroy i => if (loop.ops i).dtorPc = .finished then none else some (.destroy, i)
  | _ => d.current

/-- The operations whose `start()` was called. -/
def nextStarted (d : Domain ι) : TimedAction ι Unit (threadTimerBackend ι) → List ι
  | .start i => if (d.loop.ops i).startPc = .idle then i :: d.started else d.started
  | _ => d.started

def step (d : Domain ι) : DomainAction ι → Option (Domain ι)
  | .op a =>
    if d.may a then
      (d.loop.step a).map fun loop =>
        { d with loop := loop, current := d.next loop a, started := d.nextStarted a }
    else none
  | .stop =>
    if d.phase = .running ∧ d.current = none then
      (d.loop.step (.requestStop ())).map fun loop => { d with loop := loop, phase := .notifying }
    else none
  | .notified =>
    if d.phase = .notifying ∧ d.current = none ∧
        d.started.all (fun i => (d.loop.ops i).stopPc ≠ .registered) then
      some { d with phase := .draining }
    else none
  | .drained =>
    if d.phase = .draining ∧ d.current = none ∧ d.loop.queue.isEmpty then
      some { d with phase := .resetting }
    else none

/-- A domain with operations due at `deadline`, from the time `now` on. -/
def lts (now : TimePoint) (deadline : ι → TimePoint) : Lts (Domain ι) (DomainAction ι) where
  init := { loop := .init (threadTimerBackend ι) now deadline fun _ => () }
  step := step

end Domain

end TX.Exec
