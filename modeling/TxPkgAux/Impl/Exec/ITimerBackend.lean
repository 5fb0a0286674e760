import Mathlib.Logic.Function.Basic
import Mathlib.Tactic.Common

/-!
# Timer backends

`ITimerBackend` (`pkg/exec/Exec/Delay/ITimerBackend.h`) as its callers see it:
each operation is one atomic step of the calling thread, `none` while the
caller is blocked. A callback is named by a value of `ι`; the backend runs it
from `fire` to `done`, and what it does in between are steps of its owner.

`Timers` is what a backend is for, in its own terms: which ids are scheduled,
which callbacks are executing, which ids were ever handed out.
`ITimerBackend.Contract` is the documented contract: the operations of the
backend are those of `Timers`, a callback fires only when it is due, and
`Cancel` of an id returns only while its callback is not executing.
-/

namespace TX.Exec

/-- `std::chrono::steady_clock::time_point`, in ticks of the clock. -/
abbrev TimePoint := Int

/-- `ITimerBackend::TimerId`. The counter behind it is 64 bits wide, so a
backend would have to hand out 2⁶⁴ ids before one is repeated. -/
abbrev TimerId := Nat

/-- `ITimerBackend::InvalidTimerId`. -/
def InvalidTimerId : TimerId := 0

/-- The operations of a timer backend. -/
structure ITimerBackend (ι : Type) where
  State : Type
  /-- The steps of the backend's own thread outside callbacks. -/
  Internal : Type
  init : State
  /-- `ScheduleAt(deadline, callback)`: the id handed out. -/
  scheduleAt : State → TimePoint → ι → Option (TimerId × State)
  /-- `Cancel(id)`, in the step it returns in. -/
  cancel : State → TimerId → Option (Bool × State)
  /-- A step of the backend's own thread, at the clock reading it makes. -/
  internal : TimePoint → State → Internal → Option State
  /-- The callback of `id` starts executing. -/
  fire : State → TimerId → Option (ι × State)
  /-- The callback of `id` has returned. -/
  done : State → TimerId → Option (ι × State)

/-- Timers in the abstract: `scheduled id d i` is a callback `i` due at `d` that
has neither fired nor been cancelled, `running id i` one that is executing, and
`issued id` an id that was handed out. -/
@[ext] structure Timers (ι : Type) where
  scheduled : TimerId → TimePoint → ι → Prop
  running : TimerId → ι → Prop
  issued : TimerId → Prop

namespace Timers

variable {ι : Type}

def empty : Timers ι := ⟨fun _ _ _ => False, fun _ _ => False, fun _ => False⟩

def schedule (v : Timers ι) (id : TimerId) (d : TimePoint) (i : ι) : Timers ι where
  scheduled id' d' i' := v.scheduled id' d' i' ∨ id' = id ∧ d' = d ∧ i' = i
  running := v.running
  issued id' := v.issued id' ∨ id' = id

def cancel (v : Timers ι) (id : TimerId) : Timers ι :=
  { v with scheduled := fun id' d' i' => v.scheduled id' d' i' ∧ id' ≠ id }

def fire (v : Timers ι) (id : TimerId) (i : ι) : Timers ι :=
  { v.cancel id with running := fun id' i' => v.running id' i' ∨ id' = id ∧ i' = i }

def done (v : Timers ι) (id : TimerId) : Timers ι :=
  { v with running := fun id' i' => v.running id' i' ∧ id' ≠ id }

@[simp] theorem schedule_scheduled (v : Timers ι) (id d i id' d' i') :
    (v.schedule id d i).scheduled id' d' i' ↔ v.scheduled id' d' i' ∨ id' = id ∧ d' = d ∧ i' = i :=
  Iff.rfl
@[simp] theorem schedule_running (v : Timers ι) (id d i) :
    (v.schedule id d i).running = v.running := rfl
@[simp] theorem schedule_issued (v : Timers ι) (id d i id') :
    (v.schedule id d i).issued id' ↔ v.issued id' ∨ id' = id := Iff.rfl
@[simp] theorem cancel_scheduled (v : Timers ι) (id id' d' i') :
    (v.cancel id).scheduled id' d' i' ↔ v.scheduled id' d' i' ∧ id' ≠ id := Iff.rfl
@[simp] theorem cancel_running (v : Timers ι) (id) : (v.cancel id).running = v.running := rfl
@[simp] theorem cancel_issued (v : Timers ι) (id) : (v.cancel id).issued = v.issued := rfl
@[simp] theorem fire_scheduled (v : Timers ι) (id i id' d' i') :
    (v.fire id i).scheduled id' d' i' ↔ v.scheduled id' d' i' ∧ id' ≠ id := Iff.rfl
@[simp] theorem fire_running (v : Timers ι) (id i id' i') :
    (v.fire id i).running id' i' ↔ v.running id' i' ∨ id' = id ∧ i' = i := Iff.rfl
@[simp] theorem fire_issued (v : Timers ι) (id i) : (v.fire id i).issued = v.issued := rfl
@[simp] theorem done_scheduled (v : Timers ι) (id) : (v.done id).scheduled = v.scheduled := rfl
@[simp] theorem done_running (v : Timers ι) (id id' i') :
    (v.done id).running id' i' ↔ v.running id' i' ∧ id' ≠ id := Iff.rfl
@[simp] theorem done_issued (v : Timers ι) (id) : (v.done id).issued = v.issued := rfl

end Timers

/-- The contract of `ITimerBackend`. `timers` is what a state of the backend
stands for; `Valid now` holds in the states reached by the time `now`. -/
structure ITimerBackend.Contract {ι : Type} (B : ITimerBackend ι) where
  Valid : TimePoint → B.State → Prop
  timers : B.State → Timers ι
  valid_init (now : TimePoint) : Valid now B.init
  valid_mono {now now' : TimePoint} {b : B.State} : now ≤ now' → Valid now b → Valid now' b
  timers_init : timers B.init = .empty
  /-- `ScheduleAt` hands out a new id. -/
  scheduleAt_ok {now d : TimePoint} {b b' : B.State} {i : ι} {id : TimerId} :
    Valid now b → B.scheduleAt b d i = some (id, b') →
      Valid now b' ∧ id ≠ InvalidTimerId ∧ ¬ (timers b).issued id ∧
        timers b' = (timers b).schedule id d i
  /-- `Cancel` blocks while the callback is executing, and tells whether it
  removed the callback before it fired. -/
  cancel_ok {now : TimePoint} {b b' : B.State} {id : TimerId} {r : Bool} :
    Valid now b → B.cancel b id = some (r, b') →
      Valid now b' ∧ (∀ i, ¬ (timers b).running id i) ∧
        (r = true ↔ ∃ d i, (timers b).scheduled id d i) ∧ timers b' = (timers b).cancel id
  internal_ok {now : TimePoint} {b b' : B.State} {a : B.Internal} :
    Valid now b → B.internal now b a = some b' → Valid now b' ∧ timers b' = timers b
  /-- A callback fires at or after its deadline. -/
  fire_ok {now : TimePoint} {b b' : B.State} {id : TimerId} {i : ι} :
    Valid now b → B.fire b id = some (i, b') →
      Valid now b' ∧ (∃ d ≤ now, (timers b).scheduled id d i) ∧ timers b' = (timers b).fire id i
  done_ok {now : TimePoint} {b b' : B.State} {id : TimerId} {i : ι} :
    Valid now b → B.done b id = some (i, b') →
      Valid now b' ∧ (timers b).running id i ∧ timers b' = (timers b).done id

end TX.Exec
