import Mathlib.Algebra.Order.Group.Int

/-!
# `UpdateCtx`

`pkg/runloop/RunLoop/UpdateCtx.{h,cpp}`: the times that a runner passes to `Update`. Each
function takes the reading of the clock that it makes. The clock is
`std::chrono::high_resolution_clock`, which counts nanoseconds.
-/

namespace TX.RunLoop

namespace UpdateCtx

/-- `Clock::time_point`, in nanoseconds. -/
abbrev TimePoint := Int

/-- `Clock::duration`, in nanoseconds. -/
abbrev Duration := Int

/-- `std::chrono::duration_cast<std::chrono::microseconds>`, which truncates. -/
def toMicroseconds (d : Duration) : Int := d.tdiv 1000

/-- `std::chrono::duration<float>(d).count()`. -/
def toSeconds (d : Duration) : Float32 := Float32.ofInt d / 1000000000

/-- `UpdateCtx::Frame`. -/
structure Frame where
  index : UInt64 := 0
  startTime : TimePoint := 0
  delta : Duration := 0
  deltaUs : Int := 0
  deltaSeconds : Float32 := 0

/-- `UpdateCtx::Session`. -/
structure Session where
  startTime : TimePoint := 0
  passed : Duration := 0
  passedUs : Int := 0
  passedSeconds : Float32 := 0

end UpdateCtx

structure UpdateCtx where
  frame : UpdateCtx.Frame := {}
  session : UpdateCtx.Session := {}

namespace UpdateCtx

/-- `Initialize()`, at the clock reading `now`. -/
def initializeAt (_ : UpdateCtx) (now : TimePoint) : UpdateCtx where
  session := { startTime := now, passed := 0, passedUs := 0, passedSeconds := 0 }
  frame := { startTime := now, index := 0, delta := 0, deltaUs := 0, deltaSeconds := 0 }

/-- `Tick()`, at the clock reading `startTime`. -/
def tick (c : UpdateCtx) (startTime : TimePoint) : UpdateCtx :=
  let passed := startTime - c.session.startTime
  let delta := startTime - c.frame.startTime
  { session := { c.session with passed := passed, passedSeconds := toSeconds passed }
    frame := {
      delta := delta
      deltaUs := toMicroseconds delta
      deltaSeconds := toSeconds delta
      index := c.frame.index + 1
      startTime := startTime } }

/-- `Tick()` at each of the readings. -/
def ticks (c : UpdateCtx) : List TimePoint → UpdateCtx
  | [] => c
  | t :: ts => (c.tick t).ticks ts

/-- `frame.delta` after each of the ticks. -/
def deltas (c : UpdateCtx) : List TimePoint → List Duration
  | [] => []
  | t :: ts => (c.tick t).frame.delta :: (c.tick t).deltas ts

end UpdateCtx

end TX.RunLoop
