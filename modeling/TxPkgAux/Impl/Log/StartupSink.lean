import TxPkgAux.Framework.CallHistory
import TxPkgAux.Framework.Lts
import Mathlib.Data.List.Basic

/-!
# `StartupSink` and `AddSink`

`pkg/log/Log/StartupSink.h` and `Log::Detail::AddSink` of `pkg/log/Log/Sink.cpp`, on the default
logger of spdlog. A logging call reads the logger's sinks when it begins, and passes them one
after the other, each under the mutex of the sink: every sink it passes is a step, and so is its
return. `AddSink` is the steps between which it holds no mutex. Any thread may log at any time.

A sink is numbered, but for the startup sink. Levels are not modelled: the logger and its sinks
admit every message (`DefaultSpdlogLevel` is `trace`, and so is the level of a new sink).
-/

namespace TX.Log

inductive Sink where
  | startup
  | target (id : ℕ)
deriving DecidableEq

/-- The next step of `AddSink`. -/
inductive AddSinkPc where
  | idle
  | replayTo
  | clearBuffer
  | emplaceBack
  | done
deriving DecidableEq

/-- A logging call that has the sinks `rest` to pass. -/
structure LogCall (M : Type) where
  msg : Stamped M
  rest : List Sink

/-- `buffer` is the `_buffer` of the startup sink, `received` what `log` of the other sinks was
called with. `buffered` records what the buffer holds when `AddSink` begins, and `early` how many
messages are logged before it returns. -/
structure Logger (M : Type) where
  sinks : List Sink
  buffer : List (Stamped M) := []
  received : ℕ → List (Stamped M) := fun _ => []
  calls : ℕ → Option (LogCall M) := fun _ => none
  pc : AddSinkPc := .idle
  history : CallHistory M := {}
  buffered : List (Stamped M) := []
  early : ℕ := 0

inductive LogAction (M : Type) where
  /-- Thread `t` calls `log`. -/
  | log (t : ℕ) (msg : M)
  /-- Its call passes the next sink, or returns. -/
  | pass (t : ℕ)
  | addSink

/-- `maxBufferSize` of the startup sink where no other is given. -/
def DefaultMaxBufferSize : ℕ := 1000

namespace StartupSink

variable {α : Type*}

/-- `sink_it_`. -/
def sinkIt (maxBufferSize : ℕ) (buffer : List α) (msg : α) : List α :=
  (if buffer.length ≥ maxBufferSize then buffer.tail else buffer) ++ [msg]

/-- `ReplayTo`: what the target sink has received after it. -/
def replayTo (buffer received : List α) : List α := received ++ buffer

/-- `ClearBuffer`. -/
def clearBuffer (_ : List α) : List α := []

end StartupSink

namespace Logger

variable {M : Type}

def setCall (s : Logger M) (t : ℕ) (c : Option (LogCall M)) : Logger M :=
  { s with calls := Function.update s.calls t c }

/-- `sink->log(msg)` of a sink that is not the startup sink. -/
def receive (s : Logger M) (id : ℕ) (msgs : List (Stamped M)) : Logger M :=
  { s with received := Function.update s.received id msgs }

/-- `logger->log(msg)`: the call reads the sinks. -/
def log (s : Logger M) (t : ℕ) (msg : M) : Logger M :=
  let early := if s.pc = .done then s.early else s.early + 1
  { s with history := s.history.call msg, early }.setCall t (some ⟨s.history.next msg, s.sinks⟩)

/-- The next sink of a call. -/
def pass (maxBufferSize : ℕ) (s : Logger M) (t : ℕ) (c : LogCall M) : Logger M :=
  match c.rest with
  | [] => { s with history := s.history.ret c.msg }.setCall t none
  | .startup :: rest =>
    { s with buffer := StartupSink.sinkIt maxBufferSize s.buffer c.msg }.setCall t
      (some { c with rest })
  | .target id :: rest =>
    (s.receive id (s.received id ++ [c.msg])).setCall t (some { c with rest })

/-- The next step of `AddSink(k)`. -/
def addSink (k : ℕ) (s : Logger M) : Option (Logger M) :=
  match s.pc with
  | .idle => some { s with pc := .replayTo, buffered := s.buffer }
  | .replayTo =>
    some { s.receive k (StartupSink.replayTo s.buffer (s.received k)) with pc := .clearBuffer }
  | .clearBuffer => some { s with buffer := StartupSink.clearBuffer s.buffer, pc := .emplaceBack }
  | .emplaceBack => some { s with sinks := s.sinks ++ [.target k], pc := .done }
  | .done => none

def step (maxBufferSize k : ℕ) (s : Logger M) : LogAction M → Option (Logger M)
  | .log t msg =>
    match s.calls t with
    | none => some (s.log t msg)
    | some _ => none
  | .pass t => (s.calls t).map (s.pass maxBufferSize t)
  | .addSink => s.addSink k

/-- The logger with the sinks `before` when `InitLogger` added the startup sink, and the sinks
`after` that were added since: nothing is buffered, and `AddSink(k)` will be called once. -/
def lts (M : Type) (maxBufferSize k : ℕ) (before after : List ℕ) : Lts (Logger M) (LogAction M) where
  init := { sinks := before.map .target ++ .startup :: after.map .target }
  step := step maxBufferSize k

end Logger

end TX.Log
