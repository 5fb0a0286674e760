import TxPkgAux.Impl.RunLoop.CompositeHandler

/-!
# The domains as handlers

`pkg/exec/Exec/Domain.cpp` and `pkg/asio/Asio/AsioDomain.cpp`: the handlers that host a sender
or a coroutine, and what they make of its completion. What is hosted may complete inside any
function of its domain, depending on a state that all that is hosted shares. It completes by
an error nowhere: both domains terminate the process then.
-/

namespace TX.RunLoop

variable {ι σ R : Type}

/-- How a sender completes. -/
inductive Completion where
  /-- `set_value(exitCode)`. -/
  | value (exitCode : Int)
  /-- `set_stopped()`. -/
  | stopped

/-- The function of the domain inside which something hosted goes on. -/
inductive DomainFn where
  | start | update | stop

/-- What is hosted: if and how the sender of an `Exec::Domain`, or the coroutine of an
`AsioDomain`, completes inside a function of its domain. -/
structure Hosted (ι σ : Type) where
  sender : DomainFn → ι → σ → Option Completion × σ
  coroutine : DomainFn → ι → σ → Option Int × σ

/-- The domains, and the state of what they host. `cancelled` is `AsioDomain::_cancelled`. -/
structure Domains (ι σ : Type) where
  cancelled : ι → Bool := fun _ => false
  hosted : σ

/-- A leaf: an `Exec::Domain` or an `AsioDomain`. -/
inductive DomainLeaf (ι : Type) where
  | domain (i : ι)
  | asioDomain (i : ι)

section Runner

variable [IRunner R]

/-- `runner->Exit(exitCode)`. -/
def World.exit (w : World R (Domains ι σ)) (exitCode : Int) : World R (Domains ι σ) :=
  { w with runner := IRunner.exit w.runner exitCode }

/-- The hosted state moves on. -/
def World.withHosted (w : World R (Domains ι σ)) (s : σ) : World R (Domains ι σ) :=
  { w with state := { w.state with hosted := s } }

namespace Domain

/-- `Domain::Completed`. -/
def completed (w : World R (Domains ι σ)) (exitCode : Int) : World R (Domains ι σ) := w.exit exitCode

/-- `Domain::Stopped`. -/
def stopped (w : World R (Domains ι σ)) : World R (Domains ι σ) :=
  match IRunner.exiting w.runner with
  | none => w.exit ExitCode.Cancelled
  | some _ => w

/-- A function of the domain, inside which the sender may complete. -/
def run (host : Hosted ι σ) (fn : DomainFn) (i : ι) (w : World R (Domains ι σ)) : World R (Domains ι σ) :=
  match host.sender fn i w.state.hosted with
  | (none, s) => w.withHosted s
  | (some (.value exitCode), s) => completed (w.withHosted s) exitCode
  | (some .stopped, s) => stopped (w.withHosted s)

def handler (host : Hosted ι σ) (i : ι) : Handler (World R (Domains ι σ)) where
  start w := (true, run host .start i w)
  update := run host .update i
  stop := run host .stop i

end Domain

namespace AsioDomain

variable [DecidableEq ι]

/-- `AsioDomain::Completed`. -/
def completed (i : ι) (w : World R (Domains ι σ)) (exitCode : Int) : World R (Domains ι σ) :=
  match IRunner.exiting w.runner with
  | none => w.exit (if w.state.cancelled i then ExitCode.Cancelled else exitCode)
  | some _ => w

def run (host : Hosted ι σ) (fn : DomainFn) (i : ι) (w : World R (Domains ι σ)) : World R (Domains ι σ) :=
  match host.coroutine fn i w.state.hosted with
  | (none, s) => w.withHosted s
  | (some exitCode, s) => completed i (w.withHosted s) exitCode

/-- `_cancelled` is set before the cancellation signal is emitted. -/
def stop (host : Hosted ι σ) (i : ι) (w : World R (Domains ι σ)) : World R (Domains ι σ) :=
  run host .stop i
    { w with state := { w.state with cancelled := Function.update w.state.cancelled i true } }

def handler (host : Hosted ι σ) (i : ι) : Handler (World R (Domains ι σ)) where
  start w := (true, run host .start i w)
  update := run host .update i
  stop := stop host i

end AsioDomain

def DomainLeaf.handler [DecidableEq ι] (host : Hosted ι σ) : DomainLeaf ι → Handler (World R (Domains ι σ))
  | .domain i => Domain.handler host i
  | .asioDomain i => AsioDomain.handler host i

end Runner

end TX.RunLoop
