import TxPkgAux.Framework.Loops
import TxPkgAux.Impl.Exec.TimedOperation

/-!
# `PureLoopContext::DrainQueue`

`pkg/exec/Exec/Context/PureLoopContext.h`, where the thread that drains the queue is the only
one that enqueues: the queue is first in, first out.

A task is named by a value of `τ`. It is an operation of the scheduler, whose receiver is told
`set_value` or `set_stopped` by its stop token, or a node of other code. What the receiver or the
node does then is a program (`LoopProgram`), which depends on what the tasks before it left in
memory (`μ`); a stop source is a value of `σ`. A program ends, and says nothing of the tasks
that it enqueues: those run when they are dequeued.
-/

namespace TX.Exec

/-- What the code of a task does. The callbacks that `request_stop()` runs are part of it. -/
inductive LoopProgram (τ σ μ : Type) where
  | done (memory : μ)
  /-- `Enqueue`, or `Push` in the `start()` of an operation. -/
  | enqueue (task : τ) (k : LoopProgram τ σ μ)
  | requestStop (source : σ) (k : LoopProgram τ σ μ)
  | stopRequested (source : σ) (k : Bool → LoopProgram τ σ μ)

/-- A receiver: its stop token, and what it does with the completions. -/
structure LoopReceiver (τ σ μ : Type) where
  stopToken : σ
  setValue : μ → LoopProgram τ σ μ
  setStopped : μ → LoopProgram τ σ μ

/-- `OperationBase`. -/
inductive LoopTask (τ σ μ : Type) where
  /-- `PureLoopContext::Operation`. -/
  | operation (receiver : LoopReceiver τ σ μ)
  /-- A node from outside the scheduler, with its function. -/
  | node (execute : μ → LoopProgram τ σ μ)

inductive LoopEvent (τ σ : Type) where
  | enqueued (task : τ)
  /-- A task is executed. An operation completes its receiver with the signal. -/
  | executed (task : τ) (signal : Option Signal)
  | stopped (source : σ)
  deriving DecidableEq

/-- The queue, with the stop sources and the memory of the tasks. `log` is newest first. -/
structure PureLoopContext (τ σ μ : Type) where
  queue : List τ := []
  stopRequested : σ → Bool
  memory : μ
  log : List (LoopEvent τ σ) := []

namespace PureLoopContext

variable {τ σ μ : Type} [DecidableEq σ]

def enqueue (c : PureLoopContext τ σ μ) (task : τ) : PureLoopContext τ σ μ :=
  { c with queue := c.queue ++ [task], log := .enqueued task :: c.log }

def requestStop (c : PureLoopContext τ σ μ) (source : σ) : PureLoopContext τ σ μ :=
  { c with stopRequested := Function.update c.stopRequested source true, log := .stopped source :: c.log }

def runProgram (c : PureLoopContext τ σ μ) : LoopProgram τ σ μ → PureLoopContext τ σ μ
  | .done memory => { c with memory }
  | .enqueue task k => (c.enqueue task).runProgram k
  | .requestStop source k => (c.requestStop source).runProgram k
  | .stopRequested source k => c.runProgram (k (c.stopRequested source))

/-- `Operation::Execute`, and the function of a node. -/
def execute (tasks : τ → LoopTask τ σ μ) (c : PureLoopContext τ σ μ) (task : τ) : PureLoopContext τ σ μ :=
  match tasks task with
  | .operation receiver =>
    if c.stopRequested receiver.stopToken then
      { c with log := .executed task (some .setStopped) :: c.log }.runProgram (receiver.setStopped c.memory)
    else
      { c with log := .executed task (some .setValue) :: c.log }.runProgram (receiver.setValue c.memory)
  | .node execute => { c with log := .executed task none :: c.log }.runProgram (execute c.memory)

/-- `try_dequeue`. -/
def tryDequeue (c : PureLoopContext τ σ μ) : Option (τ × PureLoopContext τ σ μ) :=
  match c.queue with
  | [] => none
  | task :: queue => some (task, { c with queue })

/-- A turn of the loop of `DrainQueue`. -/
def drainTurn (tasks : τ → LoopTask τ σ μ) (c : PureLoopContext τ σ μ) : Option (PureLoopContext τ σ μ) :=
  c.tryDequeue.map fun (task, c) => execute tasks c task

/-- `DrainQueue`, with the number of tasks it executed. -/
def drainQueue (tasks : τ → LoopTask τ σ μ) (fuel : Nat) (c : PureLoopContext τ σ μ) :
    Option (Nat × PureLoopContext τ σ μ) :=
  Loop.run (drainTurn tasks) fuel 0 c

end PureLoopContext

end TX.Exec
