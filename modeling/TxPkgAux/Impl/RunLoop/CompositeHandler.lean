import TxPkgAux.Impl.RunLoop.Runner

/-!
# `CompositeHandler`

`pkg/runloop/RunLoop/CompositeHandler.{h,cpp}`: the loops over the list of handlers, the trees
that composites make of leaves, and a composite with its `_running` flag, to which handlers
are added and from which they are removed.

`_running` is read by `Add` and `Remove` only, and a tree has none of them. The runner
pointers are in `RunnerPointers.lean`.
-/

namespace TX.RunLoop

variable {ι ω σ : Type}

/-! ## The loops -/

/-- Stops the handlers one by one. -/
def stopEach (hs : List (Handler ω)) (w : ω) : ω := hs.foldl (fun w h => h.stop w) w

/-- The loop of `CompositeHandler::Start`. `started` are the handlers that it has started, the
last one first: on failure they are stopped in this order. -/
def startAll : List (Handler ω) → List (Handler ω) → ω → Bool × ω
  | _, [], w => (true, w)
  | started, h :: hs, w =>
    match h.start w with
    | (true, w) => startAll (h :: started) hs w
    | (false, w) => (false, stopEach started w)

/-- `CompositeHandler::Update`. -/
def updateAll (hs : List (Handler ω)) (w : ω) : ω := hs.foldl (fun w h => h.update w) w

/-- The loop of `CompositeHandler::Stop`. -/
def stopAll (hs : List (Handler ω)) (w : ω) : ω := stopEach hs.reverse w

/-- A composite of these handlers. -/
def composite (hs : List (Handler ω)) : Handler ω where
  start := startAll [] hs
  update := updateAll hs
  stop := stopAll hs

/-! ## Trees -/

/-- A tree of composites. -/
inductive HandlerTree (ι : Type) where
  | leaf (i : ι)
  | composite (handlers : List (HandlerTree ι))

namespace HandlerTree

mutual

/-- The tree as a handler. -/
def handler (leaf : ι → Handler ω) : HandlerTree ι → Handler ω
  | .leaf i => leaf i
  | .composite ts => RunLoop.composite (handlers leaf ts)

def handlers (leaf : ι → Handler ω) : List (HandlerTree ι) → List (Handler ω)
  | [] => []
  | t :: ts => t.handler leaf :: handlers leaf ts

end

mutual

/-- The leaves, depth first in list order. -/
def leaves : HandlerTree ι → List ι
  | .leaf i => [i]
  | .composite ts => leavesOf ts

def leavesOf : List (HandlerTree ι) → List ι
  | [] => []
  | t :: ts => t.leaves ++ leavesOf ts

end

end HandlerTree

/-! ## Leaves -/

/-- The calls that a leaf gets. -/
inductive HandlerEvent (ι : Type) where
  | start (i : ι) (ok : Bool)
  | update (i : ι)
  | stop (i : ι)
  deriving DecidableEq

/-- What leaves do, on a state that they share. -/
structure Leaves (ι σ : Type) where
  start : ι → σ → Bool × σ
  update : ι → σ → σ
  stop : ι → σ → σ

/-- A leaf, with its calls recorded, newest first. -/
def Leaves.handler (b : Leaves ι σ) (i : ι) : Handler (σ × List (HandlerEvent ι)) where
  start w := ((b.start i w.1).1, (b.start i w.1).2, .start i (b.start i w.1).1 :: w.2)
  update w := (b.update i w.1, .update i :: w.2)
  stop w := (b.stop i w.1, .stop i :: w.2)

/-! ## A composite in use -/

/-- A composite, and its handlers. `started` tells that `Start` returned `true` and `Stop` was
not called since. -/
structure CompositeHandler (ι σ : Type) where
  handlers : List ι := []
  running : Bool := false
  started : Bool := false
  world : σ × List (HandlerEvent ι)

inductive CompositeAction (ι : Type) where
  | start
  | update
  /-- `Add` of an unlinked handler. -/
  | add (i : ι)
  /-- `Remove` of a member. -/
  | remove (i : ι)
  | stop

namespace CompositeHandler

variable [DecidableEq ι]

def start (b : Leaves ι σ) (c : CompositeHandler ι σ) : CompositeHandler ι σ :=
  match (composite (c.handlers.map b.handler)).start c.world with
  | (true, world) => { c with running := true, started := true, world }
  | (false, world) => { c with world }

def update (b : Leaves ι σ) (c : CompositeHandler ι σ) : CompositeHandler ι σ :=
  { c with world := (composite (c.handlers.map b.handler)).update c.world }

def add (b : Leaves ι σ) (c : CompositeHandler ι σ) (i : ι) : CompositeHandler ι σ :=
  { c with
    handlers := c.handlers ++ [i]
    world := if c.running then ((b.handler i).start c.world).2 else c.world }

def remove (b : Leaves ι σ) (c : CompositeHandler ι σ) (i : ι) : CompositeHandler ι σ :=
  { c with
    handlers := c.handlers.erase i
    world := if c.running then (b.handler i).stop c.world else c.world }

def stop (b : Leaves ι σ) (c : CompositeHandler ι σ) : CompositeHandler ι σ :=
  { c with
    running := false
    started := false
    world := (composite (c.handlers.map b.handler)).stop c.world }

/-- The operations, in the order that a runner makes them in. -/
def step (b : Leaves ι σ) (c : CompositeHandler ι σ) : CompositeAction ι → Option (CompositeHandler ι σ)
  | .start => if c.started then none else some (c.start b)
  | .update => if c.started then some (c.update b) else none
  | .add i => if i ∈ c.handlers then none else some (c.add b i)
  | .remove i => if i ∈ c.handlers then some (c.remove b i) else none
  | .stop => if c.started then some (c.stop b) else none

/-- A new composite. -/
def lts (b : Leaves ι σ) (state : σ) : Lts (CompositeHandler ι σ) (CompositeAction ι) where
  init := { world := (state, []) }
  step := step b

end CompositeHandler

end TX.RunLoop
