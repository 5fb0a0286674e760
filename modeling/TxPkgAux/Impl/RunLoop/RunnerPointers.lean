import TxPkgAux.Impl.RunLoop.CompositeHandler

/-!
# The pointers to runners

`pkg/runloop/RunLoop/{Handler.h,Runner.cpp,CompositeHandler.cpp}`: the `_runner` of each
handler, which `Runner` sets on its handler and `CompositeHandler` passes on to its handlers.
The handlers are in trees: `trees` are the unlinked ones, with what is below them.

The loops are those of `CompositeHandler.lean`. Here a handler changes pointers and `_running`
flags only.
-/

namespace TX.RunLoop

open Function (update)

variable {ι ρ : Type} [DecidableEq ι]

/-- `Handler::_runner` and `CompositeHandler::_running` of each handler. -/
structure Pointers (ι ρ : Type) where
  runner : ι → Option ρ := fun _ => none
  running : ι → Bool := fun _ => false

def Pointers.setRunner (w : Pointers ι ρ) (id : ι) (r : Option ρ) : Pointers ι ρ :=
  { w with runner := update w.runner id r }

def Pointers.setRunning (w : Pointers ι ρ) (id : ι) (b : Bool) : Pointers ι ρ :=
  { w with running := update w.running id b }

/-- A handler with what is below it. -/
inductive HandlerNode (ι : Type) where
  | leaf (id : ι)
  | composite (id : ι) (handlers : List (HandlerNode ι))

namespace HandlerNode

def id : HandlerNode ι → ι
  | .leaf id => id
  | .composite id _ => id

mutual

/-- `Start`, `Update` and `Stop` of a handler; `ok` are the results of `Start` of leaves. -/
def handler (ok : ι → Bool) : HandlerNode ι → Handler (Pointers ι ρ)
  | .leaf id => { start := fun w => (ok id, w), update := fun w => w, stop := fun w => w }
  | .composite id hs =>
    { start := fun w =>
        match startAll [] (handlers ok (w.runner id) hs) w with
        | (true, w) => (true, w.setRunning id true)
        | (false, w) => (false, w)
      update := updateAll (handlers ok none hs)
      stop := fun w => stopAll (handlers ok none hs) (w.setRunning id false) }

/-- The handlers of a composite; `SetRunner(runner)` comes before their `Start`. -/
def handlers (ok : ι → Bool) (runner : Option ρ) : List (HandlerNode ι) → List (Handler (Pointers ι ρ))
  | [] => []
  | h :: hs =>
    { h.handler ok with start := fun w => (h.handler ok).start (w.setRunner h.id runner) } ::
      handlers ok runner hs

end

mutual

/-- The handler with this id, in a tree. -/
def find? (i : ι) : HandlerNode ι → Option (HandlerNode ι)
  | .leaf id => if id = i then some (.leaf id) else none
  | .composite id hs => if id = i then some (.composite id hs) else findIn? i hs

def findIn? (i : ι) : List (HandlerNode ι) → Option (HandlerNode ι)
  | [] => none
  | h :: hs => (find? i h).or (findIn? i hs)

end

mutual

/-- `_handlers` of the composite `c` becomes `f` of it. -/
def modify (c : ι) (f : List (HandlerNode ι) → List (HandlerNode ι)) : HandlerNode ι → HandlerNode ι
  | .leaf id => .leaf id
  | .composite id hs => if id = c then .composite id (f hs) else .composite id (modifyIn c f hs)

def modifyIn (c : ι) (f : List (HandlerNode ι) → List (HandlerNode ι)) :
    List (HandlerNode ι) → List (HandlerNode ι)
  | [] => []
  | h :: hs => modify c f h :: modifyIn c f hs

end

/-- The children of a composite. -/
def children : HandlerNode ι → Option (List (HandlerNode ι))
  | .leaf _ => none
  | .composite _ hs => some hs

end HandlerNode

/-- The handlers, and the handler of each runner that is alive. -/
structure Handlers (ι ρ : Type) where
  trees : List (HandlerNode ι) := []
  pointers : Pointers ι ρ := {}
  runners : ρ → Option ι := fun _ => none

inductive HandlersAction (ι ρ : Type) where
  /-- A new handler, a composite or not. -/
  | construct (id : ι) (isComposite : Bool)
  /-- A new `Runner` of a handler. -/
  | runner (r : ρ) (id : ι)
  /-- `~Runner`. -/
  | destroy (r : ρ)
  /-- `Start` of a handler. -/
  | start (id : ι) (ok : ι → Bool)
  /-- `Stop` of a handler. -/
  | stop (id : ι)
  /-- `Add` of an unlinked handler to a composite that is not below it. -/
  | add (c id : ι) (ok : ι → Bool)
  /-- `Remove` of a member of a composite. -/
  | remove (c id : ι)

namespace Handlers

variable [DecidableEq ρ]

/-- The handlers `Add` may add: the unlinked ones. -/
def unlinked? (s : Handlers ι ρ) (id : ι) : Option (HandlerNode ι) := s.trees.find? (·.id = id)

/-- The member of the composite `c`. -/
def member? (s : Handlers ι ρ) (c id : ι) : Option (HandlerNode ι) :=
  (HandlerNode.findIn? c s.trees).bind fun n => n.children.bind fun hs => hs.find? (·.id = id)

/-- `CompositeHandler::Add`. -/
def add (s : Handlers ι ρ) (c : ι) (h : HandlerNode ι) (ok : ι → Bool) : Handlers ι ρ where
  trees := HandlerNode.modifyIn c (· ++ [h]) (s.trees.filter (·.id ≠ h.id))
  pointers :=
    if s.pointers.running c then
      ((h.handler ok).start (s.pointers.setRunner h.id (s.pointers.runner c))).2
    else s.pointers
  runners := s.runners

/-- `CompositeHandler::Remove`. -/
def remove (s : Handlers ι ρ) (c : ι) (h : HandlerNode ι) : Handlers ι ρ where
  trees := h :: HandlerNode.modifyIn c (·.filter (·.id ≠ h.id)) s.trees
  pointers :=
    (if s.pointers.running c then (h.handler fun _ => true).stop s.pointers else s.pointers).setRunner h.id none
  runners := s.runners

def step (s : Handlers ι ρ) : HandlersAction ι ρ → Option (Handlers ι ρ)
  | .construct id isComposite =>
    if (HandlerNode.findIn? id s.trees).isSome then none
    else some { s with trees := (if isComposite then .composite id [] else .leaf id) :: s.trees }
  | .runner r id =>
    if (s.runners r).isSome ∨ (HandlerNode.findIn? id s.trees).isNone then none
    else some { s with
      pointers := s.pointers.setRunner id (some r)
      runners := update s.runners r (some id) }
  | .destroy r =>
    (s.runners r).map fun id => { s with
      pointers := s.pointers.setRunner id none
      runners := update s.runners r none }
  | .start id ok =>
    (HandlerNode.findIn? id s.trees).map fun h => { s with pointers := ((h.handler ok).start s.pointers).2 }
  | .stop id =>
    (HandlerNode.findIn? id s.trees).map fun h =>
      { s with pointers := (h.handler fun _ => true).stop s.pointers }
  | .add c id ok =>
    match s.unlinked? id with
    | some h =>
      if ((HandlerNode.findIn? c (s.trees.filter (·.id ≠ id))).bind HandlerNode.children).isSome then
        some (s.add c h ok)
      else none
    | none => none
  | .remove c id => (s.member? c id).map fun h => s.remove c h

def lts (ι ρ : Type) [DecidableEq ι] [DecidableEq ρ] : Lts (Handlers ι ρ) (HandlersAction ι ρ) where
  init := {}
  step := step

end Handlers

end TX.RunLoop
