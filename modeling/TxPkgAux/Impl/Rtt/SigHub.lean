import TxPkgAux.Framework.Lts
import TxPkgAux.Impl.Rtt.Signaling

/-!
# `SigHub`

`pkg/rtt/Rtt/Rtc/SigHub.{h,cpp}`: any number of threads (`τ`) calling into one hub
with any number of users (`υ`, the `HubUser` objects, created or to come).

Each thread has its call stack. A frame is a call of the hub with its place in it;
a critical section of `_mutex` is one step, as nothing blocks inside it, while
`_handlerMutex` is held from one step to a later one and is part of the state. The
code of the callers (the join factory, `OnMessage`, `OnLeft`, or what runs on a
thread outside the hub) runs on top of a frame that is waiting for it to return:
it may call into the hub again, which pushes a frame, or return.

`onJoined`, `OnMessage` and `OnLeft` are taken to return normally. An exception of theirs
leaves the calls of the hub, and in the replay of `SetHandler` the messages that are left
are lost with it.

A user is a `shared_ptr`: it is alive while its caller keeps the handle the factory
was given, or while a frame holds a reference. A handler is a `weak_ptr`: the caller
may drop the object at any time.
-/

namespace TX.Rtt

/-- Where `Register` is, with the `SetHandler` it ends in. -/
inductive RegisterPc where
  /-- At the insertion into `_peers`. -/
  | inserting
  /-- Inside `onJoined`. -/
  | joining
  /-- At `whandler.lock()`; the factory returned a handler or not. -/
  | checking (supplied : Bool)
  /-- At `_peers.erase`: the join failed. -/
  | erasing
  /-- At the `lock_guard` of `SetHandler`. -/
  | locking
  /-- At `_handler = handler`. -/
  | binding
  /-- In the loop over the messages taken from `_pending`. -/
  | replaying (rest : List SigMessage)
  /-- Inside `OnMessage`, in that loop. -/
  | inMessage (rest : List SigMessage)
  deriving DecidableEq

/-- Where `Leave` is, past its `_left.exchange`. -/
inductive LeavePc where
  /-- At `hub->Unregister`. -/
  | unregistering
  /-- At the `lock_guard`. -/
  | locking
  /-- At the read of `_handler`. -/
  | reading
  /-- At `handler.lock()`; the handler it read was bound or not. -/
  | notifying (bound : Bool)
  /-- Inside `OnLeft`. -/
  | inLeft
  deriving DecidableEq

/-- Where `Deliver` is. -/
inductive DeliverPc where
  /-- At the `lock_guard`. -/
  | locking
  /-- At `_handler.lock()`. -/
  | locked
  /-- Inside `OnMessage`. -/
  | inMessage
  deriving DecidableEq

/-- A call of the hub. -/
inductive Frame (υ : Type) where
  | register (u : υ) (pc : RegisterPc)
  | leave (u : υ) (pc : LeavePc)
  /-- `Dispatch`, at its lookup. -/
  | dispatch (src dst : PeerId) (payload : String)
  | deliver (u : υ) (message : SigMessage) (pc : DeliverPc)
  deriving DecidableEq

/-- The frame waits for code of the callers to return. -/
def Frame.inUser {υ : Type} : Frame υ → Bool
  | .register _ .joining | .register _ (.inMessage _) => true
  | .leave _ .inLeft => true
  | .deliver _ _ .inMessage => true
  | _ => false

/-- What became of the handle of a user that the factory was given. -/
inductive Handle where
  | none | held | dropped
  deriving DecidableEq

/-- What the hub's callers see, with the points in `Register` and `Deliver` they
are counted from: the insertion, the successful join, the lock. -/
inductive Event (υ : Type) where
  | inserted (u : υ)
  | joined (u : υ)
  | acquired (u : υ) (message : SigMessage)
  | onMessage (u : υ) (message : SigMessage)
  | onLeft (u : υ)
  | leaveReturned (u : υ)
  deriving DecidableEq

/-- `SigHub::HubUser`: `created` tells whether the object exists yet, `handler` whether
`_handler` is bound, `handlerAlive` whether the object behind it is alive, `mutex` the
thread that holds `_handlerMutex`, `refs` the references that frames hold. -/
structure HubUser (τ : Type) where
  localId : PeerId
  created : Bool := false
  handler : Bool := false
  handlerAlive : Bool := true
  pending : List SigMessage := []
  left : Bool := false
  mutex : Option τ := none
  handle : Handle := .none
  refs : Nat := 0

/-- `weak_ptr<HubUser>::lock` finds the user. -/
def HubUser.alive {τ : Type} (r : HubUser τ) : Bool := r.handle = .held ∨ 0 < r.refs

/-- The hub, its users and the threads that call it. `log` is newest first. -/
structure SigHub (τ υ : Type) where
  peers : PeerId → Option υ := fun _ => none
  users : υ → HubUser τ
  stack : τ → List (Frame υ) := fun _ => []
  hubAlive : Bool := true
  log : List (Event υ) := []

inductive SigAction (τ υ : Type) where
  /-- The thread calls `Register`, for a user to be created. -/
  | register (t : τ) (u : υ)
  /-- The thread calls `Send` on a user. -/
  | send (t : τ) (u : υ) (dst : PeerId) (payload : String)
  /-- The thread calls `Leave` on a user. -/
  | leave (t : τ) (u : υ)
  /-- The next step of the call on top of the thread's stack. -/
  | next (t : τ)
  /-- The code of the callers on top of the thread's stack returns; a factory
  supplies a live handler or not. -/
  | ret (t : τ) (supplied : Bool)
  /-- The handle of a user is dropped. -/
  | dropHandle (u : υ)
  /-- The owner of a handler destroys it. -/
  | dropHandler (u : υ)
  /-- The last reference to the hub outside a call is dropped. -/
  | dropHub

namespace SigHub

variable {τ υ : Type} [DecidableEq τ] [DecidableEq υ]

def setUser (s : SigHub τ υ) (u : υ) (r : HubUser τ) : SigHub τ υ :=
  { s with users := Function.update s.users u r }

def setStack (s : SigHub τ υ) (t : τ) (fs : List (Frame υ)) : SigHub τ υ :=
  { s with stack := Function.update s.stack t fs }

def emit (s : SigHub τ υ) (e : Event υ) : SigHub τ υ := { s with log := e :: s.log }

/-- `_peers.erase(id)`. -/
def erase (s : SigHub τ υ) (id : PeerId) : SigHub τ υ :=
  { s with peers := Function.update s.peers id none }

/-- The thread is in code of the callers, and so may call into the hub. -/
def inUser (s : SigHub τ υ) (t : τ) : Bool :=
  match s.stack t with
  | [] => true
  | f :: _ => f.inUser

/-- A call that holds a reference to the user returns. -/
def release (s : SigHub τ υ) (u : υ) : SigHub τ υ :=
  s.setUser u { s.users u with refs := (s.users u).refs - 1 }

/-- `_handlerMutex` is released. -/
def unlock (s : SigHub τ υ) (u : υ) : SigHub τ υ :=
  s.setUser u { s.users u with mutex := none }

/-- `_handlerMutex` is taken; the thread blocks while it is held. -/
def lock (s : SigHub τ υ) (t : τ) (u : υ) : Option (SigHub τ υ) :=
  if (s.users u).mutex = none then some (s.setUser u { s.users u with mutex := some t }) else none

/-- `Register`; `fs` is the rest of the stack. -/
def registerNext (s : SigHub τ υ) (t : τ) (u : υ) (fs : List (Frame υ)) :
    RegisterPc → Option (SigHub τ υ)
  | .inserting =>
    let s := { s with peers := Function.update s.peers (s.users u).localId (some u) }
    some ((((s.setUser u { s.users u with handle := .held }).emit (.inserted u)).setStack t
      (.register u .joining :: fs)))
  | .checking supplied =>
    if supplied ∧ (s.users u).handlerAlive then
      some ((s.emit (.joined u)).setStack t (.register u .locking :: fs))
    else some (s.setStack t (.register u .erasing :: fs))
  | .erasing => some (((s.erase (s.users u).localId).release u).setStack t fs)
  | .locking => (s.lock t u).map fun s => s.setStack t (.register u .binding :: fs)
  | .binding =>
    let r := s.users u
    let s := s.setUser u { r with handler := true, pending := [] }
    if r.pending ≠ [] ∧ r.handlerAlive then
      some (s.setStack t (.register u (.replaying r.pending) :: fs))
    else some (((s.unlock u).release u).setStack t fs)
  | .replaying [] => some (((s.unlock u).release u).setStack t fs)
  | .replaying (m :: rest) =>
    some ((s.emit (.onMessage u m)).setStack t (.register u (.inMessage rest) :: fs))
  | .joining | .inMessage _ => none

/-- `Leave`. -/
def leaveNext (s : SigHub τ υ) (t : τ) (u : υ) (fs : List (Frame υ)) : LeavePc → Option (SigHub τ υ)
  | .unregistering =>
    let s := if s.hubAlive then s.erase (s.users u).localId else s
    some (s.setStack t (.leave u .locking :: fs))
  | .locking => (s.lock t u).map fun s => s.setStack t (.leave u .reading :: fs)
  | .reading =>
    some ((s.unlock u).setStack t (.leave u (.notifying (s.users u).handler) :: fs))
  | .notifying bound =>
    if bound ∧ (s.users u).handlerAlive then
      some ((s.emit (.onLeft u)).setStack t (.leave u .inLeft :: fs))
    else some (((s.emit (.leaveReturned u)).release u).setStack t fs)
  | .inLeft => none

/-- `Dispatch`: the lookup, which drops a stale entry, and the call of `Deliver`. -/
def dispatchNext (s : SigHub τ υ) (t : τ) (src dst : PeerId) (payload : String) (fs : List (Frame υ)) :
    Option (SigHub τ υ) :=
  match s.peers dst with
  | none => some (s.setStack t fs)
  | some u =>
    let r := s.users u
    if r.alive then
      some ((s.setUser u { r with refs := r.refs + 1 }).setStack t
        (.deliver u ⟨src, payload⟩ .locking :: fs))
    else some ((s.erase dst).setStack t fs)

/-- `Deliver`. -/
def deliverNext (s : SigHub τ υ) (t : τ) (u : υ) (m : SigMessage) (fs : List (Frame υ)) :
    DeliverPc → Option (SigHub τ υ)
  | .locking =>
    (s.lock t u).map fun s => (s.emit (.acquired u m)).setStack t (.deliver u m .locked :: fs)
  | .locked =>
    let r := s.users u
    if r.handler ∧ r.handlerAlive then
      some ((s.emit (.onMessage u m)).setStack t (.deliver u m .inMessage :: fs))
    else
      some (((s.setUser u { r with pending := r.pending ++ [m] }).unlock u |>.release u).setStack t fs)
  | .inMessage => none

/-- The next step of a call. -/
def next (s : SigHub τ υ) (t : τ) : Option (SigHub τ υ) :=
  match s.stack t with
  | [] => none
  | .register u pc :: fs => s.registerNext t u fs pc
  | .leave u pc :: fs => s.leaveNext t u fs pc
  | .dispatch src dst payload :: fs => s.dispatchNext t src dst payload fs
  | .deliver u m pc :: fs => s.deliverNext t u m fs pc

/-- The code of the callers returns to the call below it. -/
def ret (s : SigHub τ υ) (t : τ) (supplied : Bool) : Option (SigHub τ υ) :=
  match s.stack t with
  | .register u .joining :: fs => some (s.setStack t (.register u (.checking supplied) :: fs))
  | .register u (.inMessage rest) :: fs =>
    some (s.setStack t (.register u (.replaying rest) :: fs))
  | .leave u .inLeft :: fs => some (((s.emit (.leaveReturned u)).release u).setStack t fs)
  | .deliver u _ .inMessage :: fs => some (((s.unlock u).release u).setStack t fs)
  | _ => none

def step (s : SigHub τ υ) : SigAction τ υ → Option (SigHub τ υ)
  | .register t u =>
    if s.inUser t ∧ s.hubAlive ∧ (s.users u).created = false then
      some ((s.setUser u { s.users u with created := true, refs := 1 }).setStack t
        (.register u .inserting :: s.stack t))
    else none
  | .send t u dst payload =>
    if s.inUser t ∧ (s.users u).handle = .held then
      if s.hubAlive then
        some (s.setStack t (.dispatch (s.users u).localId dst payload :: s.stack t))
      else some s
    else none
  | .leave t u =>
    let r := s.users u
    if s.inUser t ∧ r.handle = .held then
      if r.left then some (s.emit (.leaveReturned u))
      else
        some ((s.setUser u { r with left := true, refs := r.refs + 1 }).setStack t
          (.leave u .unregistering :: s.stack t))
    else none
  | .next t => s.next t
  | .ret t supplied => s.ret t supplied
  | .dropHandle u =>
    if (s.users u).handle = .held then some (s.setUser u { s.users u with handle := .dropped })
    else none
  | .dropHandler u => some (s.setUser u { s.users u with handlerAlive := false })
  | .dropHub => some { s with hubAlive := false }

/-- The system of users with the ids `localId`, none of them registered. -/
def lts (τ : Type) [DecidableEq τ] (localId : υ → PeerId) : Lts (SigHub τ υ) (SigAction τ υ) where
  init := { users := fun u => { localId := localId u } }
  step := step

end SigHub

end TX.Rtt
