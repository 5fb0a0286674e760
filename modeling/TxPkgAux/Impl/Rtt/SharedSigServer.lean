import TxPkgAux.Impl.Rtt.DcWsSigServer

/-!
# The frame handler of `DcWsSigServer`, on a hub that is shared

`pkg/rtt/rtc/Rtt/Rtc/Dc/DcWsSigServer.cpp`: `onMessage` of a connection on its own, from its
call to its end, on a hub that others in the process use as well: users join it through the
server or through `LocalSigClient`. What `onMessage` calls is code that may raise:
`json::dump`, which does so for an id that is not UTF-8, `ws->send`, and the `OnMessage` of a
user in the process, such as that of a transport.

An exception that leaves `OnMessage` unwinds `Deliver` and `Dispatch`, which give the mutex and
their reference back as where it returns, and leaves `onMessage`.
-/

namespace TX.Rtt

/-- What the code that `onMessage` calls makes of its arguments. -/
structure FrameCallees (υ : Type) where
  /-- `json::dump`: `none` where it raises. -/
  dump : Json → Option String
  /-- Whether `ws->send` of a connection returns normally. -/
  sends : ℕ → String → Bool
  /-- Whether `OnMessage` of a user in the process returns normally. -/
  returns : υ → SigMessage → Bool

/-- A server with its hub. `connection` is that of a user's `WsClientHandler`, `none` for a
user in the process. `log` is newest first. -/
structure SharedSigServer (τ υ : Type) where
  hub : SigHub τ υ
  connection : υ → Option ℕ
  connId : ℕ → PeerId
  socket : ℕ → WsState
  log : List ServerEvent := []

namespace SharedSigServer

variable {τ υ : Type} [DecidableEq τ] [DecidableEq υ]

def emit (s : SharedSigServer τ υ) (e : ServerEvent) : SharedSigServer τ υ := { s with log := e :: s.log }

/-- `WsClientHandler::OnMessage`: `none` where an exception leaves it. -/
def forward (F : FrameCallees υ) (s : SharedSigServer τ υ) (k : ℕ) (m : SigMessage) :
    Option (SharedSigServer τ υ) :=
  if s.socket k = .opened then
    match F.dump (envelope m.src m.payload) with
    | some text => if F.sends k text then some (s.emit (.sent k text)) else none
    | none => none
  else some s

/-- `OnMessage` of a user's handler: `none` where an exception leaves it. -/
def userOnMessage (F : FrameCallees υ) (s : SharedSigServer τ υ) (u : υ) (m : SigMessage) :
    Option (SharedSigServer τ υ) :=
  match s.connection u with
  | some k => s.forward F k m
  | none => if F.returns u m then some s else none

/-- The call of the thread goes on, up to its end or to code of the callers, in at most so
many steps. -/
def runHub (t : τ) : ℕ → SigHub τ υ → Option (SigHub τ υ)
  | 0, hub => some hub
  | n + 1, hub => if hub.inUser t then some hub else (hub.next t).bind (runHub t n)

/-- `hub->Dispatch`, in `onMessage` of a connection. -/
def dispatch (F : FrameCallees υ) (s : SharedSigServer τ υ) (t : τ) (w : ℕ) (dst : PeerId)
    (payload : String) : Option (SharedSigServer τ υ) :=
  (runHub t 3 (s.hub.setStack t [.dispatch (s.connId w) dst payload])).bind fun hub =>
    match hub.stack t with
    | .deliver u m .inMessage :: _ =>
      (hub.ret t true).map fun hub => { (s.userOnMessage F u m).getD (s.emit (.threw w)) with hub }
    | _ => some { s with hub }

def onMessage (parse : Parse) (F : FrameCallees υ) (s : SharedSigServer τ υ) (t : τ) (w : ℕ) :
    RawMessage → Option (SharedSigServer τ υ)
  | .binary => some s
  | .text text =>
    match readFrame parse text with
    | .ignored => some s
    | .threw => some (s.emit (.threw w))
    | .fields dst payload => s.dispatch F t w dst payload

end SharedSigServer

/-- A server without users in the process. -/
def DcWsSigServer.shared (s : DcWsSigServer) : SharedSigServer Unit ℕ where
  hub := s.hub
  connection := some
  connId := s.connId
  socket := s.socket
  log := s.log

end TX.Rtt
