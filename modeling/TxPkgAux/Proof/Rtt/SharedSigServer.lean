import TxPkgAux.Impl.Rtt.SharedSigServer
import TxPkgAux.Proof.Rtt.SigHubStep
import TxPkgAux.Proof.Rtt.WsServerStep

/-!
# `DcWsSigServer` on a shared hub: one frame

`dispatch_eq` is what `hub->Dispatch` does in `onMessage` of a connection when no call holds
the mutex of the receiver: `SigHub.dispatched` is the hub after it, and `reached` the user whose
`OnMessage` it called. `shared_onMessage` says that it is the `onMessage` of `DcWsSigServer`
where the hub has no users in the process and nothing raises.
-/

namespace TX.Rtt

variable {τ υ : Type} [DecidableEq τ] [DecidableEq υ]

namespace SigHub

/-- The user whose `OnMessage` a `Dispatch` to the peer calls. -/
def reached (hub : SigHub τ υ) (dst : PeerId) : Option υ :=
  (hub.peers dst).filter fun u =>
    (hub.users u).alive && (hub.users u).handler && (hub.users u).handlerAlive

/-- The hub after a `Dispatch`. -/
def dispatched (hub : SigHub τ υ) (dst : PeerId) (m : SigMessage) : SigHub τ υ :=
  match hub.peers dst with
  | none => hub
  | some u =>
    let r := hub.users u
    if r.alive then
      if r.handler ∧ r.handlerAlive then { hub with log := .onMessage u m :: .acquired u m :: hub.log }
      else (hub.emit (.acquired u m)).setUser u { r with pending := r.pending ++ [m] }
    else hub.erase dst

end SigHub

namespace SharedSigServer

open SigHub

variable {F : FrameCallees υ} {s : SharedSigServer τ υ} {t : τ} {hub hub' : SigHub τ υ} {n : ℕ}

theorem runHub_user (hu : hub.inUser t = true) : runHub t n hub = some hub := by
  cases n <;> simp [runHub, hu]

theorem runHub_next (hu : hub.inUser t = false) (hn : hub.next t = some hub') :
    runHub t (n + 1) hub = runHub t n hub' := by
  simp [runHub, hu, hn]

/-- The server after `OnMessage` of the user that a frame reached, if any. -/
def called (F : FrameCallees υ) (s : SharedSigServer τ υ) (w : ℕ) (m : SigMessage) :
    Option υ → SharedSigServer τ υ
  | some u => (s.userOnMessage F u m).getD (s.emit (.threw w))
  | none => s

/-- The state after `hub->Dispatch`. -/
def dispatched (F : FrameCallees υ) (s : SharedSigServer τ υ) (w : ℕ) (dst : PeerId) (m : SigMessage) :
    SharedSigServer τ υ :=
  { s.called F w m (s.hub.reached dst) with hub := s.hub.dispatched dst m }

theorem dispatch_unknown {w : ℕ} {dst : PeerId} {payload : String} (hs : s.hub.stack t = [])
    (hp : s.hub.peers dst = none) : s.dispatch F t w dst payload = some s := by
  have h₁ : (s.hub.setStack t [.dispatch (s.connId w) dst payload]).next t = some s.hub := by
    simp [SigHub.next, dispatchNext, setStack, hp, ← hs]
  have hu : (s.hub.setStack t [.dispatch (s.connId w) dst payload]).inUser t = false := by
    simp [inUser, setStack, Frame.inUser]
  have hu₁ : s.hub.inUser t = true := by simp [inUser, hs]
  simp only [dispatch, runHub_next hu h₁, runHub_user hu₁, Option.bind_some, hs]

theorem dispatch_stale {w : ℕ} {dst : PeerId} {payload : String} {u : υ} (hs : s.hub.stack t = [])
    (hp : s.hub.peers dst = some u) (ha : (s.hub.users u).alive = false) :
    s.dispatch F t w dst payload = some { s with hub := s.hub.erase dst } := by
  have h₁ : (s.hub.setStack t [.dispatch (s.connId w) dst payload]).next t = some (s.hub.erase dst) := by
    simp [SigHub.next, dispatchNext, setStack, hp, ha, SigHub.erase, ← hs]
  have hu : (s.hub.setStack t [.dispatch (s.connId w) dst payload]).inUser t = false := by
    simp [inUser, setStack, Frame.inUser]
  have hu₁ : (s.hub.erase dst).inUser t = true := by simp [inUser, SigHub.erase, hs]
  have hst : (s.hub.erase dst).stack t = [] := hs
  simp only [dispatch, runHub_next hu h₁, runHub_user hu₁, Option.bind_some, hst]

/-- `Deliver` takes the mutex of a user that nobody holds. -/
theorem runHub_locked {dst : PeerId} {m : SigMessage} {u : υ} (hp : hub.peers dst = some u)
    (ha : (hub.users u).alive = true) (hm : (hub.users u).mutex = none) (n : ℕ) :
    runHub t (n + 2) (hub.setStack t [.dispatch m.src dst m.payload]) =
      runHub t n ((hub.emit (.acquired u m)).focus t [.deliver u m .locked] u
        { hub.users u with refs := (hub.users u).refs + 1, mutex := some t }) := by
  set r := hub.users u with hr
  have h₁ : (hub.focus t [.dispatch m.src dst m.payload] u r).next t =
      some (hub.focus t [.deliver u m .locking] u { r with refs := r.refs + 1 }) := by
    simp [SigHub.next, dispatchNext, hp, ha]
  have h₂ : (hub.focus t [.deliver u m .locking] u { r with refs := r.refs + 1 }).next t =
      some ((hub.emit (.acquired u m)).focus t [.deliver u m .locked] u
        { r with refs := r.refs + 1, mutex := some t }) := by
    simp [SigHub.next, deliverNext, lock, hm]
  rw [focus_self u, runHub_next (by simp [inUser, Frame.inUser]) h₁,
    runHub_next (by simp [inUser, Frame.inUser]) h₂]

theorem dispatch_buffered {w : ℕ} {dst : PeerId} {payload : String} {u : υ} (hs : s.hub.stack t = [])
    (hm : (s.hub.users u).mutex = none) (hp : s.hub.peers dst = some u)
    (ha : (s.hub.users u).alive = true)
    (hh : ¬ ((s.hub.users u).handler = true ∧ (s.hub.users u).handlerAlive = true)) :
    s.dispatch F t w dst payload = some { s with hub :=
      (s.hub.emit (.acquired u ⟨s.connId w, payload⟩)).setUser u { s.hub.users u with
        pending := (s.hub.users u).pending ++ [⟨s.connId w, payload⟩] } } := by
  set r := s.hub.users u
  set m : SigMessage := ⟨s.connId w, payload⟩
  set acquired := s.hub.emit (.acquired u m)
  have h₁ : (acquired.focus t [.deliver u m .locked] u { r with refs := r.refs + 1, mutex := some t }).next t =
      some (acquired.focus t [] u { r with pending := r.pending ++ [m] }) := by
    simp [SigHub.next, deliverNext, hh, hm]
  have hrun : runHub t 3 (s.hub.setStack t [.dispatch m.src dst m.payload]) =
      some (acquired.focus t [] u { r with pending := r.pending ++ [m] }) := by
    rw [runHub_locked hp ha hm 1, runHub_next (by simp [inUser, Frame.inUser]) h₁,
      runHub_user (by simp [inUser])]
  have hs : acquired.stack t = [] := hs
  simp only [dispatch]
  rw [hrun, Option.bind_some, focus_stack, focus_nil hs]

theorem dispatch_reached {w : ℕ} {dst : PeerId} {payload : String} {u : υ} (hs : s.hub.stack t = [])
    (hm : (s.hub.users u).mutex = none) (hp : s.hub.peers dst = some u)
    (ha : (s.hub.users u).alive = true)
    (hh : (s.hub.users u).handler = true ∧ (s.hub.users u).handlerAlive = true) :
    s.dispatch F t w dst payload = some { s.called F w ⟨s.connId w, payload⟩ (some u) with
      hub := { s.hub with
        log := .onMessage u ⟨s.connId w, payload⟩ :: .acquired u ⟨s.connId w, payload⟩ :: s.hub.log } } := by
  set r := s.hub.users u with hr
  set m : SigMessage := ⟨s.connId w, payload⟩
  set acquired := s.hub.emit (.acquired u m)
  set called := (acquired.emit (.onMessage u m)).focus t [.deliver u m .inMessage] u
    { r with refs := r.refs + 1, mutex := some t }
  have h₁ : (acquired.focus t [.deliver u m .locked] u { r with refs := r.refs + 1, mutex := some t }).next t =
      some called := by
    simp [SigHub.next, deliverNext, hh, called]
  have hrun : runHub t 3 (s.hub.setStack t [.dispatch m.src dst m.payload]) = some called := by
    rw [runHub_locked hp ha hm 1, runHub_next (by simp [inUser, Frame.inUser]) h₁]
    rfl
  have hkept : { r with mutex := none } = r := by rw [← hm]
  have hs : (acquired.emit (.onMessage u m)).stack t = [] := hs
  have hret : called.ret t true = some (acquired.emit (.onMessage u m)) := by
    simp only [SigHub.ret, called, focus_stack, focus_unlock_release, focus_setStack,
      Nat.add_sub_cancel, hkept, focus_nil hs]
    simp [setUser, acquired, SigHub.emit, hr]
  simp only [dispatch]
  rw [hrun, Option.bind_some]
  simp only [called, focus_stack] at hret ⊢
  rw [hret, Option.map_some]
  rfl

/-- What `hub->Dispatch` does, where no call holds the mutex of the receiver. -/
theorem dispatch_eq {w : ℕ} {dst : PeerId} {payload : String} (hs : s.hub.stack t = [])
    (hm : ∀ u, s.hub.peers dst = some u → (s.hub.users u).mutex = none) :
    s.dispatch F t w dst payload = some (s.dispatched F w dst ⟨s.connId w, payload⟩) := by
  simp only [dispatched, reached, SigHub.dispatched]
  cases hp : s.hub.peers dst with
  | none => simp [dispatch_unknown hs hp, called]
  | some u =>
    have hm := hm u hp
    by_cases ha : (s.hub.users u).alive = true
    · by_cases hh : (s.hub.users u).handler = true ∧ (s.hub.users u).handlerAlive = true
      · rw [dispatch_reached hs hm hp ha hh]
        simp [Option.filter, ha, hh]
      · rw [dispatch_buffered hs hm hp ha hh]
        simp [Option.filter, ha, hh, called]
    · rw [dispatch_stale hs hp (by simpa using ha)]
      simp [Option.filter, ha, called]

end SharedSigServer

/-! ## A server without users in the process -/

/-- Nothing that `onMessage` calls raises. -/
def FrameCallees.total (dump : Dump) : FrameCallees ℕ where
  dump j := some (dump j)
  sends _ _ := true
  returns _ _ := true

section Shared

variable {parse : Parse} {dump : Dump} {s : DcWsSigServer}

theorem shared_dispatched (hi : ServerInv s) (w : ℕ) (dst : PeerId) (m : SigMessage) :
    s.shared.dispatched (.total dump) w dst m = (s.dispatched dump dst m).shared := by
  cases hp : s.hub.peers dst with
  | none =>
    simp [SharedSigServer.dispatched, SharedSigServer.called, SigHub.reached, SigHub.dispatched,
      DcWsSigServer.dispatched, DcWsSigServer.shared, hp]
  | some k =>
    have hu := hi.users k (hi.peers dst k hp).1
    have hr : s.hub.reached dst = some k := by
      simp [SigHub.reached, hp, Option.filter, hu, HubUser.ofConnection, HubUser.alive]
    have hd : s.hub.dispatched dst m =
        { s.hub with log := .onMessage k m :: .acquired k m :: s.hub.log } := by
      simp [SigHub.dispatched, hp, hu, HubUser.ofConnection, HubUser.alive]
    by_cases ho : s.socket k = .opened <;>
      simp [SharedSigServer.dispatched, SharedSigServer.called, SharedSigServer.userOnMessage,
        SharedSigServer.forward, SharedSigServer.emit, DcWsSigServer.dispatched, DcWsSigServer.forward,
        DcWsSigServer.emit, DcWsSigServer.withHub, DcWsSigServer.shared, FrameCallees.total, hp, hr, hd, ho]

/-- On such a server, `onMessage` is that of `DcWsSigServer`. -/
theorem shared_onMessage (hi : ServerInv s) (w : ℕ) (raw : RawMessage) :
    s.shared.onMessage parse (.total dump) () w raw =
      (s.onMessage parse dump w raw).map DcWsSigServer.shared := by
  cases raw with
  | binary => rfl
  | text text =>
    simp only [SharedSigServer.onMessage, DcWsSigServer.onMessage]
    cases readFrame parse text with
    | ignored => rfl
    | threw => rfl
    | fields dst payload =>
      have hm : ∀ k, s.shared.hub.peers dst = some k → (s.shared.hub.users k).mutex = none := fun k hk => by
        have hu : s.shared.hub.users k = _ := hi.users k (hi.peers dst k hk).1
        simp [hu, HubUser.ofConnection]
      have he : s.shared.dispatch (.total dump) () w dst payload = _ := SharedSigServer.dispatch_eq hi.idle hm
      rw [shared_dispatched hi] at he
      simp only [dispatch_eq hi, Option.map_some]
      exact he

end Shared

end TX.Rtt
