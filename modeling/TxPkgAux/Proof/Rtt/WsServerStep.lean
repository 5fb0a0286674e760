import TxPkgAux.Impl.Rtt.DcWsSigServer
import TxPkgAux.Proof.Rtt.SigHubStep

/-!
# `DcWsSigServer`: what one step can do

`call_register`, `call_leave`, `dispatch_unknown` and `dispatch_found` are the calls that
the callbacks make into the hub: between two callbacks the hub is idle, and the user of a
connection is bound to its handler. `ServerInv` says so, and `ServerStep` lists the steps of
a server from such states; `ServerStep.of_step` says that there are no others.
-/

namespace TX.Rtt

open Function (update)

/-- The `HubUser` of a connection between two callbacks: its handler is bound, and no call
refers to it. -/
def HubUser.ofConnection (connId : PeerId) (left : Bool) : HubUser Unit where
  localId := connId
  created := true
  handler := true
  handle := .held
  left := left

namespace DcWsSigServer

variable {parse : Parse} {dump : Dump} {s s' : DcWsSigServer}

@[simp] theorem withHub_hub (hub : SigHub Unit ℕ) : (s.withHub hub).hub = hub := rfl

@[simp] theorem withHub_withHub (hub hub' : SigHub Unit ℕ) :
    (s.withHub hub).withHub hub' = s.withHub hub' := rfl

/-! ## Calls of the hub -/

theorem runHub_idle {n : ℕ} (hs : s.hub.stack () = []) : runHub dump n s = some s := by
  cases n <;> simp [runHub, hs]

theorem runHub_next {n : ℕ} {f : Frame ℕ} {fs : List (Frame ℕ)} {hub : SigHub Unit ℕ}
    (hs : s.hub.stack () = f :: fs) (hf : f.inUser = false) (hn : s.hub.next () = some hub) :
    runHub dump (n + 1) s = runHub dump n (s.withHub hub) := by
  simp [runHub, hs, hf, hn]

theorem runHub_ret {n : ℕ} {f : Frame ℕ} {fs : List (Frame ℕ)} {hub : SigHub Unit ℕ}
    (hs : s.hub.stack () = f :: fs) (hf : f.inUser = true) (hn : s.hub.ret () true = some hub) :
    runHub dump (n + 1) s = runHub dump n ((s.runUser dump).withHub hub) := by
  simp [runHub, hs, hf, hn]

theorem runUser_onMessage {w : ℕ} {m : SigMessage} {log : List (Event ℕ)}
    (hl : s.hub.log = .onMessage w m :: log) : s.runUser dump = s.forward dump w m := by
  simp [runUser, hl]

/-- `WsClientHandler::OnMessage` does not touch the hub. -/
theorem forward_withHub {w : ℕ} {m : SigMessage} {hub : SigHub Unit ℕ} :
    (s.withHub hub).forward dump w m = (s.forward dump w m).withHub hub := by
  by_cases ho : s.socket w = .opened <;> simp [forward, withHub, emit, ho]

theorem call_register {w : ℕ} (id : PeerId) (hs : s.hub.stack () = []) (ha : s.hub.hubAlive = true)
    (hu : s.hub.users w = { localId := id }) :
    s.call dump (.register () w) = some (s.withHub { s.hub with
      peers := update s.hub.peers id (some w)
      users := update s.hub.users w (.ofConnection id false)
      log := .joined w :: .inserted w :: s.hub.log }) := by
  set r : HubUser Unit := { localId := id, created := true, handle := .held, refs := 1 } with hr
  set inserted : SigHub Unit ℕ := { s.hub with
    peers := update s.hub.peers id (some w), log := .inserted w :: s.hub.log }
  set joined : SigHub Unit ℕ := inserted.emit (.joined w)
  have h₀ : s.hub.step (.register () w) =
      some (s.hub.focus () [.register w .inserting] w { r with handle := .none }) := by
    simp [SigHub.step, SigHub.inUser, hs, ha, hu, SigHub.setUser, SigHub.setStack, SigHub.focus, hr]
  have h₁ : (s.hub.focus () [.register w .inserting] w { r with handle := .none }).next () =
      some (inserted.focus () [.register w .joining] w r) := by
    simp [SigHub.next, SigHub.registerNext]
    simp [SigHub.setUser, SigHub.setStack, SigHub.emit, SigHub.focus, inserted, hr]
  have h₂ : (inserted.focus () [.register w .joining] w r).ret () true =
      some (inserted.focus () [.register w (.checking true)] w r) := by
    simp [SigHub.ret]
  have h₃ : (inserted.focus () [.register w (.checking true)] w r).next () =
      some (joined.focus () [.register w .locking] w r) := by
    simp [SigHub.next, SigHub.registerNext, hr, joined]
  have h₄ : (joined.focus () [.register w .locking] w r).next () =
      some (joined.focus () [.register w .binding] w { r with mutex := some () }) := by
    simp [SigHub.next, SigHub.registerNext, SigHub.lock, hr]
  have h₅ : (joined.focus () [.register w .binding] w { r with mutex := some () }).next () =
      some (joined.focus () [] w (.ofConnection id false)) := by
    simp [SigHub.next, SigHub.registerNext, SigHub.unlock, SigHub.release, hr, HubUser.ofConnection]
  simp only [call, h₀, Option.bind_some]
  rw [runHub_next rfl rfl h₁, runHub_ret rfl rfl h₂, runHub_next rfl rfl h₃, runHub_next rfl rfl h₄,
    runHub_next rfl rfl h₅, runHub_idle rfl]
  simp [SigHub.focus, joined, inserted, SigHub.emit, runUser, withHub, funext_iff, hs]

theorem call_leave {w : ℕ} (id : PeerId) (hs : s.hub.stack () = []) (ha : s.hub.hubAlive = true)
    (hu : s.hub.users w = .ofConnection id false) :
    s.call dump (.leave () w) = some (s.withHub { s.hub with
      peers := update s.hub.peers id none
      users := update s.hub.users w (.ofConnection id true)
      log := .leaveReturned w :: .onLeft w :: s.hub.log }) := by
  set r : HubUser Unit := { HubUser.ofConnection id true with refs := 1 } with hr
  set left : SigHub Unit ℕ := s.hub.erase id
  set told : SigHub Unit ℕ := left.emit (.onLeft w)
  have h₀ : s.hub.step (.leave () w) = some (s.hub.focus () [.leave w .unregistering] w r) := by
    simp [SigHub.step, SigHub.inUser, hs, hu, SigHub.setUser, SigHub.setStack, SigHub.focus, hr,
      HubUser.ofConnection]
  have h₁ : (s.hub.focus () [.leave w .unregistering] w r).next () =
      some (left.focus () [.leave w .locking] w r) := by
    simp [SigHub.next, SigHub.leaveNext, ha, left, hr, HubUser.ofConnection]
  have h₂ : (left.focus () [.leave w .locking] w r).next () =
      some (left.focus () [.leave w .reading] w { r with mutex := some () }) := by
    simp [SigHub.next, SigHub.leaveNext, SigHub.lock, hr, HubUser.ofConnection]
  have h₃ : (left.focus () [.leave w .reading] w { r with mutex := some () }).next () =
      some (left.focus () [.leave w (.notifying true)] w r) := by
    simp [SigHub.next, SigHub.leaveNext, SigHub.unlock, hr, HubUser.ofConnection]
  have h₄ : (left.focus () [.leave w (.notifying true)] w r).next () =
      some (told.focus () [.leave w .inLeft] w r) := by
    simp [SigHub.next, SigHub.leaveNext, told, hr, HubUser.ofConnection]
  have h₅ : (told.focus () [.leave w .inLeft] w r).ret () true =
      some ((told.emit (.leaveReturned w)).focus () [] w (.ofConnection id true)) := by
    simp [SigHub.ret, SigHub.release, hr, HubUser.ofConnection]
  simp only [call, h₀, Option.bind_some]
  rw [runHub_next rfl rfl h₁, runHub_next rfl rfl h₂, runHub_next rfl rfl h₃, runHub_next rfl rfl h₄,
    runHub_ret rfl rfl h₅, runHub_idle rfl]
  simp [SigHub.focus, told, left, SigHub.emit, SigHub.erase, runUser, withHub, funext_iff, hs]

theorem dispatch_unknown {src dst : PeerId} {payload : String} (hs : s.hub.stack () = [])
    (hp : s.hub.peers dst = none) : s.dispatch dump src dst payload = some s := by
  have h₁ : (s.hub.setStack () [.dispatch src dst payload]).next () = some s.hub := by
    simp [SigHub.next, SigHub.dispatchNext, SigHub.setStack, hp, ← hs]
  have h₀ : (s.hub.setStack () [.dispatch src dst payload]).stack () = [.dispatch src dst payload] := by
    simp [SigHub.setStack]
  rw [dispatch, runHub_next h₀ rfl h₁, runHub_idle]
  · rfl
  · exact hs

theorem dispatch_found {src dst id : PeerId} {payload : String} {w : ℕ} {left : Bool}
    (hs : s.hub.stack () = []) (hp : s.hub.peers dst = some w)
    (hu : s.hub.users w = .ofConnection id left) :
    s.dispatch dump src dst payload = some ((s.forward dump w ⟨src, payload⟩).withHub { s.hub with
      log := .onMessage w ⟨src, payload⟩ :: .acquired w ⟨src, payload⟩ :: s.hub.log }) := by
  set r : HubUser Unit := .ofConnection id left with hr
  set m : SigMessage := ⟨src, payload⟩
  set acquired : SigHub Unit ℕ := s.hub.emit (.acquired w m)
  have h₀ : s.hub.setStack () [.dispatch src dst payload] = s.hub.focus () [.dispatch src dst payload] w r := by
    rw [SigHub.focus_self w, hu]
  have h₁ : (s.hub.focus () [.dispatch src dst payload] w r).next () =
      some (s.hub.focus () [.deliver w m .locking] w { r with refs := 1 }) := by
    simp [SigHub.next, SigHub.dispatchNext, hp, HubUser.alive, hr, HubUser.ofConnection, m]
  have h₂ : (s.hub.focus () [.deliver w m .locking] w { r with refs := 1 }).next () =
      some (acquired.focus () [.deliver w m .locked] w { r with refs := 1, mutex := some () }) := by
    simp [SigHub.next, SigHub.deliverNext, SigHub.lock, hr, HubUser.ofConnection, acquired]
  have h₃ : (acquired.focus () [.deliver w m .locked] w { r with refs := 1, mutex := some () }).next () =
      some ((acquired.emit (.onMessage w m)).focus () [.deliver w m .inMessage] w
        { r with refs := 1, mutex := some () }) := by
    simp [SigHub.next, SigHub.deliverNext, hr, HubUser.ofConnection]
  have h₄ : ((acquired.emit (.onMessage w m)).focus () [.deliver w m .inMessage] w
        { r with refs := 1, mutex := some () }).ret () true =
      some ((acquired.emit (.onMessage w m)).focus () [] w r) := by
    simp [SigHub.ret, SigHub.release, SigHub.unlock, hr, HubUser.ofConnection]
  rw [dispatch, h₀, runHub_next rfl rfl h₁, runHub_next rfl rfl h₂, runHub_next rfl rfl h₃,
    runHub_ret rfl rfl h₄, runHub_idle rfl]
  have hs : (acquired.emit (.onMessage w m)).stack () = [] := hs
  have hhub : (acquired.emit (.onMessage w m)).focus () [] w r =
      { s.hub with log := .onMessage w m :: .acquired w m :: s.hub.log } := by
    rw [SigHub.focus_nil hs]
    simp [SigHub.setUser, acquired, SigHub.emit, ← hu]
  rw [runUser_onMessage rfl, hhub]
  simp only [forward_withHub, withHub_withHub]

/-! ## Steps -/

/-- The state after `hub->Dispatch`. -/
def dispatched (dump : Dump) (s : DcWsSigServer) (dst : PeerId) (m : SigMessage) : DcWsSigServer :=
  match s.hub.peers dst with
  | none => s
  | some w => (s.forward dump w m).withHub
      { s.hub with log := .onMessage w m :: .acquired w m :: s.hub.log }

/-- The state after an `onOpen` that registered the id. -/
def registered (s : DcWsSigServer) (connId : PeerId) : DcWsSigServer where
  hub := { s.hub with
    peers := update s.hub.peers connId (some s.opened)
    users := update s.hub.users s.opened (.ofConnection connId false)
    log := .joined s.opened :: .inserted s.opened :: s.hub.log }
  opened := s.opened + 1
  connId := update s.connId s.opened connId
  socket := update s.socket s.opened .opened
  connections := update s.connections connId (some s.opened)
  log := s.log

/-- The state after `onClosed`. -/
def left (s : DcWsSigServer) (w : ℕ) : DcWsSigServer :=
  { s with
    hub := { s.hub with
      peers := update s.hub.peers (s.connId w) none
      users := update s.hub.users w (.ofConnection (s.connId w) true)
      log := .leaveReturned w :: .onLeft w :: s.hub.log }
    socket := update s.socket w .closed
    connections := update s.connections (s.connId w) none }

end DcWsSigServer

/-- Between two callbacks: no call of the hub is in progress, and the user of a connection
left the hub with `onClosed`. -/
structure ServerInv (s : DcWsSigServer) : Prop where
  idle : s.hub.stack () = []
  alive : s.hub.hubAlive = true
  users : ∀ w < s.opened, s.hub.users w = .ofConnection (s.connId w) (s.socket w = .closed)
  opened : ∀ w, s.socket w ≠ .connecting ↔ w < s.opened
  peers : ∀ id w, s.hub.peers id = some w → w < s.opened ∧ s.connId w = id

open DcWsSigServer (registered left dispatched)

/-- The steps of a server. -/
inductive ServerStep (parse : Parse) (dump : Dump) (s : DcWsSigServer) :
    ServerAction → DcWsSigServer → Prop where
  | refused (path : Option String) (hp : (connIdOf path).value = "") :
    ServerStep parse dump s (.onOpen path) { s with log := .refused :: s.log }
  | registered (path : Option String) (hp : (connIdOf path).value ≠ "") :
    ServerStep parse dump s (.onOpen path) (s.registered (connIdOf path))
  | ignored (w : ℕ) (raw : RawMessage) (hw : s.live w = true)
      (hr : ∀ text, raw = .text text → readFrame parse text = .ignored) :
    ServerStep parse dump s (.onMessage w raw) s
  | threw (w : ℕ) (text : String) (hw : s.live w = true) (hr : readFrame parse text = .threw) :
    ServerStep parse dump s (.onMessage w (.text text)) { s with log := .threw w :: s.log }
  | frame (w : ℕ) (text : String) (dst : PeerId) (payload : String) (hw : s.live w = true)
      (hr : readFrame parse text = .fields dst payload) :
    ServerStep parse dump s (.onMessage w (.text text)) (s.dispatched dump dst ⟨s.connId w, payload⟩)
  | closing (w : ℕ) (hw : s.socket w = .opened) :
    ServerStep parse dump s (.closing w) { s with socket := update s.socket w .closing }
  | left (w : ℕ) (hw : s.live w = true) : ServerStep parse dump s (.onClosed w) (s.left w)
  | disconnected (id : PeerId) (w : ℕ) (hc : s.connections id = some w) (hw : s.socket w = .opened) :
    ServerStep parse dump s (.disconnectPeer id) { s with socket := update s.socket w .closing }
  | notConnected (id : PeerId) : ServerStep parse dump s (.disconnectPeer id) s
  | dispatched (src dst : PeerId) (payload : String) :
    ServerStep parse dump s (.dispatch src dst payload) (s.dispatched dump dst ⟨src, payload⟩)

section Cases

variable {parse : Parse} {dump : Dump} {s s' : DcWsSigServer}

theorem live_opened (hi : ServerInv s) {w : ℕ} (hw : s.live w = true) : w < s.opened := by
  rw [← hi.opened]
  rcases of_decide_eq_true hw with h | h <;> simp [h]

theorem dispatch_eq (hi : ServerInv s) (src dst : PeerId) (payload : String) :
    s.dispatch dump src dst payload = some (s.dispatched dump dst ⟨src, payload⟩) := by
  simp only [dispatched]
  cases hp : s.hub.peers dst with
  | none => exact DcWsSigServer.dispatch_unknown hi.idle hp
  | some w => exact DcWsSigServer.dispatch_found hi.idle hp (hi.users w (hi.peers dst w hp).1)

theorem onOpen_eq (hi : ServerInv s) {path : Option String} (hp : (connIdOf path).value ≠ "") :
    s.onOpen dump path = some (s.registered (connIdOf path)) := by
  simp only [DcWsSigServer.onOpen, hp, if_false]
  rw [DcWsSigServer.call_register (connIdOf path)]
  · simp [registered, DcWsSigServer.withHub, SigHub.setUser]
  · exact hi.idle
  · exact hi.alive
  · simp [SigHub.setUser]

theorem onClosed_eq (hi : ServerInv s) {w : ℕ} (hw : s.live w = true) :
    s.onClosed dump w = some (s.left w) := by
  have hne : s.socket w ≠ .closed := by
    rcases of_decide_eq_true hw with h | h <;> simp [h]
  rw [DcWsSigServer.onClosed, DcWsSigServer.call_leave (s.connId w)]
  · rfl
  · exact hi.idle
  · exact hi.alive
  · simpa [hne] using hi.users w (live_opened hi hw)

theorem ServerStep.of_step {a : ServerAction} (hi : ServerInv s) (he : s.step parse dump a = some s') :
    ServerStep parse dump s a s' := by
  cases a with
  | onOpen path =>
    simp only [DcWsSigServer.step] at he
    by_cases hp : (connIdOf path).value = ""
    · simp only [DcWsSigServer.onOpen, hp, if_true, Option.some.injEq] at he
      exact he ▸ .refused path hp
    · rw [onOpen_eq hi hp] at he
      cases he
      exact .registered path hp
  | onMessage w raw =>
    simp only [DcWsSigServer.step] at he
    split at he <;> [skip; cases he]
    rename_i hw
    cases raw with
    | binary =>
      cases he
      exact .ignored w _ hw fun _ h => by cases h
    | text text =>
      simp only [DcWsSigServer.onMessage] at he
      split at he
      · cases he
        exact .ignored w _ hw fun _ h => by cases h; assumption
      · cases he
        exact .threw w text hw ‹_›
      · rw [dispatch_eq hi] at he
        cases he
        exact .frame w text _ _ hw ‹_›
  | closing w =>
    simp only [DcWsSigServer.step] at he
    split at he <;> cases he
    exact .closing w ‹_›
  | onClosed w =>
    simp only [DcWsSigServer.step] at he
    split at he <;> [skip; cases he]
    rename_i hw
    rw [onClosed_eq hi hw] at he
    cases he
    exact .left w hw
  | disconnectPeer id =>
    simp only [DcWsSigServer.step, DcWsSigServer.disconnectPeer, Option.some.injEq] at he
    split at he
    · split at he <;> cases he
      · exact .disconnected id _ ‹_› ‹_›
      · exact .notConnected id
    · cases he
      exact .notConnected id
  | dispatch src dst payload =>
    simp only [DcWsSigServer.step, dispatch_eq hi, Option.some.injEq] at he
    exact he ▸ .dispatched src dst payload

/-! ## The invariant -/

theorem dispatched_spec (dump : Dump) (s : DcWsSigServer) (dst : PeerId) (m : SigMessage) :
    ∃ log hlog, s.dispatched dump dst m = { s with log, hub := { s.hub with log := hlog } } := by
  simp only [dispatched, DcWsSigServer.forward, DcWsSigServer.withHub, DcWsSigServer.emit]
  split
  · exact ⟨s.log, s.hub.log, rfl⟩
  · split <;> exact ⟨_, _, rfl⟩

theorem ServerInv.dispatched (hi : ServerInv s) (dst : PeerId) (m : SigMessage) :
    ServerInv (s.dispatched dump dst m) := by
  obtain ⟨log, hlog, he⟩ := dispatched_spec dump s dst m
  rw [he]
  exact ⟨hi.idle, hi.alive, hi.users, hi.opened, hi.peers⟩

theorem ServerInv.registered (hi : ServerInv s) (id : PeerId) : ServerInv (s.registered id) := by
  obtain ⟨hs, ha, hu, ho, hp⟩ := hi
  refine ⟨hs, ha, fun k hk => ?_, ?_, ?_⟩
  · rcases Nat.lt_succ_iff_lt_or_eq.mp hk with hlt | rfl
    · simp [DcWsSigServer.registered, Nat.ne_of_lt hlt, hu k hlt]
    · simp [DcWsSigServer.registered]
  · simp only [DcWsSigServer.registered]
    grind -linarith -order
  · simp only [DcWsSigServer.registered]
    grind -linarith -order

theorem ServerInv.left (hi : ServerInv s) {w : ℕ} (hw : s.live w = true) : ServerInv (s.left w) := by
  have hlt := live_opened hi hw
  obtain ⟨hs, ha, hu, ho, hp⟩ := hi
  refine ⟨hs, ha, fun k hk => ?_, ?_, ?_⟩
  · by_cases hkw : k = w
    · simp [DcWsSigServer.left, hkw]
    · simp [DcWsSigServer.left, hkw, hu k hk]
  · simp only [DcWsSigServer.left]
    grind -linarith -order
  · simp only [DcWsSigServer.left]
    grind -linarith -order

theorem ServerInv.closing (hi : ServerInv s) {w : ℕ} (hw : s.socket w = .opened) :
    ServerInv { s with socket := update s.socket w .closing } := by
  obtain ⟨hs, ha, hu, ho, hp⟩ := hi
  refine ⟨hs, ha, fun k hk => ?_, ?_, hp⟩
  · by_cases hkw : k = w
    · subst hkw
      simpa [hw] using hu k hk
    · simpa [hkw] using hu k hk
  · grind -linarith -order

theorem ServerStep.serverInv {a : ServerAction} (h : ServerStep parse dump s a s') (hi : ServerInv s) :
    ServerInv s' := by
  cases h with
  | refused | threw => exact ⟨hi.idle, hi.alive, hi.users, hi.opened, hi.peers⟩
  | ignored | notConnected => exact hi
  | registered path => exact hi.registered _
  | frame | dispatched => exact hi.dispatched _ _
  | closing w hw => exact hi.closing hw
  | left w hw => exact hi.left hw
  | disconnected id w hc hw => exact hi.closing hw

end Cases

theorem ServerInv.init (parse : Parse) (dump : Dump) : ServerInv (DcWsSigServer.lts parse dump).init := by
  constructor <;> simp [DcWsSigServer.lts]

theorem ServerInv.reach {parse : Parse} {dump : Dump} {ok : DcWsSigServer → ServerAction → Prop}
    {s : DcWsSigServer} (h : (DcWsSigServer.lts parse dump).Reach ok s) : ServerInv s :=
  h.invariant (.init parse dump) fun hI _ he => (ServerStep.of_step hI he).serverInv hI

end TX.Rtt
