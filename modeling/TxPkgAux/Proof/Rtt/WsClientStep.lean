import TxPkgAux.Impl.Rtt.DcWsSigClient

/-!
# `DcWsSigClient`: what one step can do

`WsStep` lists the steps of a join with what they read and the state they lead to;
`WsStep.of_step` says that there are no others. `WsInv` is what holds in every run: the
user is made once, and nothing is called on it before.
-/

namespace TX.Rtt

/-- The socket after a reference to the user was dropped. -/
def DcWsSigClient.Released (s : DcWsSigClient) (socket : WsState) : Prop :=
  socket = s.socket ∨ s.socket = .opened ∧ socket = .closing

/-- The steps of a join. -/
inductive WsStep (parse : Parse) (s : DcWsSigClient) : WsAction → DcWsSigClient → Prop where
  | opened (hs : s.socket = .connecting) : WsStep parse s .opened { s with socket := .opened }
  | onOpenIgnored (hs : s.socket ≠ .connecting) : WsStep parse s .onOpen s
  | onOpen (hs : s.socket ≠ .connecting) (hf : s.fired = false) :
    WsStep parse s .onOpen { s with fired := true, user := true, held := true, onOpen := some .joining }
  | onErrorIgnored : WsStep parse s .onError s
  | onError (hf : s.fired = false) :
    WsStep parse s .onError { s with fired := true, log := .refused :: s.log }
  | closing (hs : s.socket = .opened) : WsStep parse s .closing { s with socket := .closing }
  | onClosed (hs : s.socket ≠ .closed) : WsStep parse s .onClosed { s with
      socket := .closed
      onClosed := if s.userAlive then .notifying else .returned false }
  | ignored (text : String) : WsStep parse s (.onMessage text) s
  | threw (text : String) : WsStep parse s (.onMessage text) { s with log := .threw :: s.log }
  | passed (text : String) (m : SigMessage) (hs : s.socket = .opened ∨ s.socket = .closing)
      (hd : s.deliver = none) (hu : s.userAlive = true)
      (hr : readFrame parse text = .fields m.src m.payload) :
    WsStep parse s (.onMessage text) { s with
      deliver := some (m, .locking)
      log := .passed m :: s.log }
  | joined (supplied : Bool) (ho : s.onOpen = some .joining) :
    WsStep parse s (.joined supplied) { s with onOpen := some (.locking supplied) }
  | bind {supplied : Bool} (ho : s.onOpen = some (.locking supplied)) (hm : s.unlocked = true) :
    WsStep parse s .onOpenNext { s with
      handler := supplied, pending := [], onOpen := some (.checking s.pending) }
  | replaying {pending : List SigMessage} (ho : s.onOpen = some (.checking pending))
      (hh : s.handlerFound = true) :
    WsStep parse s .onOpenNext { s with onOpen := some (.replaying pending) }
  | unreplayed {pending : List SigMessage} {socket : WsState}
      (ho : s.onOpen = some (.checking pending)) (hh : s.handlerFound = false)
      (hs : s.Released socket) :
    WsStep parse s .onOpenNext { s with onOpen := none, socket }
  | replayed {socket : WsState} (ho : s.onOpen = some (.replaying [])) (hs : s.Released socket) :
    WsStep parse s .onOpenNext { s with onOpen := none, socket }
  | replay {m : SigMessage} {rest : List SigMessage} (ho : s.onOpen = some (.replaying (m :: rest))) :
    WsStep parse s .onOpenNext { s with
      onOpen := some (.replaying rest)
      log := .onMessage m :: s.log }
  | lock {m : SigMessage} (hd : s.deliver = some (m, .locking)) :
    WsStep parse s .deliverNext { s with deliver := some (m, .locked) }
  | call {m : SigMessage} (hd : s.deliver = some (m, .locked)) (hh : s.handlerFound = true) :
    WsStep parse s .deliverNext { s with
      deliver := some (m, .inMessage)
      log := .onMessage m :: s.log }
  | buffer {m : SigMessage} {socket : WsState} (hd : s.deliver = some (m, .locked))
      (hh : s.handlerFound = false) (hs : s.Released socket) :
    WsStep parse s .deliverNext { s with pending := s.pending ++ [m], deliver := none, socket }
  | called {m : SigMessage} {socket : WsState} (hd : s.deliver = some (m, .inMessage))
      (hs : s.Released socket) :
    WsStep parse s .deliverNext { s with deliver := none, socket }
  | closedNotify (hc : s.onClosed = .notifying) (hh : s.handlerFound = true) :
    WsStep parse s .onClosedNext { s with
      onClosed := .returned true
      log := .onLeft (!s.leaving) :: s.log }
  | closedSkip (hc : s.onClosed = .notifying) (hh : s.handlerFound = false) :
    WsStep parse s .onClosedNext { s with onClosed := .returned false }
  | leaveAgain (hl : s.leaving = true) : WsStep parse s .leave s
  | leave (hu : s.user = true) (hl : s.leaving = false) :
    WsStep parse s .leave { s with leaving := true, leave := some .checking }
  | leaveClose (hl : s.leave = some .checking) (hs : s.socket = .opened) :
    WsStep parse s .leaveNext { s with socket := .closing, leave := none }
  | leaveClosed (hl : s.leave = some .checking) (hs : s.socket ≠ .opened) :
    WsStep parse s .leaveNext { s with leave := some .notifying }
  | leaveNotify (hl : s.leave = some .notifying) (hh : s.handlerFound = true) :
    WsStep parse s .leaveNext { s with
      leave := none
      log := .onLeft (!s.leaving) :: s.log }
  | leaveSkip (hl : s.leave = some .notifying) (hh : s.handlerFound = false) :
    WsStep parse s .leaveNext { s with leave := none }
  | sent (dst : PeerId) (payload : String) (hs : s.socket = .opened) :
    WsStep parse s (.send dst payload) { s with log := .sent dst payload :: s.log }
  | unsent (dst : PeerId) (payload : String) (hs : s.socket ≠ .opened) :
    WsStep parse s (.send dst payload) s
  | dropUser {socket : WsState} (hh : s.held = true) (hs : s.Released socket) :
    WsStep parse s .dropUser { s with held := false, socket }
  | dropHandler : WsStep parse s .dropHandler { s with handlerAlive := false }

section Cases

variable {parse : Parse} {s s' : DcWsSigClient}

/-- `~DcWsSigUser` touches the socket only. -/
theorem release_eq (s : DcWsSigClient) : ∃ socket, s.Released socket ∧ s.release = { s with socket } := by
  unfold DcWsSigClient.release
  split
  · rename_i h
    exact ⟨.closing, .inr ⟨h.2.2, rfl⟩, rfl⟩
  · exact ⟨s.socket, .inl rfl, rfl⟩

theorem ws_onMessage_cases (text : String) (hs : s.socket = .opened ∨ s.socket = .closing)
    (hd : s.deliver = none) : WsStep parse s (.onMessage text) (s.onMessage parse text) := by
  simp only [DcWsSigClient.onMessage]
  split
  · split
    · exact .ignored text
    · exact .threw text
    · exact .passed text _ hs hd ‹_› ‹_›
  · exact .ignored text

theorem onOpenNext_cases (he : s.onOpenNext = some s') : WsStep parse s .onOpenNext s' := by
  simp only [DcWsSigClient.onOpenNext] at he
  split at he
  · cases he
  · cases he
  · split at he <;> cases he
    exact .bind ‹_› ‹_›
  · split at he <;> cases he
    · exact .replaying ‹_› ‹_›
    · obtain ⟨socket, hs, he⟩ := release_eq { s with onOpen := none }
      rw [he]
      exact .unreplayed ‹_› (by simpa using ‹¬ s.handlerFound = true›) hs
  · cases he
    obtain ⟨socket, hs, he⟩ := release_eq { s with onOpen := none }
    rw [he]
    exact .replayed ‹_› hs
  · cases he
    exact .replay ‹_›

theorem ws_deliverNext_cases (he : s.deliverNext = some s') : WsStep parse s .deliverNext s' := by
  simp only [DcWsSigClient.deliverNext] at he
  split at he
  · cases he
  · cases he
    exact .lock ‹_›
  · split at he <;> cases he
    · exact .call ‹_› ‹_›
    · obtain ⟨socket, hs, he⟩ := release_eq { s with pending := s.pending ++ [_], deliver := none }
      rw [he]
      exact .buffer ‹_› (by simpa using ‹¬ s.handlerFound = true›) hs
  · cases he
    obtain ⟨socket, hs, he⟩ := release_eq { s with deliver := none }
    rw [he]
    exact .called ‹_› hs

theorem onClosedNext_cases (he : s.onClosedNext = some s') : WsStep parse s .onClosedNext s' := by
  simp only [DcWsSigClient.onClosedNext] at he
  split at he
  · split at he <;> cases he
    · exact .closedNotify ‹_› ‹_›
    · exact .closedSkip ‹_› (by simpa using ‹¬ s.handlerFound = true›)
  · cases he
  · cases he

theorem ws_leaveNext_cases (he : s.leaveNext = some s') : WsStep parse s .leaveNext s' := by
  simp only [DcWsSigClient.leaveNext] at he
  split at he
  · cases he
  · split at he <;> cases he
    · exact .leaveClose ‹_› ‹_›
    · exact .leaveClosed ‹_› ‹_›
  · split at he <;> cases he
    · exact .leaveNotify ‹_› ‹_›
    · exact .leaveSkip ‹_› (by simpa using ‹¬ s.handlerFound = true›)

end Cases

theorem WsStep.of_step {parse : Parse} {s s' : DcWsSigClient} {a : WsAction}
    (he : s.step parse a = some s') : WsStep parse s a s' := by
  cases a with
  | onOpenNext => exact onOpenNext_cases he
  | deliverNext => exact ws_deliverNext_cases he
  | onClosedNext => exact onClosedNext_cases he
  | leaveNext => exact ws_leaveNext_cases he
  | dropHandler =>
    cases he
    exact .dropHandler
  | onError =>
    simp only [DcWsSigClient.step] at he
    split at he <;> cases he
    · exact .onErrorIgnored
    · exact .onError (by simpa using ‹¬ s.fired = true›)
  | opened =>
    simp only [DcWsSigClient.step] at he
    split at he <;> cases he
    exact .opened ‹_›
  | onOpen =>
    simp only [DcWsSigClient.step] at he
    split at he <;> [skip; cases he]
    split at he <;> cases he
    · exact .onOpenIgnored ‹_›
    · exact .onOpen ‹_› (by simpa using ‹¬ s.fired = true›)
  | closing =>
    simp only [DcWsSigClient.step] at he
    split at he <;> cases he
    exact .closing ‹_›
  | onClosed =>
    simp only [DcWsSigClient.step] at he
    split at he <;> cases he
    exact .onClosed ‹_›
  | onMessage text =>
    simp only [DcWsSigClient.step] at he
    split at he <;> cases he
    rename_i h
    exact ws_onMessage_cases text h.1 h.2
  | joined supplied =>
    simp only [DcWsSigClient.step] at he
    split at he <;> cases he
    exact .joined supplied ‹_›
  | leave =>
    simp only [DcWsSigClient.step] at he
    split at he <;> [skip; cases he]
    rename_i h
    split at he <;> cases he
    · exact .leaveAgain ‹_›
    · exact .leave h.1 (by simpa using ‹¬ s.leaving = true›)
  | send dst payload =>
    simp only [DcWsSigClient.step] at he
    split at he <;> [skip; cases he]
    split at he <;> cases he
    · exact .sent dst payload ‹_›
    · exact .unsent dst payload ‹_›
  | dropUser =>
    simp only [DcWsSigClient.step] at he
    split at he <;> cases he
    obtain ⟨socket, hs, he⟩ := release_eq { s with held := false }
    rw [he]
    exact .dropUser ‹_› hs

structure WsInv (s : DcWsSigClient) : Prop where
  fired : s.fired = false → s.user = false
  unmade : s.user = false → s.onOpen = none ∧ s.deliver = none ∧ s.leave = none ∧ s.handler = false
  closed : s.onClosed ≠ .idle → s.socket = .closed

theorem WsStep.wsInv {parse : Parse} {s s' : DcWsSigClient} {a : WsAction} (h : WsStep parse s a s')
    (hi : WsInv s) : WsInv s' := by
  obtain ⟨hf, hu, hc⟩ := hi
  cases h <;> constructor <;> grind -linarith -order [DcWsSigClient.userAlive, DcWsSigClient.Released]

theorem WsInv.init (parse : Parse) (id : PeerId) : WsInv (DcWsSigClient.lts parse id).init := by
  constructor <;> simp [DcWsSigClient.lts]

/-! ## Runs -/

namespace DcWsSigClient

/-- `json::parse` on the frames of the runs below. -/
def sampleFrames : Parse
  | "\x7b\"id\":\"b\",\"payload\":\"m\"\x7d" => some (envelope ⟨"b"⟩ "m")
  | "\x7b\"id\":\"b\",\"payload\":\"n\"\x7d" => some (envelope ⟨"b"⟩ "n")
  | _ => none

/-- A frame with a message of the peer `b`. -/
def frameOf (payload : String) : WsAction :=
  .onMessage ("\x7b\"id\":\"b\",\"payload\":\"" ++ payload ++ "\"\x7d")

/-- The join of the peer `a`. -/
abbrev sample : Lts DcWsSigClient WsAction := lts sampleFrames ⟨"a"⟩

end DcWsSigClient

end TX.Rtt
