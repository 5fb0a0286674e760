import TxPkgAux.Proof.Rtt.WsClientStep

/-!
# `DcWsSigClient`: the order of messages

`SetHandler` takes the buffer under the mutex and replays it after it released it, so a
`Deliver` that comes in between overtakes the replay. `ReplayFirst` is the condition that
none does, and `ws_onMessage_in_order` says that then the handler is given the messages in
the order they were passed to `Deliver`; `ws_onMessage_overtaken` is a `Deliver` between the
two halves of `SetHandler`. `WsStep.flow` is what a step does to the messages on their way.
-/

namespace TX.Rtt

def WsEvent.passedOf : WsEvent → Option SigMessage
  | .passed m => some m
  | _ => none

def WsEvent.onMessageOf : WsEvent → Option SigMessage
  | .onMessage m => some m
  | _ => none

namespace DcWsSigClient

/-- The messages passed to `Deliver`, in order. -/
def passed (s : DcWsSigClient) : List SigMessage := (s.log.filterMap WsEvent.passedOf).reverse

/-- The messages of the `OnMessage` calls of the handler, in order. -/
def messages (s : DcWsSigClient) : List SigMessage := (s.log.filterMap WsEvent.onMessageOf).reverse

/-- What `SetHandler` took from the buffer and has yet to replay. -/
def replayRest (s : DcWsSigClient) : List SigMessage :=
  match s.onOpen with
  | some (.checking rest) | some (.replaying rest) => rest
  | _ => []

/-- The message that `Deliver` has yet to hand over, or to buffer. -/
def delivering (s : DcWsSigClient) : List SigMessage :=
  match s.deliver with
  | some (m, .locking) | some (m, .locked) => [m]
  | _ => []

/-- `SetHandler` is yet to bind a handler. -/
def Unbound (s : DcWsSigClient) : Prop :=
  s.user = false ∨ s.onOpen = some .joining ∨ ∃ supplied, s.onOpen = some (.locking supplied)

/-- The messages passed to `Deliver` that are on their way to the handler. -/
def undelivered (s : DcWsSigClient) : List SigMessage := s.replayRest ++ s.pending ++ s.delivering

/-- The handler is bound or yet to be bound, and was not destroyed. -/
def Kept (s : DcWsSigClient) : Prop := s.handlerAlive = true ∧ (s.handler = true ∨ s.Unbound)

end DcWsSigClient

/-- `Deliver` calls a handler only if the replay is over. -/
def ReplayFirst (s : DcWsSigClient) : WsAction → Prop
  | .deliverNext => ∀ m, s.deliver = some (m, .locked) → s.handlerFound = true → s.replayRest = []
  | _ => True

/-- The messages passed to `Deliver` are those handed over, then those yet to be
replayed, then the buffer, then the one of the `Deliver` in progress. -/
structure WsOrdered (s : DcWsSigClient) : Prop where
  base : WsInv s
  empty : s.handlerFound = true → s.pending = []
  order : s.handlerAlive = true → s.handler = true ∨ s.Unbound →
    s.passed = s.messages ++ s.replayRest ++ s.pending ++ s.delivering

/-- What a step does to the messages on their way to the handler. -/
inductive WsFlow (s : DcWsSigClient) (a : WsAction) (s' : DcWsSigClient) : Prop where
  | same (hm : s'.messages = s.messages) (hp : s'.passed = s.passed)
      (hu : s'.undelivered = s.undelivered)
  | passed (m : SigMessage) (hm : s'.messages = s.messages) (hp : s'.passed = s.passed ++ [m])
      (hu : s'.undelivered = s.undelivered ++ [m])
  /-- `SetHandler` hands over the first message it took. -/
  | replayed (m : SigMessage) (hm : s'.messages = s.messages ++ [m]) (hp : s'.passed = s.passed)
      (hu : s.undelivered = m :: s'.undelivered)
  /-- `Deliver` hands over its own message. -/
  | called (m : SigMessage) (ha : a = .deliverNext) (hd : s.deliver = some (m, .locked))
      (hh : s.handlerFound = true) (hm : s'.messages = s.messages ++ [m])
      (hp : s'.passed = s.passed) (hu : s.undelivered = s'.undelivered ++ [m])
      (hq : s'.undelivered = s.replayRest ++ s.pending)
  /-- `SetHandler` bound no handler that is alive, and drops what it took. -/
  | dropped (rest : List SigMessage) (hk : ¬ s'.Kept) (hm : s'.messages = s.messages)
      (hp : s'.passed = s.passed) (hu : s.undelivered = rest ++ s'.undelivered)

section Step

variable {parse : Parse} {s s' : DcWsSigClient} {a : WsAction}

theorem WsStep.flow (h : WsStep parse s a s') (hi : WsInv s) : WsFlow s a s' := by
  cases h with
  | onOpen hs hf =>
    have hnone : s.onOpen = none := (hi.unmade (hi.fired hf)).1
    exact .same rfl rfl (by simp [DcWsSigClient.undelivered, DcWsSigClient.replayRest,
      DcWsSigClient.delivering, hnone])
  | passed text m hs hd hu hr =>
    refine .passed m rfl (by simp [DcWsSigClient.passed, WsEvent.passedOf]) ?_
    simp [DcWsSigClient.undelivered, DcWsSigClient.replayRest, DcWsSigClient.delivering, hd]
  | joined supplied ho | bind ho | replaying ho =>
    exact .same rfl rfl (by simp [DcWsSigClient.undelivered, DcWsSigClient.replayRest,
      DcWsSigClient.delivering, ho])
  | unreplayed ho hh hs =>
    refine .dropped s.replayRest (fun hk => ?_) rfl rfl (List.append_assoc _ _ _)
    have hbound : s.handler = true := by
      refine hk.2.resolve_right fun hn => ?_
      have huser : s.user = false := by simpa [DcWsSigClient.Unbound] using hn
      cases (hi.unmade huser).1.symm.trans ho
    have hfound : s.handlerFound = true := by
      rw [DcWsSigClient.handlerFound, hbound]
      exact hk.1
    cases hh.symm.trans hfound
  | replayed ho hs =>
    exact .same rfl rfl (by simp [DcWsSigClient.undelivered, DcWsSigClient.replayRest,
      DcWsSigClient.delivering, ho])
  | @replay m rest ho =>
    refine .replayed m (by simp [DcWsSigClient.messages, WsEvent.onMessageOf]) rfl ?_
    simp [DcWsSigClient.undelivered, DcWsSigClient.replayRest, DcWsSigClient.delivering, ho]
  | lock hd =>
    exact .same rfl rfl (by simp [DcWsSigClient.undelivered, DcWsSigClient.replayRest,
      DcWsSigClient.delivering, hd])
  | @call m hd hh =>
    refine .called m rfl hd hh (by simp [DcWsSigClient.messages, WsEvent.onMessageOf]) rfl ?_ ?_
    · simp [DcWsSigClient.undelivered, DcWsSigClient.replayRest, DcWsSigClient.delivering, hd]
    · simp [DcWsSigClient.undelivered, DcWsSigClient.replayRest, DcWsSigClient.delivering]
  | buffer hd hh hs | called hd hs =>
    exact .same rfl rfl (by simp [DcWsSigClient.undelivered, DcWsSigClient.replayRest,
      DcWsSigClient.delivering, hd])
  | _ => exact .same rfl rfl rfl

/-- A handler that is there was there before. -/
theorem WsStep.kept (h : WsStep parse s a s') (hb : WsInv s) (hk : s'.Kept) : s.Kept := by
  obtain ⟨ha, hk⟩ := hk
  cases h with
  | onOpen hs hf => exact ⟨ha, .inr (.inl (hb.fired hf))⟩
  | joined supplied ho => exact ⟨ha, .inr (.inr (.inl ho))⟩
  | bind ho => exact ⟨ha, .inr (.inr (.inr ⟨_, ho⟩))⟩
  | replaying | unreplayed | replayed | replay =>
    exact ⟨ha, hk.imp_right fun hn => .inl (by simpa [DcWsSigClient.Unbound] using hn)⟩
  | dropHandler => cases ha
  | _ => exact ⟨ha, hk⟩

theorem WsStep.unbound (h : WsStep parse s a s') (hb : WsInv s) (hold : s.Unbound → s.handler = false)
    (hn : s'.Unbound) : s'.handler = false := by
  cases h with
  | onOpen hs hf => exact (hb.unmade (hb.fired hf)).2.2.2
  | joined supplied ho => exact hold (.inr (.inl ho))
  | bind ho =>
    have huser : s.user = false := by simpa [DcWsSigClient.Unbound] using hn
    cases (hb.unmade huser).1.symm.trans ho
  | replaying | unreplayed | replayed | replay =>
    exact hold (.inl (by simpa [DcWsSigClient.Unbound] using hn))
  | _ => exact hold hn

theorem WsStep.empty (h : WsStep parse s a s') (hold : s.handlerFound = true → s.pending = [])
    (hh : s'.handlerFound = true) : s'.pending = [] := by
  cases h with
  | bind ho => rfl
  | buffer hd hn hs => cases hn.symm.trans hh
  | dropHandler => simp [DcWsSigClient.handlerFound] at hh
  | _ => exact hold hh

theorem WsStep.order (h : WsStep parse s a s') (hi : WsOrdered s) (hok : ReplayFirst s a)
    (ha : s'.handlerAlive = true) (hb : s'.handler = true ∨ s'.Unbound) :
    s'.passed = s'.messages ++ s'.replayRest ++ s'.pending ++ s'.delivering := by
  obtain ⟨ha₀, hb₀⟩ := h.kept hi.base ⟨ha, hb⟩
  have hold : s.passed = s.messages ++ s.undelivered := by
    simpa [DcWsSigClient.undelivered] using hi.order ha₀ hb₀
  suffices hnew : s'.passed = s'.messages ++ s'.undelivered by
    simpa [DcWsSigClient.undelivered] using hnew
  cases h.flow hi.base with
  | same hm hp hu => rw [hm, hp, hu, hold]
  | passed m hm hp hu => rw [hm, hp, hu, hold, List.append_assoc]
  | replayed m hm hp hu => rw [hm, hp, hold, hu, List.append_assoc, List.singleton_append]
  | called m ha hd hh hm hp hu hq =>
    -- nothing is ahead of the message
    subst ha
    have hnil : s'.undelivered = [] := by rw [hq, hok m hd hh, hi.empty hh, List.append_nil]
    rw [hm, hp, hold, hu, hnil, List.nil_append, List.append_nil]
  | dropped rest hk hm hp hu => exact absurd ⟨ha, hb⟩ hk

end Step

theorem WsOrdered.reach {parse : Parse} {id : PeerId} {s : DcWsSigClient}
    (h : (DcWsSigClient.lts parse id).Reach ReplayFirst s) : WsOrdered s := by
  refine h.invariant ⟨.init parse id, fun _ => rfl, fun _ _ => rfl⟩ fun hI hok he => ?_
  have hstep := WsStep.of_step he
  exact ⟨hstep.wsInv hI.base, hstep.empty hI.empty, hstep.order hI hok⟩

/-- In a run in which no `Deliver` overtakes the replay, a handler that stayed alive is
given the messages in the order they were passed to `Deliver`: a prefix of them, and all
of them when `SetHandler` has returned and no `Deliver` is in progress. -/
theorem ws_onMessage_in_order {parse : Parse} {id : PeerId} {s : DcWsSigClient}
    (h : (DcWsSigClient.lts parse id).Reach ReplayFirst s) (hh : s.handler = true)
    (ha : s.handlerAlive = true) :
    s.messages <+: s.passed ∧ (s.onOpen = none → s.deliver = none → s.messages = s.passed) := by
  have hi := WsOrdered.reach h
  have heq := hi.order ha (.inl hh)
  refine ⟨?_, fun ho hd => ?_⟩
  · rw [heq, List.append_assoc, List.append_assoc]
    exact List.prefix_append _ _
  · have hp : s.pending = [] := hi.empty (by simp [DcWsSigClient.handlerFound, hh, ha])
    simp [heq, DcWsSigClient.replayRest, DcWsSigClient.delivering, ho, hd, hp]

instance (s : DcWsSigClient) (a : WsAction) : Decidable (ReplayFirst s a) :=
  match a with
  | .deliverNext =>
    match hd : s.deliver with
    | some (_, .locked) => decidable_of_iff (s.handlerFound = true → s.replayRest = [])
        ⟨fun h _ _ => h, fun h => h _ hd⟩
    | some (_, .locking) | some (_, .inMessage) | none => .isTrue fun m hm => by simp [hd] at hm
  | .opened | .onOpen | .onError | .closing | .onClosed | .onMessage _ | .joined _ | .onOpenNext
  | .onClosedNext | .leave | .leaveNext | .send _ _ | .dropUser | .dropHandler => .isTrue trivial

open DcWsSigClient (sample frameOf)

/-- A message during the join, which is replayed, and one after it. -/
theorem ws_onMessage_in_order_replayed : ∃ s, sample.Reach ReplayFirst s ∧
    s.messages = [⟨⟨"b"⟩, "m"⟩, ⟨⟨"b"⟩, "n"⟩] ∧ s.messages = s.passed := by
  obtain ⟨s, hs, hq⟩ := Lts.Reach.of_run sample ReplayFirst
    [.opened, .onOpen, frameOf "m", .deliverNext, .deliverNext, .joined true, .onOpenNext,
      .onOpenNext, .onOpenNext, .onOpenNext, frameOf "n", .deliverNext, .deliverNext, .deliverNext]
    (fun s => s.handler = true ∧ s.handlerAlive = true ∧ s.onOpen = none ∧ s.deliver = none ∧
      s.messages = [⟨⟨"b"⟩, "m"⟩, ⟨⟨"b"⟩, "n"⟩]) (by decide +kernel)
  obtain ⟨hh, ha, ho, hd, hm⟩ := of_decide_eq_true hq
  exact ⟨s, hs, hm, (ws_onMessage_in_order hs hh ha).2 ho hd⟩

/-- A message is buffered during the join. `SetHandler` takes it, and before it is replayed
the next one is delivered: the handler is given the second message first. -/
theorem ws_onMessage_overtaken : ∃ s, sample.Reach Lts.Any s ∧ s.handler = true ∧
    s.handlerAlive = true ∧ s.onOpen = none ∧ s.deliver = none ∧
    s.passed = [⟨⟨"b"⟩, "m"⟩, ⟨⟨"b"⟩, "n"⟩] ∧ s.messages = [⟨⟨"b"⟩, "n"⟩, ⟨⟨"b"⟩, "m"⟩] := by
  obtain ⟨s, hs, hq⟩ := Lts.Reach.of_run sample Lts.Any
    [.opened, .onOpen, frameOf "m", .deliverNext, .deliverNext, .joined true, .onOpenNext,
      frameOf "n", .deliverNext, .deliverNext, .deliverNext, .onOpenNext, .onOpenNext, .onOpenNext]
    (fun s => s.handler = true ∧ s.handlerAlive = true ∧ s.onOpen = none ∧ s.deliver = none ∧
      s.passed = [⟨⟨"b"⟩, "m"⟩, ⟨⟨"b"⟩, "n"⟩] ∧ s.messages = [⟨⟨"b"⟩, "n"⟩, ⟨⟨"b"⟩, "m"⟩])
    (by decide +kernel)
  exact ⟨s, hs, of_decide_eq_true hq⟩

end TX.Rtt
