import TxPkgAux.Proof.Rtt.WsClientOrder

/-!
# `DcWsSigClient`: every message once

Whatever the order, a message passed to `Deliver` is with the handler, or in the buffer, in
the replay or in the `Deliver` in progress (`WsConserved`): once where the handler was kept
alive, and at most once in any run. `delivered_all` says that what is underway reaches a
handler that is kept, by steps of the client alone.
-/

namespace TX.Rtt

structure WsConserved (s : DcWsSigClient) : Prop where
  base : WsInv s
  unbound : s.Unbound → s.handler = false
  empty : s.handlerFound = true → s.pending = []
  atMost : ∀ m, s.messages.count m + s.undelivered.count m ≤ s.passed.count m
  exact : s.Kept → ∀ m, s.messages.count m + s.undelivered.count m = s.passed.count m

section Step

variable {parse : Parse} {s s' : DcWsSigClient} {a : WsAction}

theorem WsStep.atMost (h : WsStep parse s a s') (hi : WsConserved s) (m : SigMessage) :
    s'.messages.count m + s'.undelivered.count m ≤ s'.passed.count m := by
  have hold := hi.atMost m
  cases h.flow hi.base with
  | same hm hp hu => rw [hm, hp, hu]; exact hold
  | passed m' hm hp hu =>
    rw [hm, hp, hu, List.count_append, List.count_append]
    omega
  | replayed m' hm hp hu =>
    rw [hu, ← List.singleton_append, List.count_append] at hold
    rw [hm, hp, List.count_append]
    omega
  | called m' ha hd hh hm hp hu hq =>
    rw [hu, List.count_append] at hold
    rw [hm, hp, List.count_append]
    omega
  | dropped rest hk hm hp hu =>
    rw [hu, List.count_append] at hold
    rw [hm, hp]
    omega

theorem WsStep.exact (h : WsStep parse s a s') (hi : WsConserved s) (hk : s'.Kept) (m : SigMessage) :
    s'.messages.count m + s'.undelivered.count m = s'.passed.count m := by
  have hold := hi.exact (h.kept hi.base hk) m
  cases h.flow hi.base with
  | same hm hp hu => rw [hm, hp, hu]; exact hold
  | passed m' hm hp hu =>
    rw [hm, hp, hu, List.count_append, List.count_append]
    omega
  | replayed m' hm hp hu =>
    rw [hu, ← List.singleton_append, List.count_append] at hold
    rw [hm, hp, List.count_append]
    omega
  | called m' ha hd hh hm hp hu hq =>
    rw [hu, List.count_append] at hold
    rw [hm, hp, List.count_append]
    omega
  | dropped rest hn hm hp hu => exact absurd hk hn

end Step

theorem WsConserved.init (parse : Parse) (id : PeerId) :
    WsConserved (DcWsSigClient.lts parse id).init :=
  ⟨.init parse id, fun _ => rfl, fun _ => rfl, fun _ => Nat.le_refl _, fun _ _ => rfl⟩

theorem WsStep.conserved {parse : Parse} {s s' : DcWsSigClient} {a : WsAction}
    (h : WsStep parse s a s') (hi : WsConserved s) : WsConserved s' :=
  ⟨h.wsInv hi.base, h.unbound hi.base hi.unbound, h.empty hi.empty, h.atMost hi, h.exact hi⟩

/-! ## Progress -/

/-- The steps that bring a message to the handler: those of `onOpen`, whose factory
supplies a handler, and of `Deliver`. -/
def Delivering (_ : DcWsSigClient) : WsAction → Prop
  | .joined supplied => supplied = true
  | .onOpenNext | .deliverNext => True
  | _ => False

/-- The callers keep the user and the handler, which is bound or about to be. -/
structure Receiving (s : DcWsSigClient) : Prop where
  user : s.user = true
  held : s.held = true
  alive : s.handlerAlive = true
  bound : s.handler = true ∨ s.onOpen = some .joining ∨ s.onOpen = some (.locking true)

/-- `s'` is reached from `s` by such steps, with the user and the handler still there. -/
structure Advances (parse : Parse) (id : PeerId) (s s' : DcWsSigClient) : Prop where
  path : (DcWsSigClient.lts parse id).Path Delivering s s'
  passed : s'.passed = s.passed
  socket : s'.socket = s.socket
  receiving : Receiving s'

section Progress

variable {parse : Parse} {id : PeerId} {s s' s'' : DcWsSigClient}

theorem Advances.refl (h : Receiving s) : Advances parse id s s := ⟨.refl s, rfl, rfl, h⟩

theorem Advances.trans (h : Advances parse id s s') (h' : Advances parse id s' s'') :
    Advances parse id s s'' :=
  ⟨h.path.trans h'.path, h'.passed.trans h.passed, h'.socket.trans h.socket, h'.receiving⟩

theorem Advances.single {a : WsAction} (he : s.step parse a = some s') (ha : Delivering s a)
    (hp : s'.passed = s.passed) (hs : s'.socket = s.socket) (hr : Receiving s') :
    Advances parse id s s' := ⟨.tail (.refl s) ha he, hp, hs, hr⟩

theorem release_held (hu : s.user = true) (hh : s.held = true) : s.release = s := by
  simp [DcWsSigClient.release, DcWsSigClient.userAlive, hu, hh]

theorem Receiving.of_handler (h : Receiving s) (hu : s'.user = s.user) (hh : s'.held = s.held)
    (ha : s'.handlerAlive = s.handlerAlive) (hb : s'.handler = true) : Receiving s' :=
  ⟨hu.trans h.user, hh.trans h.held, ha.trans h.alive, .inl hb⟩

/-- A `Deliver` returns from the handler. -/
theorem inMessage_returns {m : SigMessage} (h : Receiving s) (hd : s.deliver = some (m, .inMessage)) :
    ∃ s', Advances parse id s s' ∧ s'.deliver = none ∧ s'.onOpen = s.onOpen := by
  refine ⟨{ s with deliver := none }, .single (a := .deliverNext) ?_ trivial rfl rfl ?_, rfl, rfl⟩
  · simp [DcWsSigClient.step, DcWsSigClient.deliverNext, hd, release_held, h.user, h.held]
  · exact ⟨h.user, h.held, h.alive, h.bound⟩

/-- A `Deliver` that holds the lock returns. -/
theorem locked_returns {m : SigMessage} (h : Receiving s) (hd : s.deliver = some (m, .locked)) :
    ∃ s', Advances parse id s s' ∧ s'.deliver = none ∧ s'.onOpen = s.onOpen := by
  by_cases hf : s.handlerFound = true
  · have hr : Receiving ({ s with deliver := some (m, .inMessage) }.emit (.onMessage m)) :=
      ⟨h.user, h.held, h.alive, h.bound⟩
    have h₁ : Advances parse id s ({ s with deliver := some (m, .inMessage) }.emit (.onMessage m)) := by
      refine .single (a := .deliverNext) ?_ trivial rfl rfl hr
      simp [DcWsSigClient.step, DcWsSigClient.deliverNext, hd, hf]
    obtain ⟨s', ha, hs'⟩ := inMessage_returns hr rfl
    exact ⟨s', h₁.trans ha, hs'⟩
  · refine ⟨{ s with pending := s.pending ++ [m], deliver := none },
      .single (a := .deliverNext) ?_ trivial rfl rfl ?_, rfl, rfl⟩
    · simp [DcWsSigClient.step, DcWsSigClient.deliverNext, hd, hf, release_held, h.user, h.held]
    · exact ⟨h.user, h.held, h.alive, h.bound⟩

/-- The `Deliver` in progress returns. -/
theorem deliver_returns (h : Receiving s) :
    ∃ s', Advances parse id s s' ∧ s'.deliver = none ∧ s'.onOpen = s.onOpen := by
  cases hd : s.deliver with
  | none => exact ⟨s, .refl h, hd, rfl⟩
  | some c =>
    obtain ⟨m, pc⟩ := c
    cases pc with
    | locking =>
      have hr : Receiving { s with deliver := some (m, .locked) } := ⟨h.user, h.held, h.alive, h.bound⟩
      have h₁ : Advances parse id s { s with deliver := some (m, .locked) } := by
        refine .single (a := .deliverNext) ?_ trivial rfl rfl hr
        simp [DcWsSigClient.step, DcWsSigClient.deliverNext, hd]
      obtain ⟨s', ha, hs'⟩ := locked_returns hr rfl
      exact ⟨s', h₁.trans ha, hs'⟩
    | locked => exact locked_returns h hd
    | inMessage => exact inMessage_returns h hd

/-- `onOpen` has returned, no `Deliver` is in progress, and the handler is bound. -/
def Settled (s : DcWsSigClient) : Prop := s.deliver = none ∧ s.onOpen = none ∧ s.handler = true

/-- The replay ends. -/
theorem replay_ends (rest : List SigMessage) (h : Receiving s) (hh : s.handler = true)
    (hd : s.deliver = none) (ho : s.onOpen = some (.replaying rest)) :
    ∃ s', Advances parse id s s' ∧ Settled s' := by
  induction rest generalizing s with
  | nil =>
    refine ⟨{ s with onOpen := none }, .single (a := .onOpenNext) ?_ trivial rfl rfl ?_, hd, rfl, hh⟩
    · simp [DcWsSigClient.step, DcWsSigClient.onOpenNext, ho, release_held, h.user, h.held]
    · exact h.of_handler rfl rfl rfl hh
  | cons m rest ih =>
    have hr : Receiving ({ s with onOpen := some (.replaying rest) }.emit (.onMessage m)) :=
      h.of_handler rfl rfl rfl hh
    have h₁ : Advances parse id s ({ s with onOpen := some (.replaying rest) }.emit (.onMessage m)) := by
      refine .single (a := .onOpenNext) ?_ trivial rfl rfl hr
      simp [DcWsSigClient.step, DcWsSigClient.onOpenNext, ho]
    obtain ⟨s', ha, hs'⟩ := ih hr hh hd rfl
    exact ⟨s', h₁.trans ha, hs'⟩

theorem checking_ends {pending : List SigMessage} (h : Receiving s) (hh : s.handler = true)
    (hd : s.deliver = none) (ho : s.onOpen = some (.checking pending)) :
    ∃ s', Advances parse id s s' ∧ Settled s' := by
  have hr : Receiving { s with onOpen := some (.replaying pending) } := h.of_handler rfl rfl rfl hh
  have h₁ : Advances parse id s { s with onOpen := some (.replaying pending) } := by
    refine .single (a := .onOpenNext) ?_ trivial rfl rfl hr
    simp [DcWsSigClient.step, DcWsSigClient.onOpenNext, ho, DcWsSigClient.handlerFound, hh, h.alive]
  obtain ⟨s', ha, hs'⟩ := replay_ends pending hr hh hd rfl
  exact ⟨s', h₁.trans ha, hs'⟩

theorem locking_ends (h : Receiving s) (hd : s.deliver = none) (ho : s.onOpen = some (.locking true)) :
    ∃ s', Advances parse id s s' ∧ Settled s' := by
  have hr : Receiving { s with handler := true, pending := [], onOpen := some (.checking s.pending) } :=
    h.of_handler rfl rfl rfl rfl
  have h₁ : Advances parse id s
      { s with handler := true, pending := [], onOpen := some (.checking s.pending) } := by
    refine .single (a := .onOpenNext) ?_ trivial rfl rfl hr
    simp [DcWsSigClient.step, DcWsSigClient.onOpenNext, ho, DcWsSigClient.unlocked, hd]
  obtain ⟨s', ha, hs'⟩ := checking_ends hr rfl hd rfl
  exact ⟨s', h₁.trans ha, hs'⟩

theorem joining_ends (h : Receiving s) (hd : s.deliver = none) (ho : s.onOpen = some .joining) :
    ∃ s', Advances parse id s s' ∧ Settled s' := by
  have hr : Receiving { s with onOpen := some (.locking true) } :=
    ⟨h.user, h.held, h.alive, .inr (.inr rfl)⟩
  have h₁ : Advances parse id s { s with onOpen := some (.locking true) } := by
    refine .single (a := .joined true) ?_ rfl rfl rfl hr
    simp [DcWsSigClient.step, ho]
  obtain ⟨s', ha, hs'⟩ := locking_ends hr hd rfl
  exact ⟨s', h₁.trans ha, hs'⟩

/-- `onOpen` returns. -/
theorem onOpen_returns (h : Receiving s) (hd : s.deliver = none) (hn : s.Unbound → s.handler = false) :
    ∃ s', Advances parse id s s' ∧ Settled s' := by
  have hb := h.bound
  unfold DcWsSigClient.Unbound at hn
  cases ho : s.onOpen with
  | none => exact ⟨s, .refl h, hd, ho, by simpa [ho] using hb⟩
  | some pc =>
    cases pc with
    | joining => exact joining_ends h hd ho
    | locking supplied =>
      cases supplied with
      | true => exact locking_ends h hd ho
      | false => simp_all
    | checking pending => exact checking_ends h (by simpa [ho] using hb) hd ho
    | replaying rest => exact replay_ends rest h (by simpa [ho] using hb) hd ho

theorem Advances.conserved (h : Advances parse id s s') (hi : WsConserved s) : WsConserved s' :=
  h.path.invariant hi fun hI _ he => (WsStep.of_step he).conserved hI

/-- What was passed to `Deliver` reaches a handler that is kept. -/
theorem delivered_all (h : Receiving s) (hi : WsConserved s) :
    ∃ s', Advances parse id s s' ∧ Settled s' ∧ s'.undelivered = [] := by
  obtain ⟨s₁, h₁, hd₁, -⟩ : ∃ s', Advances parse id s s' ∧ s'.deliver = none ∧ s'.onOpen = s.onOpen :=
    deliver_returns h
  obtain ⟨s₂, h₂, hd, ho, hh⟩ : ∃ s', Advances parse id s₁ s' ∧ Settled s' :=
    onOpen_returns h₁.receiving hd₁ (h₁.conserved hi).unbound
  have hadv := h₁.trans h₂
  refine ⟨s₂, hadv, ⟨hd, ho, hh⟩, ?_⟩
  have hp : s₂.pending = [] := (hadv.conserved hi).empty (by
    simp [DcWsSigClient.handlerFound, hh, hadv.receiving.alive])
  simp [DcWsSigClient.undelivered, DcWsSigClient.replayRest, DcWsSigClient.delivering, hd, ho, hp]

end Progress

end TX.Rtt
