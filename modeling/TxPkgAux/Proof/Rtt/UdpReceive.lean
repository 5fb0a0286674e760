import TxPkgAux.Proof.Rtt.UdpServer

/-!
# `UdpLink`: after `Disconnect`

In shared mode `DeliverReceived` looks at `_closed` before it calls `onReceived`. In
connected mode the handler of `DoReceive` does not: a datagram that was received before
`Disconnect` closed the socket, and whose handler runs after it, is still handed over.
`ReceivedOpen` is the condition that none is, and `never_received_after` says that then no
datagram comes after `Disconnect`, in either mode; `received_after_disconnect` is a handler
that was queued.
-/

namespace TX.Rtt.Udp

open Function (update)

/-- `Disconnect` is called, or calls `onDisconnected`. -/
def LinkEvent.ends : LinkEvent → Bool
  | .disconnect | .onDisconnected => true
  | .onReceived _ => false

/-- `Disconnect` is called on the link, or calls its `onDisconnected`. -/
def ServerEvent.ends (l : Nat) : ServerEvent → Bool
  | .disconnect l' | .onDisconnected l' => l' = l
  | _ => false

/-! ## Connected mode -/

/-- The handler of `DoReceive` runs with a datagram only if the link is not closed. -/
def ReceivedOpen (s : ConnectedLink) : LinkAction → Prop
  | .complete => ∀ data, s.receive = .queued data → s.link.handler.onReceived = true →
    s.link.closed = false
  | _ => True

/-- What a step adds to the log. -/
inductive Logged (s : ConnectedLink) : LinkAction → ConnectedLink → Prop where
  | none {a : LinkAction} {s' : ConnectedLink} (hl : s'.log = s.log)
      (hc : s.link.closed = true → s'.link.closed = true) : Logged s a s'
  | received {s' : ConnectedLink} (data : Datagram) (hq : s.receive = .queued data)
      (hr : s.link.handler.onReceived = true) (hl : s'.log = .onReceived data :: s.log) :
    Logged s .complete s'
  | ended {a : LinkAction} {s' : ConnectedLink} (es : List LinkEvent)
      (he : ∀ e ∈ es, e.ends = true) (hl : s'.log = es ++ s.log) (hc : s'.link.closed = true) :
    Logged s a s'

section Connected

variable {s s' : ConnectedLink} {a : LinkAction}

theorem disconnect_logged (s : ConnectedLink) : ∃ es : List LinkEvent, (∀ e ∈ es, e.ends = true) ∧
    s.disconnect.log = es ++ s.log ∧ s.disconnect.link.closed = true := by
  simp only [ConnectedLink.disconnect]
  split
  · exact ⟨[.disconnect], by simp [LinkEvent.ends], rfl, ‹_›⟩
  · split
    · exact ⟨[.onDisconnected, .disconnect], by simp [LinkEvent.ends], rfl, rfl⟩
    · exact ⟨[.disconnect], by simp [LinkEvent.ends], rfl, rfl⟩

theorem Logged.of_step (he : s.step a = some s') : Logged s a s' := by
  cases a with
  | startReceive h =>
    simp only [ConnectedLink.step] at he
    split at he <;> cases he
    exact .none rfl id
  | arrive data | fail | ret =>
    simp only [ConnectedLink.step] at he
    split at he <;> cases he
    exact .none rfl id
  | disconnect =>
    cases he
    obtain ⟨es, hes, hl, hc⟩ := disconnect_logged s
    exact .ended es hes hl hc
  | complete =>
    simp only [ConnectedLink.step, ConnectedLink.complete] at he
    split at he
    · split at he <;> cases he
      · exact .none rfl id
      · obtain ⟨es, hes, hl, hc⟩ := disconnect_logged { s with receive := .idle }
        exact .ended es hes hl hc
    · split at he <;> cases he
      · exact .received _ ‹_› ‹_› rfl
      · exact .none rfl id
    all_goals cases he

/-- A link that was disconnected is closed, and nothing is received after that. -/
structure ClosedInv (s : ConnectedLink) : Prop where
  closed : ∀ e ∈ s.log, e.ends = true → s.link.closed = true
  order : s.log.Pairwise fun e e' => e'.ends = true → e.ends = true

theorem Logged.closedInv (h : Logged s a s') (hi : ClosedInv s) (ho : ReceivedOpen s a) :
    ClosedInv s' := by
  cases h with
  | none hl hc =>
    constructor
    · rw [hl]
      exact fun e he hend => hc (hi.closed e he hend)
    · rw [hl]
      exact hi.order
  | received data hq hr hl =>
    have hopen := ho data hq hr
    have hno : ∀ e ∈ s.log, e.ends ≠ true := fun e he hend => by
      simp [hi.closed e he hend] at hopen
    constructor
    · rw [hl]
      intro e he hend
      rcases List.mem_cons.mp he with rfl | he
      · cases hend
      · exact absurd hend (hno e he)
    · rw [hl, List.pairwise_cons]
      exact ⟨fun e he hend => absurd hend (hno e he), hi.order⟩
  | ended es hes hl hc =>
    refine ⟨fun _ _ _ => hc, ?_⟩
    rw [hl, List.pairwise_append]
    refine ⟨?_, hi.order, fun e he _ _ _ => hes e he⟩
    exact List.pairwise_of_forall_mem_list fun e he _ _ _ => hes e he

end Connected

theorem ClosedInv.reach {remoteId : PeerId} {s : ConnectedLink}
    (h : (ConnectedLink.lts remoteId).Reach ReceivedOpen s) : ClosedInv s :=
  h.invariant ⟨by simp [ConnectedLink.lts], .nil⟩ fun hI ho he => (Logged.of_step he).closedInv hI ho

/-! ## Shared mode -/

/-- A link that was disconnected is closed, and its handler is given nothing after that. -/
structure SharedInv (s : UdpServer) : Prop where
  closed : ∀ l, ∀ e ∈ s.log, e.ends l = true → l < s.created ∧ (s.objects l).closed = true
  order : ∀ l, s.log.Pairwise fun e e' => e'.ends l = true → ∀ n data, e ≠ .onReceived l n data

section Shared

variable {s s' : UdpServer} {a : ServerAction}

theorem ServerStep.closed_ends (h : ServerStep s a s') (hi : SharedInv s) (l : Nat) (e : ServerEvent)
    (he : e ∈ s'.log) (hend : e.ends l = true) : l < s'.created ∧ (s'.objects l).closed = true := by
  have hold := hi.closed l
  cases h <;> grind -linarith -order [Function.update_apply, ServerEvent.ends]

theorem ServerStep.shared_order (h : ServerStep s a s') (hd : Dispatch s) (hi : SharedInv s) (l : Nat) :
    s'.log.Pairwise fun e e' => e'.ends l = true → ∀ n data, e ≠ .onReceived l n data := by
  have hold := hi.order l
  have hopen : ∀ n data, s'.log = .onReceived l n data :: s.log → ∀ e ∈ s.log, e.ends l = false :=
    fun n data hl e he => by
      by_contra hn
      have := (h.onReceived_live hd hl).1.2
      simp [(hi.closed l e he (by simpa using hn)).2] at this
  cases h <;> grind -linarith -order [List.pairwise_cons]

end Shared

theorem SharedInv.reach {localId : PeerId} {s : UdpServer} (h : (UdpServer.lts localId).Reach Lts.Any s) :
    SharedInv s := by
  have hI : Dispatch s ∧ SharedInv s := by
    refine h.invariant (I := fun s => Dispatch s ∧ SharedInv s)
      ⟨.reach (.refl _), by simp [UdpServer.lts], fun l => .nil⟩ fun hI _ he => ?_
    have hstep := ServerStep.of_step he
    exact ⟨hstep.dispatch hI.1, hstep.closed_ends hI.2, hstep.shared_order hI.1 hI.2⟩
  exact hI.2

/-! ## Both -/

/-- No datagram is handed over after `Disconnect` or `onDisconnected`: in connected mode in
the runs in which a queued datagram is handled only while the link is not closed, in shared
mode in every run. The logs are newest first. -/
theorem never_received_after {remoteId localId : PeerId} {s : ConnectedLink} {s' : UdpServer}
    (h : (ConnectedLink.lts remoteId).Reach ReceivedOpen s)
    (h' : (UdpServer.lts localId).Reach Lts.Any s') (l : Nat) :
    (s.log.Pairwise fun e e' => e'.ends = true → ∀ data, e ≠ .onReceived data) ∧
      s'.log.Pairwise fun e e' => e'.ends l = true → ∀ n data, e ≠ .onReceived l n data := by
  refine ⟨(ClosedInv.reach h).order.imp fun {e e'} hee hend data he => ?_, (SharedInv.reach h').order l⟩
  have hnot := hee hend
  simp [he, LinkEvent.ends] at hnot

instance (s : ConnectedLink) (a : LinkAction) : Decidable (ReceivedOpen s a) :=
  match a with
  | .complete =>
    match hq : s.receive with
    | .queued _ => decidable_of_iff (s.link.handler.onReceived = true → s.link.closed = false)
        ⟨fun h _ _ => h, fun h => h _ hq⟩
    | .idle | .waiting | .failed | .inReceived => .isTrue fun data hd => by simp [hq] at hd
  | .startReceive _ | .arrive _ | .fail | .ret | .disconnect => .isTrue trivial

/-- A datagram in either mode, and a `Disconnect` after it. -/
theorem never_received_after_closed : ∃ s s', (ConnectedLink.lts ⟨"127.0.0.1:9"⟩).Reach ReceivedOpen s ∧
    (UdpServer.lts ⟨"0.0.0.0:7"⟩).Reach Lts.Any s' ∧
    s.log = [.onDisconnected, .disconnect, .onReceived [1]] ∧
    s'.log = [.onDisconnected 0, .disconnect 0, .onReceived 0 0 [1], .onLink 0] ∧
    s.log.Pairwise fun e e' => e'.ends = true → ∀ data, e ≠ .onReceived data := by
  obtain ⟨s, hs, hq⟩ := Lts.Reach.of_run (ConnectedLink.lts ⟨"127.0.0.1:9"⟩) ReceivedOpen
    [.startReceive ⟨true, true⟩, .arrive [1], .complete, .ret, .disconnect, .complete]
    (fun s => s.log = [.onDisconnected, .disconnect, .onReceived [1]]) (by decide +kernel)
  obtain ⟨s', hs', hq'⟩ := Lts.Reach.of_run (UdpServer.lts ⟨"0.0.0.0:7"⟩) Lts.Any
    [.receive ⟨0x7f000001, 9⟩ [1], .onLink ⟨true, true⟩, .disconnect 0, .ret]
    (fun s => s.log = [.onDisconnected 0, .disconnect 0, .onReceived 0 0 [1], .onLink 0])
    (by decide +kernel)
  exact ⟨s, s', hs, hs', of_decide_eq_true hq, of_decide_eq_true hq', (never_received_after hs hs' 0).1⟩

/-- A datagram was received and its handler is queued when `Disconnect` is called: the
handler runs, and hands the datagram over. -/
theorem received_after_disconnect : ∃ s, (ConnectedLink.lts ⟨"127.0.0.1:9"⟩).Reach Lts.Any s ∧
    s.log = [.onReceived [1], .onDisconnected, .disconnect] ∧
    ¬ s.log.Pairwise fun e e' => e'.ends = true → ∀ data, e ≠ .onReceived data := by
  obtain ⟨s, hs, hq⟩ := Lts.Reach.of_run (ConnectedLink.lts ⟨"127.0.0.1:9"⟩) Lts.Any
    [.startReceive ⟨true, true⟩, .arrive [1], .disconnect, .complete]
    (fun s => s.log = [.onReceived [1], .onDisconnected, .disconnect]) (by decide +kernel)
  have hl := of_decide_eq_true hq
  refine ⟨s, hs, hl, ?_⟩
  simp [hl, LinkEvent.ends]

end TX.Rtt.Udp
