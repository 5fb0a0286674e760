import TxPkgAux.Impl.Rtt.JsWsSigClient
import TxPkgAux.Proof.Rtt.WsClientOrder

/-!
# `DcWsSigClient`, `JsWsSigClient`: `OnLeft`

Both clients call `OnLeft` from `Leave` and from the close event. In `DcWsSigClient` the
close event does not look whether `Leave` notified, and `Leave` on a socket that is not
open does not look whether the close event did or will; in `JsWsSigClient` the close event
leaves no trace that `Leave` would see. `DcLeaveApart` and `JsLeaveApart` are the conditions
that the two do not meet, and `onLeft_last` says that then the handler is told once at most,
and gets no message after it; `onLeft_twice` is a `Leave` after the connection was lost.
-/

namespace TX.Rtt

/-- A call of `OnLeft`. -/
def WsEvent.isOnLeft : WsEvent → Bool
  | .onLeft _ => true
  | _ => false

/-- A call of `OnMessage`. -/
def WsEvent.isOnMessage : WsEvent → Bool
  | .onMessage _ => true
  | _ => false

def JsWsEvent.isOnLeft : JsWsEvent → Bool
  | .onLeft _ => true
  | _ => false

def JsWsEvent.isOnMessage : JsWsEvent → Bool
  | .onMessage _ => true
  | _ => false

/-! ## `DcWsSigClient` -/

namespace DcWsSigClient

/-- The calls of `OnLeft` so far. -/
def onLefts (s : DcWsSigClient) : Nat := s.log.countP WsEvent.isOnLeft

/-- No `OnMessage` is yet to come from a call in progress. -/
def Quiet (s : DcWsSigClient) : Prop := s.delivering = [] ∧ s.replayRest = []

end DcWsSigClient

/-- `NotifyClosed` finds a handler when no call is about to give it a message; and if
`Leave` called it, `onClosed` has returned without notifying one. -/
def DcLeaveApart (s : DcWsSigClient) : WsAction → Prop
  | .leaveNext => s.leave = some .notifying → s.handlerFound = true →
    s.onClosed = .returned false ∧ s.Quiet
  | .onClosedNext => s.onClosed = .notifying → s.handlerFound = true → s.Quiet
  | _ => True

/-- The handler was told: by `onClosed`, or by `Leave` after it. -/
def DcWsSigClient.Told (s : DcWsSigClient) : Prop :=
  s.onClosed = .returned true ∨ s.onClosed = .returned false ∧ s.leaving = true ∧ s.leave = none

structure DcLeaveInv (s : DcWsSigClient) : Prop where
  base : WsInv s
  bound : s.handler = true → ¬ s.Unbound
  leaving : s.leave ≠ none → s.leaving = true
  told : 0 < s.onLefts → s.Told
  once : s.onLefts ≤ 1
  quiet : 0 < s.onLefts → s.handler = true ∧ s.Quiet
  order : s.log.Pairwise fun e e' => e'.isOnLeft = true → e.isOnMessage = false

section Step

variable {parse : Parse} {s s' : DcWsSigClient} {a : WsAction}

theorem WsStep.bound (h : WsStep parse s a s') (hi : DcLeaveInv s) (hh : s'.handler = true) :
    ¬ s'.Unbound := by
  intro hn
  have hold : s.Unbound → s.handler = false := fun hn =>
    (Bool.not_eq_true _).mp fun hh => hi.bound hh hn
  cases hh.symm.trans (h.unbound hi.base hold hn)

theorem WsStep.leaving (h : WsStep parse s a s') (hi : DcLeaveInv s) (hl : s'.leave ≠ none) :
    s'.leaving = true := by
  cases h with
  | leave => rfl
  | leaveClosed hlv => exact hi.leaving (by simp [hlv])
  | leaveClose | leaveNotify | leaveSkip => exact absurd rfl hl
  | _ => exact hi.leaving hl

/-- A step calls `OnLeft` when nobody did, or leaves the number of calls as it is. -/
theorem WsStep.onLefts (h : WsStep parse s a s') (hi : DcLeaveInv s) (ha : DcLeaveApart s a) :
    s'.onLefts = s.onLefts ∨
      s'.onLefts = 1 ∧ s.onLefts = 0 ∧ s'.Told ∧ s.handler = true ∧ s.Quiet ∧
        s'.handler = s.handler ∧ s'.deliver = s.deliver ∧ s'.onOpen = s.onOpen := by
  have ht := hi.told
  have hl := hi.leaving
  cases h
  case leaveNotify hlv hh =>
    obtain ⟨hc, hq⟩ := ha hlv hh
    have h0 : s.onLefts = 0 := by
      by_contra hn
      rcases ht (Nat.pos_of_ne_zero hn) with h | ⟨-, -, h⟩ <;> simp_all
    refine .inr ⟨?_, h0, .inr ⟨hc, hl (by simp [hlv]), rfl⟩, (Bool.and_eq_true_iff.mp hh).1, hq,
      rfl, rfl, rfl⟩
    exact (List.countP_cons_of_pos rfl).trans (congrArg (· + 1) h0)
  case closedNotify hc hh =>
    have h0 : s.onLefts = 0 := by
      by_contra hn
      rcases ht (Nat.pos_of_ne_zero hn) with h | ⟨h, -, -⟩ <;> simp_all
    refine .inr ⟨?_, h0, .inl rfl, (Bool.and_eq_true_iff.mp hh).1, ha hc hh, rfl, rfl, rfl⟩
    exact (List.countP_cons_of_pos rfl).trans (congrArg (· + 1) h0)
  all_goals exact .inl rfl

/-- Once told, the handler stays told: both calls have returned. -/
theorem WsStep.told (h : WsStep parse s a s') (hi : DcLeaveInv s) (ht : s.Told) : s'.Told := by
  have hreturned : s.onClosed ≠ .idle ∧ s.onClosed ≠ .notifying := by
    rcases ht with h | ⟨h, -⟩ <;> simp [h]
  cases h with
  | onClosed hs => exact absurd (hi.base.closed hreturned.1) hs
  | closedNotify hc | closedSkip hc => exact absurd hc hreturned.2
  | leave hu hl =>
    obtain hc | ⟨-, hl', -⟩ := ht
    · exact .inl hc
    · cases hl.symm.trans hl'
  | leaveClose hlv | leaveClosed hlv | leaveNotify hlv | leaveSkip hlv =>
    obtain hc | ⟨-, -, hnone⟩ := ht
    · exact .inl hc
    · cases hlv.symm.trans hnone
  | _ => exact ht

/-- On a socket that is closed no call gives a bound handler a message, if none was about
to. -/
theorem WsStep.quiet (h : WsStep parse s a s') (hi : DcLeaveInv s) (hs : s.socket = .closed)
    (hh : s.handler = true) (hq : s.Quiet) : s'.handler = true ∧ s'.Quiet := by
  have hb := hi.bound hh
  obtain ⟨hd, hr⟩ := hq
  cases h with
  | onOpen _ hf => exact absurd (.inl (hi.base.fired hf)) hb
  | passed text m ho => simp [hs] at ho
  | joined supplied ho => exact absurd (.inr (.inl ho)) hb
  | bind ho => exact absurd (.inr (.inr ⟨_, ho⟩)) hb
  | replaying ho => exact ⟨hh, hd, by simpa [DcWsSigClient.replayRest, ho] using hr⟩
  | unreplayed | replayed => exact ⟨hh, hd, rfl⟩
  | replay ho => simp [DcWsSigClient.replayRest, ho] at hr
  | lock hm | call hm => simp [DcWsSigClient.delivering, hm] at hd
  | buffer | called => exact ⟨hh, rfl, hr⟩
  | _ => exact ⟨hh, hd, hr⟩

theorem WsStep.onMessage (h : WsStep parse s a s') (hq : s.Quiet) : s'.log = s.log ∨
    ∃ e, s'.log = e :: s.log ∧ e.isOnMessage = false := by
  unfold DcWsSigClient.Quiet at hq
  cases h
  case replay ho => simp [DcWsSigClient.replayRest, ho] at hq
  case call hd hh => simp [DcWsSigClient.delivering, hd] at hq
  case onError | threw | passed | closedNotify | leaveNotify | sent => exact .inr ⟨_, rfl, rfl⟩
  all_goals exact .inl rfl

theorem WsStep.leave_order (h : WsStep parse s a s') (hi : DcLeaveInv s) :
    s'.log.Pairwise fun e e' => e'.isOnLeft = true → e.isOnMessage = false := by
  by_cases h0 : 0 < s.onLefts
  · rcases h.onMessage (hi.quiet h0).2 with hl | ⟨e, hl, he⟩
    · exact hl ▸ hi.order
    · rw [hl, List.pairwise_cons]
      exact ⟨fun _ _ _ => he, hi.order⟩
  · -- Nobody was told yet.
    have hno : ∀ e ∈ s.log, e.isOnLeft = false := fun e he => by
      by_contra hn
      exact h0 (List.countP_pos_iff.mpr ⟨e, he, by simpa using hn⟩)
    have hlog : s'.log = s.log ∨ ∃ e, s'.log = e :: s.log := by
      cases h <;> first | exact .inl rfl | exact .inr ⟨_, rfl⟩
    rcases hlog with hl | ⟨e, hl⟩
    · exact hl ▸ hi.order
    · rw [hl, List.pairwise_cons]
      exact ⟨fun e' he' h' => by simp [hno e' he'] at h', hi.order⟩

theorem WsStep.dcLeaveInv (h : WsStep parse s a s') (hi : DcLeaveInv s) (ha : DcLeaveApart s a) :
    DcLeaveInv s' := by
  have hclosed : s.Told → s.socket = .closed := fun ht => by
    refine hi.base.closed ?_
    rcases ht with h | ⟨h, -⟩ <;> simp [h]
  have hor := h.onLefts hi ha
  refine ⟨h.wsInv hi.base, h.bound hi, h.leaving hi, fun hp => ?_, ?_, fun hp => ?_, h.leave_order hi⟩
  · rcases hor with hc | ⟨-, -, ht, -⟩
    · exact h.told hi (hi.told (hc ▸ hp))
    · exact ht
  · rcases hor with hc | ⟨hc, -⟩
    · exact hc ▸ hi.once
    · exact Nat.le_of_eq hc
  · rcases hor with hc | ⟨-, -, -, hh, hq, hh', hd, ho⟩
    · obtain ⟨hh, hq⟩ := hi.quiet (hc ▸ hp)
      exact h.quiet hi (hclosed (hi.told (hc ▸ hp))) hh hq
    · refine ⟨hh'.trans hh, ?_⟩
      unfold DcWsSigClient.Quiet DcWsSigClient.delivering DcWsSigClient.replayRest at *
      rw [hd, ho]
      exact hq

end Step

theorem DcLeaveInv.reach {parse : Parse} {id : PeerId} {s : DcWsSigClient}
    (h : (DcWsSigClient.lts parse id).Reach DcLeaveApart s) : DcLeaveInv s := by
  refine h.invariant ⟨.init parse id, nofun, nofun, nofun, Nat.zero_le 1, nofun, .nil⟩
    fun hI ha he => (WsStep.of_step he).dcLeaveInv hI ha

/-! ## `JsWsSigClient` -/

/-- The calls of `OnLeft` so far. -/
def JsWsSigClient.onLefts (s : JsWsSigClient) : Nat := s.log.countP JsWsEvent.isOnLeft

/-- The first `Leave` on a live handler comes before the close event. -/
def JsLeaveApart (s : JsWsSigClient) : JsWsAction → Prop
  | .leave => s.leaving = false → s.handlerFound = true → s.closed = false
  | _ => True

/-- What a step adds to the log: `OnLeft` while the socket is mapped, or by the first of
`Leave` and the close event; `OnMessage` while the socket is mapped. -/
inductive JsWsLogged (s s' : JsWsSigClient) : Prop where
  | other (hl : s'.log = s.log ∨ s'.log = .refused :: s.log) (hm : s.mapped = false → s'.mapped = false)
      (ht : s.leaving = true ∨ s.closed = true → s'.leaving = true ∨ s'.closed = true)
  | onLeft (lost : Bool) (hl : s'.log = .onLeft lost :: s.log)
      (hm : s.mapped = true ∨ s.leaving = false ∧ s.closed = false) (hm' : s'.mapped = false)
      (ht : s'.leaving = true ∨ s'.closed = true)
  | onMessage (m : SigMessage) (hm : s.mapped = true) (he : s' = { s with log := .onMessage m :: s.log })

structure JsLeaveInv (s : JsWsSigClient) : Prop where
  told : 0 < s.onLefts → s.mapped = false ∧ (s.leaving = true ∨ s.closed = true)
  once : s.onLefts ≤ 1
  order : s.log.Pairwise fun e e' => e'.isOnLeft = true → e.isOnMessage = false

section JsStep

variable {s s' : JsWsSigClient} {a : JsWsAction}

theorem JsWsSigClient.close_eq (s : JsWsSigClient) :
    s.close.mapped = false ∧ s.close.log = s.log ∧ s.close.leaving = s.leaving ∧ s.close.closed = s.closed := by
  unfold JsWsSigClient.close
  cases hm : s.mapped <;> simp [hm]

theorem JsWsLogged.of_step (he : s.step a = some s') (ha : JsLeaveApart s a) : JsWsLogged s s' := by
  cases a with
  | onopen | joined supplied =>
    simp only [JsWsSigClient.step] at he
    split at he <;> cases he
    exact .other (.inl rfl) id id
  | onerror =>
    simp only [JsWsSigClient.step, JsWsSigClient.onError] at he
    split at he <;> [skip; cases he]
    split at he <;> [skip; (cases he; exact .other (.inl rfl) id id)]
    split at he <;> cases he
    · exact .other (.inl rfl) (fun _ => rfl) id
    · exact .other (.inr rfl) (fun _ => rfl) id
  | onclose =>
    simp only [JsWsSigClient.step, JsWsSigClient.onClose] at he
    split at he <;> [skip; cases he]
    split at he <;> [skip; (cases he; exact .other (.inl rfl) id id)]
    split at he
    · cases he
      exact .other (.inl rfl) (fun _ => rfl) id
    · split at he <;> cases he
      · exact .onLeft true rfl (.inl ‹_›) rfl (.inr rfl)
      · exact .other (.inl rfl) (fun _ => rfl) fun _ => .inr rfl
  | onmessage m =>
    simp only [JsWsSigClient.step, JsWsSigClient.onMessage] at he
    split at he <;> [skip; cases he]
    split at he <;> [skip; (cases he; exact .other (.inl rfl) id id)]
    split at he <;> cases he
    · exact .onMessage m ‹_› rfl
    · exact .other (.inl rfl) id id
  | leave =>
    simp only [JsWsSigClient.step, JsWsSigClient.leave] at he
    split at he <;> [skip; cases he]
    split at he <;> [(cases he; exact .other (.inl rfl) id id); skip]
    rename_i hl
    obtain ⟨hm, hlog, hlv, hc⟩ := JsWsSigClient.close_eq { s with leaving := true }
    split at he <;> cases he
    · have hl : s.leaving = false := by simpa using hl
      exact .onLeft false (by rw [JsWsSigClient.emit, hlog]) (.inr ⟨hl, ha hl ‹_›⟩) hm (.inl hlv)
    · exact .other (.inl hlog) (fun _ => hm) fun _ => .inl hlv
  | dropUser =>
    simp only [JsWsSigClient.step] at he
    split at he <;> cases he
    obtain ⟨hm, hlog, hlv, hc⟩ := s.close_eq
    exact .other (.inl hlog) (fun _ => hm) (by simp [hlv, hc])
  | dropHandler =>
    cases he
    exact .other (.inl rfl) id id

theorem JsWsLogged.jsLeaveInv (h : JsWsLogged s s') (hi : JsLeaveInv s) : JsLeaveInv s' := by
  cases h with
  | other hl hm ht =>
    have hc : s'.onLefts = s.onLefts := by
      rcases hl with hl | hl <;> simp only [JsWsSigClient.onLefts, hl]
      rfl
    refine ⟨fun hp => ?_, hc ▸ hi.once, ?_⟩
    · obtain ⟨hm', ht'⟩ := hi.told (hc ▸ hp)
      exact ⟨hm hm', ht ht'⟩
    · rcases hl with hl | hl
      · exact hl ▸ hi.order
      · exact hl ▸ List.pairwise_cons.mpr ⟨fun _ _ _ => rfl, hi.order⟩
  | onLeft lost hl hm hm' ht =>
    have h0 : s.onLefts = 0 := by
      by_contra hn
      obtain ⟨hm₀, ht₀⟩ := hi.told (Nat.pos_of_ne_zero hn)
      rcases hm with hm | ⟨h₁, h₂⟩ <;> simp_all
    refine ⟨fun _ => ⟨hm', ht⟩, ?_, ?_⟩
    · rw [JsWsSigClient.onLefts, hl, List.countP_cons_of_pos rfl]
      exact Nat.le_of_eq (congrArg (· + 1) h0)
    · exact hl ▸ List.pairwise_cons.mpr ⟨fun _ _ _ => rfl, hi.order⟩
  | onMessage m hm he =>
    subst he
    have hno : ∀ e ∈ s.log, e.isOnLeft = false := fun e he => by
      by_contra hn
      have := (hi.told (List.countP_pos_iff.mpr ⟨e, he, by simpa using hn⟩)).1
      simp [hm] at this
    exact ⟨hi.told, hi.once,
      List.pairwise_cons.mpr ⟨fun e he h => by simp [hno e he] at h, hi.order⟩⟩

end JsStep

theorem JsLeaveInv.reach {id : PeerId} {s : JsWsSigClient}
    (h : (JsWsSigClient.lts id).Reach JsLeaveApart s) : JsLeaveInv s := by
  refine h.invariant ⟨nofun, Nat.zero_le 1, .nil⟩ fun hI ha he => (JsWsLogged.of_step he ha).jsLeaveInv hI

/-! ## Both -/

/-- In the runs of both clients in which `Leave` and the close event stay apart, the
handler is told once at most that it left, and gets no message after it. The logs are
newest first. -/
theorem onLeft_last {parse : Parse} {id : PeerId} {s : DcWsSigClient} {s' : JsWsSigClient}
    (h : (DcWsSigClient.lts parse id).Reach DcLeaveApart s)
    (h' : (JsWsSigClient.lts id).Reach JsLeaveApart s') :
    (s.onLefts ≤ 1 ∧ s.log.Pairwise fun e e' => e'.isOnLeft = true → e.isOnMessage = false) ∧
      s'.onLefts ≤ 1 ∧ s'.log.Pairwise fun e e' => e'.isOnLeft = true → e.isOnMessage = false := by
  have hi := DcLeaveInv.reach h
  have hi' := JsLeaveInv.reach h'
  exact ⟨⟨hi.once, hi.order⟩, hi'.once, hi'.order⟩

instance (s : DcWsSigClient) : Decidable s.Quiet := inferInstanceAs (Decidable (_ ∧ _))

instance (s : DcWsSigClient) (a : WsAction) : Decidable (DcLeaveApart s a) :=
  match a with
  | .leaveNext => inferInstanceAs (Decidable (s.leave = some .notifying → s.handlerFound = true →
      s.onClosed = .returned false ∧ s.Quiet))
  | .onClosedNext => inferInstanceAs (Decidable (s.onClosed = .notifying → s.handlerFound = true →
      s.Quiet))
  | .opened | .onOpen | .onError | .closing | .onClosed | .onMessage _ | .joined _ | .onOpenNext
  | .deliverNext | .leave | .send _ _ | .dropUser | .dropHandler => .isTrue trivial

instance (s : JsWsSigClient) (a : JsWsAction) : Decidable (JsLeaveApart s a) :=
  match a with
  | .leave => inferInstanceAs (Decidable (s.leaving = false → s.handlerFound = true → s.closed = false))
  | .onopen | .joined _ | .onerror | .onclose | .onmessage _ | .dropUser | .dropHandler => .isTrue trivial

open DcWsSigClient (sample frameOf)

/-- A message, and a `Leave` while the socket is open. -/
theorem onLeft_last_open : ∃ s s', sample.Reach DcLeaveApart s ∧
    (JsWsSigClient.lts ⟨"a"⟩).Reach JsLeaveApart s' ∧
    s.log = [.onLeft false, .onMessage ⟨⟨"b"⟩, "m"⟩, .passed ⟨⟨"b"⟩, "m"⟩] ∧
    s'.log = [.onLeft false, .onMessage ⟨⟨"b"⟩, "m"⟩] ∧ s.onLefts ≤ 1 ∧ s'.onLefts ≤ 1 := by
  obtain ⟨s, hs, hq⟩ := Lts.Reach.of_run sample DcLeaveApart
    [.opened, .onOpen, .joined true, .onOpenNext, .onOpenNext, .onOpenNext, frameOf "m", .deliverNext,
      .deliverNext, .deliverNext, .leave, .leaveNext, .onClosed, .onClosedNext]
    (fun s => s.log = [.onLeft false, .onMessage ⟨⟨"b"⟩, "m"⟩, .passed ⟨⟨"b"⟩, "m"⟩]) (by decide +kernel)
  obtain ⟨s', hs', hq'⟩ := Lts.Reach.of_run (JsWsSigClient.lts ⟨"a"⟩) JsLeaveApart
    [.onopen, .joined true, .onmessage ⟨⟨"b"⟩, "m"⟩, .leave, .onclose]
    (fun s => s.log = [.onLeft false, .onMessage ⟨⟨"b"⟩, "m"⟩]) (by decide +kernel)
  obtain ⟨hl, hl'⟩ := onLeft_last hs hs'
  exact ⟨s, s', hs, hs', of_decide_eq_true hq, of_decide_eq_true hq', hl.1, hl'.1⟩

/-- The connection is lost, and then the callers leave: both clients tell the handler
twice. -/
theorem onLeft_twice : ∃ s s', sample.Reach Lts.Any s ∧
    (JsWsSigClient.lts ⟨"a"⟩).Reach Lts.Any s' ∧ s.log = [.onLeft false, .onLeft true] ∧
    s'.log = [.onLeft false, .onLeft true] ∧ ¬ s.onLefts ≤ 1 ∧ ¬ s'.onLefts ≤ 1 := by
  obtain ⟨s, hs, hq⟩ := Lts.Reach.of_run sample Lts.Any
    [.opened, .onOpen, .joined true, .onOpenNext, .onOpenNext, .onOpenNext, .closing, .onClosed,
      .onClosedNext, .leave, .leaveNext, .leaveNext]
    (fun s => s.log = [.onLeft false, .onLeft true] ∧ ¬ s.onLefts ≤ 1) (by decide +kernel)
  obtain ⟨s', hs', hq'⟩ := Lts.Reach.of_run (JsWsSigClient.lts ⟨"a"⟩) Lts.Any
    [.onopen, .joined true, .onclose, .leave]
    (fun s => s.log = [.onLeft false, .onLeft true] ∧ ¬ s.onLefts ≤ 1) (by decide +kernel)
  obtain ⟨hl, hn⟩ := of_decide_eq_true hq
  obtain ⟨hl', hn'⟩ := of_decide_eq_true hq'
  exact ⟨s, s', hs, hs', hl, hl', hn, hn'⟩

end TX.Rtt
