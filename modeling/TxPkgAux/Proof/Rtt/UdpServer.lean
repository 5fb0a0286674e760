import TxPkgAux.Impl.Rtt.UdpServer

/-!
# `UdpServer`: dispatch

The dispatch map changes when a datagram of a new endpoint arrives and when a link is
disconnected, which the callers may do inside `OnLink` and `onReceived`. `Dispatch` is the
invariant: the map has the links that are not closed, each under its own endpoint. So an
endpoint has one such link at most, and its datagrams go there (`datagrams_dispatched`).
-/

namespace TX.Rtt.Udp

open Function (update)

/-- The event is the call of `OnLink` with the link. -/
def ServerEvent.links (l : Nat) : ServerEvent → Bool
  | .onLink l' => l' = l
  | _ => false

/-- `DeliverReceived` was called with the datagram. -/
def ServerEvent.handles (n : Nat) : ServerEvent → Bool
  | .onReceived _ n' _ | .dropped _ n' => n' = n
  | _ => false

namespace UdpServer

/-- The link was created and is not closed. -/
def live (s : UdpServer) (l : Nat) : Prop := l < s.created ∧ (s.objects l).closed = false

/-- The datagram is yet to be passed to `DeliverReceived`. -/
def undelivered (s : UdpServer) : Nat :=
  match s.loop with
  | .inOnLink _ _ => 1
  | _ => 0

end UdpServer

/-- The steps of the server. -/
inductive ServerStep (s : UdpServer) : ServerAction → UdpServer → Prop where
  | deliver (src : Endpoint) (data : Datagram) (l : Nat) (hl : s.loop = .waiting)
      (hm : s.links src = some l) (hd : (s.objects l).delivers = true) :
    ServerStep s (.receive src data) { s with
      source := update s.source s.received src
      payload := update s.payload s.received data
      received := s.received + 1
      loop := .inReceived l
      log := .onReceived l s.received data :: s.log }
  | ignore (src : Endpoint) (data : Datagram) (l : Nat) (hl : s.loop = .waiting)
      (hm : s.links src = some l) (hd : (s.objects l).delivers = false) :
    ServerStep s (.receive src data) { s with
      source := update s.source s.received src
      payload := update s.payload s.received data
      received := s.received + 1
      loop := .waiting
      log := .dropped l s.received :: s.log }
  | create (src : Endpoint) (data : Datagram) (hl : s.loop = .waiting) (hm : s.links src = none) :
    ServerStep s (.receive src data) { s with
      source := update s.source s.received src
      payload := update s.payload s.received data
      received := s.received + 1
      objects := update s.objects s.created
        { remoteId := endpointToPeerId src, remoteEndpoint := src }
      created := s.created + 1
      links := update s.links src (some s.created)
      loop := .inOnLink s.created data
      log := .onLink s.created :: s.log }
  | fail (hl : s.loop = .waiting) : ServerStep s .fail { s with loop := .ended }
  | first (h : LinkHandler) {l : Nat} {data : Datagram} (hl : s.loop = .inOnLink l data)
      (hc : (s.objects l).closed = false) (hd : h.onReceived = true) :
    ServerStep s (.onLink h) { s with
      objects := update s.objects l { s.objects l with handler := h }
      loop := .inReceived l
      log := .onReceived l (s.received - 1) data :: s.log }
  | firstIgnored (h : LinkHandler) {l : Nat} {data : Datagram} (hl : s.loop = .inOnLink l data)
      (hd : (s.objects l).closed = true ∨ h.onReceived = false) :
    ServerStep s (.onLink h) { s with
      objects := update s.objects l { s.objects l with handler := h }
      loop := .waiting
      log := .dropped l (s.received - 1) :: s.log }
  | ret {l : Nat} (hl : s.loop = .inReceived l) : ServerStep s .ret { s with loop := .waiting }
  | closed (l : Nat) (hl : l < s.created) (hc : (s.objects l).closed = true) :
    ServerStep s (.disconnect l) { s with log := .disconnect l :: s.log }
  | disconnect (l : Nat) (hl : l < s.created) (hc : (s.objects l).closed = false) :
    ServerStep s (.disconnect l) { s with
      objects := update s.objects l { s.objects l with closed := true }
      links := update s.links (s.objects l).remoteEndpoint none
      log := if (s.objects l).handler.onDisconnected then .onDisconnected l :: .disconnect l :: s.log
        else .disconnect l :: s.log }

theorem ServerStep.of_step {s s' : UdpServer} {a : ServerAction} (he : s.step a = some s') :
    ServerStep s a s' := by
  cases a with
  | receive src data =>
    simp only [UdpServer.step, UdpServer.onReceived] at he
    split at he <;> [skip; cases he]
    split at he
    · simp only [UdpServer.deliverReceived] at he
      split at he <;> cases he
      · exact .deliver src data _ ‹_› ‹_› ‹_›
      · exact .ignore src data _ ‹_› ‹_› (by simpa using ‹¬ (UdpLink.delivers _) = true›)
    · cases he
      exact .create src data ‹_› ‹_›
  | fail =>
    simp only [UdpServer.step] at he
    split at he <;> cases he
    exact .fail ‹_›
  | onLink h =>
    simp only [UdpServer.step] at he
    split at he <;> [skip; cases he]
    rename_i l data hl
    simp only [UdpServer.deliverReceived, UdpServer.setObject, Function.update_self,
      UdpLink.delivers] at he
    split at he <;> cases he <;> rename_i hd
    · simp only [Bool.and_eq_true, Bool.not_eq_true'] at hd
      exact .first h hl hd.1 hd.2
    · refine .firstIgnored h hl ?_
      by_cases hc : (s.objects l).closed = true <;> simp_all
  | ret =>
    simp only [UdpServer.step] at he
    split at he <;> cases he
    exact .ret ‹_›
  | disconnect l =>
    simp only [UdpServer.step, UdpServer.disconnect] at he
    split at he <;> [skip; cases he]
    rename_i hl
    split at he
    · cases he
      exact .closed l hl ‹_›
    · rename_i hc
      simp only [Option.some.injEq] at he
      subst he
      convert ServerStep.disconnect l hl (by simpa [UdpServer.emit] using hc) using 1
      cases hd : (s.objects l).handler.onDisconnected <;> simp [UdpServer.emit, UdpServer.setObject, hd]

/-- The map has the links that are not closed, each under its own endpoint; every link is
told to the acceptor once, and every datagram handled once. -/
structure Dispatch (s : UdpServer) : Prop where
  mapped : ∀ ep l, s.links ep = some l → s.live l ∧ (s.objects l).remoteEndpoint = ep
  stored : ∀ l, s.live l → s.links (s.objects l).remoteEndpoint = some l
  named : ∀ l < s.created, (s.objects l).remoteId = endpointToPeerId (s.objects l).remoteEndpoint
  linked : ∀ l, s.log.countP (ServerEvent.links l) = if l < s.created then 1 else 0
  loop : ∀ l data, s.loop = .inOnLink l data → l < s.created ∧ 0 < s.received ∧
    (s.objects l).remoteEndpoint = s.source (s.received - 1) ∧ data = s.payload (s.received - 1)
  handled : ∀ n, s.log.countP (ServerEvent.handles n) +
    (if n + 1 = s.received then s.undelivered else 0) = if n < s.received then 1 else 0

section Step

variable {s s' : UdpServer} {a : ServerAction}

/-- The map and the links change together: a link is created for an endpoint that has none, or
one that is not closed is disconnected. -/
theorem ServerStep.map_cases (h : ServerStep s a s') :
    (s'.links = s.links ∧ s'.created = s.created ∧ ∀ l,
      (s'.objects l).closed = (s.objects l).closed ∧
      (s'.objects l).remoteEndpoint = (s.objects l).remoteEndpoint ∧
      (s'.objects l).remoteId = (s.objects l).remoteId) ∨
    (∃ src, s.links src = none ∧ s'.links = update s.links src (some s.created) ∧
      s'.created = s.created + 1 ∧ s'.objects = update s.objects s.created
        { remoteId := endpointToPeerId src, remoteEndpoint := src }) ∨
    ∃ l < s.created, (s.objects l).closed = false ∧
      s'.links = update s.links (s.objects l).remoteEndpoint none ∧ s'.created = s.created ∧
      s'.objects = update s.objects l { s.objects l with closed := true } := by
  cases h with
  | create src data hl hm => exact .inr (.inl ⟨src, hm, rfl, rfl, rfl⟩)
  | disconnect l hl hc => exact .inr (.inr ⟨l, hl, hc, rfl, rfl, rfl⟩)
  | @first h l | @firstIgnored h l =>
    refine .inl ⟨rfl, rfl, fun l' => ?_⟩
    by_cases hl' : l' = l
    · subst hl'
      simp
    · simp [Function.update_of_ne hl']
  | deliver | ignore | fail | ret | closed => exact .inl ⟨rfl, rfl, fun _ => ⟨rfl, rfl, rfl⟩⟩

theorem ServerStep.mapped (h : ServerStep s a s') (hi : Dispatch s) (ep : Endpoint) (l : Nat)
    (hm : s'.links ep = some l) : s'.live l ∧ (s'.objects l).remoteEndpoint = ep := by
  obtain ⟨hlinks, hcreated, hobj⟩ | ⟨src, -, hlinks, hcreated, hobj⟩ | ⟨l₀, -, -, hlinks, hcreated, hobj⟩ :=
    h.map_cases
  · rw [hlinks] at hm
    obtain ⟨⟨hlt, hc⟩, hep⟩ := hi.mapped ep l hm
    exact ⟨⟨hcreated ▸ hlt, (hobj l).1.trans hc⟩, (hobj l).2.1.trans hep⟩
  · rw [hlinks] at hm
    by_cases hep : ep = src
    · subst hep
      obtain rfl : s.created = l := by simpa using hm
      simp [UdpServer.live, hobj, hcreated]
    · rw [Function.update_of_ne hep] at hm
      obtain ⟨⟨hlt, hc⟩, hold⟩ := hi.mapped ep l hm
      rw [UdpServer.live, hobj, Function.update_of_ne (Nat.ne_of_lt hlt), hcreated]
      exact ⟨⟨Nat.lt_succ_of_lt hlt, hc⟩, hold⟩
  · rw [hlinks] at hm
    have hep : ep ≠ (s.objects l₀).remoteEndpoint := by
      rintro rfl
      simp at hm
    rw [Function.update_of_ne hep] at hm
    obtain ⟨⟨hlt, hc⟩, hold⟩ := hi.mapped ep l hm
    have hne : l ≠ l₀ := fun heq => hep (heq ▸ hold.symm)
    rw [UdpServer.live, hobj, Function.update_of_ne hne, hcreated]
    exact ⟨⟨hlt, hc⟩, hold⟩

theorem ServerStep.stored (h : ServerStep s a s') (hi : Dispatch s) (l : Nat) (hl : s'.live l) :
    s'.links (s'.objects l).remoteEndpoint = some l := by
  obtain ⟨hlt, hc⟩ := hl
  obtain ⟨hlinks, hcreated, hobj⟩ | ⟨src, hnone, hlinks, hcreated, hobj⟩ | ⟨l₀, hl₀, hopen, hlinks, hcreated, hobj⟩ :=
    h.map_cases
  · rw [hlinks, (hobj l).2.1]
    exact hi.stored l ⟨hcreated ▸ hlt, (hobj l).1.symm.trans hc⟩
  · by_cases hnew : l = s.created
    · subst hnew
      simp [hobj, hlinks]
    · rw [hobj, Function.update_of_ne hnew] at hc ⊢
      have hold := hi.stored l ⟨by omega, hc⟩
      have hne : (s.objects l).remoteEndpoint ≠ src := by
        rintro rfl
        exact absurd (hnone.symm.trans hold) nofun
      rw [hlinks, Function.update_of_ne hne, hold]
  · have hne : l ≠ l₀ := by
      rintro rfl
      simp [hobj] at hc
    rw [hobj, Function.update_of_ne hne] at hc ⊢
    have hold := hi.stored l ⟨hcreated ▸ hlt, hc⟩
    have hep : (s.objects l).remoteEndpoint ≠ (s.objects l₀).remoteEndpoint := by
      intro heq
      have hold₀ := hi.stored l₀ ⟨hl₀, hopen⟩
      rw [← heq, hold] at hold₀
      exact hne (Option.some.inj hold₀)
    rw [hlinks, Function.update_of_ne hep, hold]

theorem ServerStep.named (h : ServerStep s a s') (hi : Dispatch s) (l : Nat) (hl : l < s'.created) :
    (s'.objects l).remoteId = endpointToPeerId (s'.objects l).remoteEndpoint := by
  obtain ⟨-, hcreated, hobj⟩ | ⟨src, -, -, hcreated, hobj⟩ | ⟨l₀, hl₀, -, -, hcreated, hobj⟩ := h.map_cases
  · rw [(hobj l).2.1, (hobj l).2.2]
    exact hi.named l (hcreated ▸ hl)
  · by_cases hnew : l = s.created
    · subst hnew
      simp [hobj]
    · rw [hobj, Function.update_of_ne hnew]
      exact hi.named l (by omega)
  · rw [hobj]
    by_cases hl' : l = l₀
    · subst hl'
      simpa using hi.named l hl₀
    · rw [Function.update_of_ne hl']
      exact hi.named l (hcreated ▸ hl)

theorem ServerStep.linked (h : ServerStep s a s') (hi : Dispatch s) (l : Nat) :
    s'.log.countP (ServerEvent.links l) = if l < s'.created then 1 else 0 := by
  have hold := hi.linked l
  cases h <;> grind -linarith -order [ServerEvent.links]

theorem ServerStep.loop (h : ServerStep s a s') (hi : Dispatch s) (l : Nat) (data : Datagram)
    (hl : s'.loop = .inOnLink l data) : l < s'.created ∧ 0 < s'.received ∧
      (s'.objects l).remoteEndpoint = s'.source (s'.received - 1) ∧
      data = s'.payload (s'.received - 1) := by
  have hold := hi.loop
  cases h <;> grind -linarith -order [Function.update_apply]

theorem ServerStep.handled (h : ServerStep s a s') (hi : Dispatch s) (n : Nat) :
    s'.log.countP (ServerEvent.handles n) + (if n + 1 = s'.received then s'.undelivered else 0) =
      if n < s'.received then 1 else 0 := by
  have hold := hi.handled n
  have hl := hi.loop
  cases h <;> grind -linarith -order [ServerEvent.handles, UdpServer.undelivered]

theorem ServerStep.dispatch (h : ServerStep s a s') (hi : Dispatch s) : Dispatch s' :=
  ⟨h.mapped hi, h.stored hi, h.named hi, h.linked hi, h.loop hi, h.handled hi⟩

/-- `OnLink` is called with a link to an endpoint that has no live one. -/
theorem ServerStep.onLink_fresh (h : ServerStep s a s') (hi : Dispatch s) {l : Nat}
    (hl : s'.log = .onLink l :: s.log) (l' : Nat) (hlive : s.live l') :
    (s.objects l').remoteEndpoint ≠ (s'.objects l).remoteEndpoint := by
  cases h
  case create src data hw hm =>
    obtain rfl : s.created = l := by simpa using hl
    intro heq
    have hst := hi.stored l' hlive
    simp only [heq, Function.update_self, hm] at hst
    cases hst
  case disconnect l hl' hc => grind -linarith -order
  all_goals simp at hl

/-- A datagram is received with its source and bytes, under the next number. -/
theorem ServerStep.received_receive {src : Endpoint} {data : Datagram}
    (h : ServerStep s (.receive src data) s') :
    s'.received = s.received + 1 ∧ s'.source s.received = src ∧ s'.payload s.received = data := by
  cases h <;> exact ⟨rfl, Function.update_self .., Function.update_self ..⟩

/-- What is known of the datagrams that were received stays. -/
theorem ServerStep.received_old (h : ServerStep s a s') {n : Nat} (hn : n < s.received) :
    s'.source n = s.source n ∧ s'.payload n = s.payload n := by
  cases h
  case deliver | ignore | create =>
    have hne : n ≠ s.received := Nat.ne_of_lt hn
    exact ⟨Function.update_of_ne hne .., Function.update_of_ne hne ..⟩
  all_goals exact ⟨rfl, rfl⟩

/-- A handler is given the datagram, and its bytes, if its link is the live link of the source. -/
theorem ServerStep.onReceived_live (h : ServerStep s a s') (hi : Dispatch s) {l n : Nat}
    {data : Datagram} (hl : s'.log = .onReceived l n data :: s.log) : s.live l ∧
      (s.objects l).remoteEndpoint = s'.source n ∧ data = s'.payload n ∧ n < s'.received := by
  have hm := hi.mapped
  have hlp := hi.loop
  unfold UdpServer.live at *
  cases h
  case fail | ret => simp at hl
  all_goals grind -linarith -order [Function.update_apply]

/-- And it is not given the datagram if that link was closed before, or has no function. -/
theorem ServerStep.dropped_closed (h : ServerStep s a s') (hi : Dispatch s) {l n : Nat}
    (hl : s'.log = .dropped l n :: s.log) : (s.objects l).remoteEndpoint = s'.source n ∧
      n < s'.received ∧ ((s.objects l).closed = true ∨ (s'.objects l).handler.onReceived = false) := by
  have hm := hi.mapped
  have hlp := hi.loop
  unfold UdpServer.live at *
  cases h
  case fail | ret => simp at hl
  all_goals grind -linarith -order [Function.update_apply, UdpLink.delivers]

end Step

theorem Dispatch.reach {localId : PeerId} {s : UdpServer} (h : (UdpServer.lts localId).Reach Lts.Any s) :
    Dispatch s := by
  refine h.invariant ⟨?_, ?_, ?_, ?_, ?_, ?_⟩ fun hI _ he => (ServerStep.of_step he).dispatch hI <;>
    simp [UdpServer.lts, UdpServer.live]

/-- In every state the map has live links only, each under its own endpoint and named after
it, an endpoint has one live link at most, every link was told to the acceptor once, and a
datagram is handed over once, with the bytes that were received: to the live link of its
source, unless that was closed. -/
theorem datagrams_dispatched {localId : PeerId} {s : UdpServer}
    (h : (UdpServer.lts localId).Reach Lts.Any s) :
    (∀ ep l, s.links ep = some l → s.live l ∧ (s.objects l).remoteEndpoint = ep ∧
      (s.objects l).remoteId = endpointToPeerId ep) ∧
    (∀ l l', s.live l → s.live l' → (s.objects l).remoteEndpoint = (s.objects l').remoteEndpoint → l = l') ∧
    (∀ l, s.log.countP (ServerEvent.links l) = if l < s.created then 1 else 0) ∧
    (∀ n, s.log.countP (ServerEvent.handles n) ≤ 1 ∧
      (n < s.received → s.undelivered = 0 → s.log.countP (ServerEvent.handles n) = 1)) ∧
    ∀ a s', s.step a = some s' →
      (∀ l, s'.log = .onLink l :: s.log → ∀ l', s.live l' →
        (s.objects l').remoteEndpoint ≠ (s'.objects l).remoteEndpoint) ∧
      (∀ l n data, s'.log = .onReceived l n data :: s.log →
        s.live l ∧ (s.objects l).remoteEndpoint = s'.source n ∧ data = s'.payload n ∧
          n < s'.received) ∧
      (∀ l n, s'.log = .dropped l n :: s.log → (s.objects l).remoteEndpoint = s'.source n ∧
        n < s'.received ∧
        ((s.objects l).closed = true ∨ (s'.objects l).handler.onReceived = false)) ∧
      (∀ src data, a = .receive src data →
        s'.received = s.received + 1 ∧ s'.source s.received = src ∧ s'.payload s.received = data) ∧
      ∀ n < s.received, s'.source n = s.source n ∧ s'.payload n = s.payload n := by
  have hi := Dispatch.reach h
  refine ⟨fun ep l hl => ?_, fun l l' hl hl' heq => ?_, hi.linked, fun n => ?_, fun a s' he => ?_⟩
  · obtain ⟨hlive, hep⟩ := hi.mapped ep l hl
    exact ⟨hlive, hep, hep ▸ hi.named l hlive.1⟩
  · have h₁ := hi.stored l hl
    rw [heq, hi.stored l' hl'] at h₁
    exact (Option.some.inj h₁).symm
  · have hn := hi.handled n
    refine ⟨?_, fun hlt hu => ?_⟩
    · split at hn <;> split at hn <;> omega
    · rw [hu, if_pos hlt] at hn
      simpa using hn
  · have hstep := ServerStep.of_step he
    exact ⟨fun l hl => hstep.onLink_fresh hi hl, fun l n data hl => hstep.onReceived_live hi hl,
      fun l n hl => hstep.dropped_closed hi hl, fun src data ha => (ha ▸ hstep).received_receive,
      fun n hn => hstep.received_old hn⟩

/-- A datagram whose link is disconnected inside `OnLink`, and another one of the same
endpoint, which gets a link of its own and is handed over there. -/
theorem datagrams_dispatched_again : ∃ s, (UdpServer.lts ⟨"0.0.0.0:7"⟩).Reach Lts.Any s ∧
    s.links ⟨0x7f000001, 9⟩ = some 1 ∧ (s.objects 0).closed = true ∧
    (s.objects 1).remoteId = ⟨"127.0.0.1:9"⟩ ∧ s.payload 1 = [2] ∧
    s.log = [.onReceived 1 1 [2], .onLink 1, .dropped 0 0, .disconnect 0, .onLink 0] := by
  obtain ⟨s, hs, hq⟩ := Lts.Reach.of_run (UdpServer.lts ⟨"0.0.0.0:7"⟩) Lts.Any
    [.receive ⟨0x7f000001, 9⟩ [1], .disconnect 0, .onLink ⟨true, true⟩, .receive ⟨0x7f000001, 9⟩ [2],
      .onLink ⟨true, true⟩, .ret]
    (fun s => s.links ⟨0x7f000001, 9⟩ = some 1 ∧ (s.objects 0).closed = true ∧
      s.payload 1 = [2] ∧ s.log = [.onReceived 1 1 [2], .onLink 1, .dropped 0 0, .disconnect 0, .onLink 0]) (by decide +kernel)
  obtain ⟨hl, hc, hp, hlog⟩ := of_decide_eq_true hq
  refine ⟨s, hs, hl, hc, ?_, hp, hlog⟩
  rw [((datagrams_dispatched hs).1 _ 1 hl).2.2]
  decide +kernel

end TX.Rtt.Udp
