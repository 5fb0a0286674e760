import TxPkgAux.Proof.Rtt.UdpServer

/-!
# `UdpLink`: `onDisconnected`

The handler that `OnLink` returned is bound after it returned, and `Disconnect` calls the
handler that is bound when it sets `_closed`. `BoundFirst` and `SharedBoundFirst` are the
condition that `Disconnect` is not called inside `OnLink`, and `onDisconnected_once` says
that then the handler of a link that is closed was told, and told once, in either mode;
`onDisconnected_never` is a `Disconnect` inside `OnLink`.
-/

namespace TX.Rtt.Udp

open Function (update)

/-! ## Connected mode -/

/-- `Disconnect` is called after `StartReceive`. -/
def BoundFirst (s : ConnectedLink) : LinkAction → Prop
  | .disconnect => s.started = true
  | _ => True

/-- The handler was told if the link is closed, and is bound before that. -/
structure ToldInv (s : ConnectedLink) : Prop where
  unstarted : s.started = false → s.link.closed = false ∧ s.receive = .idle
  told : s.log.count .onDisconnected =
    if s.link.closed = true ∧ s.link.handler.onDisconnected = true then 1 else 0

section Connected

variable {s s' : ConnectedLink} {a : LinkAction}

theorem ToldInv.disconnect (hi : ToldInv s) (hs : s.started = true) : ToldInv s.disconnect := by
  have ht := hi.told
  simp only [ConnectedLink.disconnect]
  split
  · exact ⟨fun h => by simp [ConnectedLink.emit, hs] at h, (List.count_cons_of_ne (by decide)).trans ht⟩
  · rename_i hc
    have hc : s.link.closed = false := by simpa [ConnectedLink.emit] using hc
    rw [hc] at ht
    split
    · rename_i hd
      exact ⟨fun h => by simp [ConnectedLink.emit, hs] at h, by simp_all [ConnectedLink.emit]⟩
    · rename_i hd
      exact ⟨fun h => by simp [ConnectedLink.emit, hs] at h, by simp_all [ConnectedLink.emit]⟩

theorem ToldInv.step (hi : ToldInv s) (hb : BoundFirst s a) (he : s.step a = some s') : ToldInv s' := by
  have hrun : s.receive ≠ .idle → s.started = true := fun hr => by
    by_contra hn
    exact hr (hi.unstarted (by simpa using hn)).2
  cases a with
  | startReceive h =>
    simp only [ConnectedLink.step] at he
    split at he <;> cases he
    rename_i hs
    have ht := hi.told
    rw [(hi.unstarted (by simpa using hs)).1] at ht
    refine ⟨fun h => Bool.noConfusion h, ?_⟩
    simpa [ConnectedLink.doReceive, UdpLink.setHandler, (hi.unstarted (by simpa using hs)).1] using ht
  | arrive data | fail | ret =>
    simp only [ConnectedLink.step] at he
    split at he <;> cases he
    rename_i hr
    have hs := hrun (by simp [hr])
    exact ⟨fun h => by simp [ConnectedLink.doReceive, hs] at h, hi.told⟩
  | disconnect =>
    cases he
    exact hi.disconnect hb
  | complete =>
    simp only [ConnectedLink.step, ConnectedLink.complete] at he
    split at he
    · rename_i hr
      have hs := hrun (by simp [hr])
      have hidle : ToldInv { s with receive := .idle } := ⟨fun h => by simp [hs] at h, hi.told⟩
      split at he <;> cases he
      · exact hidle
      · exact hidle.disconnect hs
    · rename_i data hr
      have hs := hrun (by simp [hr])
      split at he <;> cases he
      · exact ⟨fun h => by simp [ConnectedLink.emit, hs] at h,
          (List.count_cons_of_ne (by simp)).trans hi.told⟩
      · exact ⟨fun h => by simp [ConnectedLink.doReceive, hs] at h, hi.told⟩
    all_goals cases he

end Connected

theorem ToldInv.reach {remoteId : PeerId} {s : ConnectedLink}
    (h : (ConnectedLink.lts remoteId).Reach BoundFirst s) : ToldInv s :=
  h.invariant ⟨fun _ => ⟨rfl, rfl⟩, rfl⟩ fun hI hb he => hI.step hb he

/-! ## Shared mode -/

/-- `Disconnect` is not called on a link inside `OnLink` with it. -/
def SharedBoundFirst (s : UdpServer) : ServerAction → Prop
  | .disconnect l => ∀ data, s.loop ≠ .inOnLink l data
  | _ => True

/-- The handlers of the links that are closed were told, and are bound before that. -/
structure SharedToldInv (s : UdpServer) : Prop where
  inOnLink : ∀ l data, s.loop = .inOnLink l data → l < s.created ∧ (s.objects l).closed = false
  told : ∀ l, s.log.count (.onDisconnected l) =
    if l < s.created ∧ (s.objects l).closed = true ∧ (s.objects l).handler.onDisconnected = true then 1
    else 0

section Shared

variable {s s' : UdpServer} {a : ServerAction}

theorem ServerStep.told_inOnLink (h : ServerStep s a s') (hi : SharedToldInv s) (hb : SharedBoundFirst s a)
    (l : Nat) (data : Datagram) (hl : s'.loop = .inOnLink l data) :
    l < s'.created ∧ (s'.objects l).closed = false := by
  have hold := hi.inOnLink
  cases h with
  | disconnect l' hl' hc =>
    obtain ⟨hlt, hcl⟩ := hold l data hl
    have hne : l ≠ l' := fun heq => hb data (heq ▸ hl)
    exact ⟨hlt, by simpa [hne] using hcl⟩
  | closed l' hl' hc => exact hold l data hl
  | create src d hw hm =>
    cases hl
    exact ⟨Nat.lt_succ_self _, by simp⟩
  | deliver | ignore | fail | first | firstIgnored | ret => cases hl

/-- A handler is bound while its link is not closed, and so was not told before. -/
theorem SharedToldInv.bind {l : Nat} {h : LinkHandler} (hi : SharedToldInv s)
    (hc : (s.objects l).closed = false) (l' : Nat) : s.log.count (.onDisconnected l') =
      if l' < s.created ∧ (update s.objects l { s.objects l with handler := h } l').closed = true ∧
        (update s.objects l { s.objects l with handler := h } l').handler.onDisconnected = true then 1
      else 0 := by
  rw [hi.told l']
  by_cases hl : l' = l
  · subst hl
    simp [hc]
  · simp [hl]

theorem ServerStep.told (h : ServerStep s a s') (hi : SharedToldInv s) (l : Nat) :
    s'.log.count (.onDisconnected l) =
      if l < s'.created ∧ (s'.objects l).closed = true ∧ (s'.objects l).handler.onDisconnected = true
      then 1 else 0 := by
  have hold := hi.told l
  cases h with
  | deliver | ignore | fail | ret | closed => simpa using hold
  | create src data hw hm =>
    by_cases hl : l = s.created
    · subst hl
      simpa using hold
    · have hlt : l < s.created + 1 ↔ l < s.created := by omega
      simpa [hl, hlt] using hold
  | first h hl hc hd => simpa using hi.bind (hi.inOnLink _ _ hl).2 l
  | firstIgnored h hl hd => simpa using hi.bind (hi.inOnLink _ _ hl).2 l
  | disconnect l' hl' hc =>
    by_cases hl : l = l'
    · subst hl
      have hzero : s.log.count (.onDisconnected l) = 0 := by simpa [hc] using hold
      by_cases hd : (s.objects l).handler.onDisconnected = true <;> simp [hd, hzero, hl']
    · have hne : ServerEvent.onDisconnected l' ≠ .onDisconnected l := by simpa using Ne.symm hl
      by_cases hd : (s.objects l').handler.onDisconnected = true <;> simpa [hd, hl, Ne.symm hl] using hold

end Shared

theorem SharedToldInv.reach {localId : PeerId} {s : UdpServer}
    (h : (UdpServer.lts localId).Reach SharedBoundFirst s) : SharedToldInv s := by
  refine h.invariant ⟨fun l data hl => (by cases hl), fun l => (by simp [UdpServer.lts])⟩ fun hI hb he => ?_
  have hstep := ServerStep.of_step he
  exact ⟨hstep.told_inOnLink hI hb, hstep.told hI⟩

/-! ## Both -/

/-- In the runs in which `Disconnect` is not called inside `OnLink`, a link that is closed
has the handler that `OnLink` returned, and its `onDisconnected` was called once; that of a
link that is not closed was not called. -/
theorem onDisconnected_once {remoteId localId : PeerId} {s : ConnectedLink} {s' : UdpServer}
    (h : (ConnectedLink.lts remoteId).Reach BoundFirst s)
    (h' : (UdpServer.lts localId).Reach SharedBoundFirst s') (l : Nat) (hl : l < s'.created) :
    (s.link.closed = true → s.started = true ∧
      (s.link.handler.onDisconnected = true → s.log.count .onDisconnected = 1)) ∧
    (s.link.closed = false → s.log.count .onDisconnected = 0) ∧
    ((s'.objects l).closed = true → (∀ data, s'.loop ≠ .inOnLink l data) ∧
      ((s'.objects l).handler.onDisconnected = true → s'.log.count (.onDisconnected l) = 1)) ∧
    ((s'.objects l).closed = false → s'.log.count (.onDisconnected l) = 0) := by
  have hi := ToldInv.reach h
  have hi' := SharedToldInv.reach h'
  refine ⟨fun hc => ⟨?_, fun hd => ?_⟩, fun hc => ?_, fun hc => ⟨fun data hd => ?_, fun hd => ?_⟩, fun hc => ?_⟩
  · by_contra hn
    simp [(hi.unstarted (by simpa using hn)).1] at hc
  · simp [hi.told, hc, hd]
  · simp [hi.told, hc]
  · simp [(hi'.inOnLink l data hd).2] at hc
  · simp [hi'.told l, hl, hc, hd]
  · simp [hi'.told l, hc]

instance (s : ConnectedLink) (a : LinkAction) : Decidable (BoundFirst s a) :=
  match a with
  | .disconnect => inferInstanceAs (Decidable (s.started = true))
  | .startReceive _ | .arrive _ | .fail | .complete | .ret => .isTrue trivial

instance (s : UdpServer) (a : ServerAction) : Decidable (SharedBoundFirst s a) :=
  match a with
  | .disconnect l =>
    match hl : s.loop with
    | .inOnLink l' _ => decidable_of_iff (l' ≠ l)
        ⟨fun hne data he => hne (by cases hl.symm.trans he; rfl), fun hn he => hn _ (he ▸ hl)⟩
    | .waiting | .inReceived _ | .ended => .isTrue fun data he => by simp [hl] at he
  | .receive _ _ | .fail | .onLink _ | .ret => .isTrue trivial

/-- A receive error in connected mode, and two `Disconnect` inside `onReceived` in shared
mode. -/
theorem onDisconnected_once_closed : ∃ s s',
    (ConnectedLink.lts ⟨"127.0.0.1:9"⟩).Reach BoundFirst s ∧
    (UdpServer.lts ⟨"0.0.0.0:7"⟩).Reach SharedBoundFirst s' ∧ s.link.closed = true ∧
    (s'.objects 0).closed = true ∧ s.log.count .onDisconnected = 1 ∧
    s'.log.count (.onDisconnected 0) = 1 := by
  obtain ⟨s, hs, hq⟩ := Lts.Reach.of_run (ConnectedLink.lts ⟨"127.0.0.1:9"⟩) BoundFirst
    [.startReceive ⟨true, true⟩, .fail, .complete]
    (fun s => s.link.closed = true ∧ s.link.handler.onDisconnected = true) (by decide +kernel)
  obtain ⟨s', hs', hq'⟩ := Lts.Reach.of_run (UdpServer.lts ⟨"0.0.0.0:7"⟩) SharedBoundFirst
    [.receive ⟨0x7f000001, 9⟩ [1], .onLink ⟨true, true⟩, .disconnect 0, .disconnect 0, .ret]
    (fun s => 0 < s.created ∧ (s.objects 0).closed = true ∧
      (s.objects 0).handler.onDisconnected = true) (by decide +kernel)
  obtain ⟨hc, hd⟩ := of_decide_eq_true hq
  obtain ⟨hl', hc', hd'⟩ := of_decide_eq_true hq'
  obtain ⟨h₁, -, h₂, -⟩ := onDisconnected_once hs hs' 0 hl'
  exact ⟨s, s', hs, hs', hc, hc', (h₁ hc).2 hd, (h₂ hc').2 hd'⟩

/-- `Disconnect` inside `OnLink`: the handler that it returns is bound to a closed link, and
never told, in either mode. -/
theorem onDisconnected_never : ∃ s s', (ConnectedLink.lts ⟨"127.0.0.1:9"⟩).Reach Lts.Any s ∧
    (UdpServer.lts ⟨"0.0.0.0:7"⟩).Reach Lts.Any s' ∧
    s.link.closed = true ∧ s.started = true ∧ s.link.handler.onDisconnected = true ∧
    s.log.count .onDisconnected = 0 ∧
    (s'.objects 0).closed = true ∧ s'.loop = .waiting ∧ (s'.objects 0).handler.onDisconnected = true ∧
    s'.log.count (.onDisconnected 0) = 0 := by
  obtain ⟨s, hs, hq⟩ := Lts.Reach.of_run (ConnectedLink.lts ⟨"127.0.0.1:9"⟩) Lts.Any
    [.disconnect, .startReceive ⟨true, true⟩]
    (fun s => s.link.closed = true ∧ s.started = true ∧ s.link.handler.onDisconnected = true ∧
      s.log.count .onDisconnected = 0) (by decide +kernel)
  obtain ⟨s', hs', hq'⟩ := Lts.Reach.of_run (UdpServer.lts ⟨"0.0.0.0:7"⟩) Lts.Any
    [.receive ⟨0x7f000001, 9⟩ [1], .disconnect 0, .onLink ⟨true, true⟩]
    (fun s => (s.objects 0).closed = true ∧ s.loop = .waiting ∧
      (s.objects 0).handler.onDisconnected = true ∧ s.log.count (.onDisconnected 0) = 0) (by decide +kernel)
  obtain ⟨h₁, h₂, h₃, h₄⟩ := of_decide_eq_true hq
  exact ⟨s, s', hs, hs', h₁, h₂, h₃, h₄, of_decide_eq_true hq'⟩

end TX.Rtt.Udp
