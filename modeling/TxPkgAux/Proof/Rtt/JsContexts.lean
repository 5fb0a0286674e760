import TxPkgAux.Framework.Count
import TxPkgAux.Impl.Rtt.JsRtcTransport
import TxPkgAux.Proof.Rtt.DcStep

/-!
# `JsRtcTransport`: contexts

`peers` has raw pointers to the contexts, which their links delete. In every run no entry of
`peers` is a deleted context, `inboundCount` is the number of inbound contexts that have not
ended and within the limit, and the acceptor hears of a link once, its handler of the end
once at most, and after that (`contexts_sound`).

`JsEffect` is what a step does to the contexts: nothing that matters here (`JsAside`), or one of
the steps from the creation of a context to its end.
-/

namespace TX.Rtt

open Function (update)

/-- Somebody refers to the link. -/
def JsRtcPeerContext.busy (r : JsRtcPeerContext) : Bool := 0 < r.held ∨ r.inOnLink = true

/-- What the calls that are made of a link leave as it is. -/
structure JsRtcPeerContext.Kept (r r' : JsRtcPeerContext) : Prop where
  remoteId : r'.remoteId = r.remoteId
  inbound : r'.inbound = r.inbound
  opened : r'.opened = r.opened
  linked : r'.linked = r.linked
  deleted : r'.deleted = r.deleted
  closedFired : r'.closedFired = r.closedFired
  ended : r'.ended = r.ended
  busy : r'.busy = true → r.busy = true

def JsEvent.links (c : Nat) : JsEvent → Bool
  | .linked c' => c' = c
  | _ => false

def JsEvent.disconnects (c : Nat) : JsEvent → Bool
  | .onDisconnected c' => c' = c
  | _ => false

/-- The event is of no concern to the links. -/
def JsEvent.aside : JsEvent → Bool
  | .linked _ | .onDisconnected _ => false
  | _ => true

/-- A step that is of no concern to the contexts. -/
structure JsAside (s s' : JsRtcTransport) : Prop where
  max : s'.maxInboundConnections = s.maxInboundConnections
  peers : s'.peers = s.peers
  inboundCount : s'.inboundCount = s.inboundCount
  created : s'.created = s.created
  alive : s'.alive = s.alive
  contexts : ∀ c, (s.contexts c).Kept (s'.contexts c)
  log : ∃ es : List JsEvent, s'.log = es ++ s.log ∧ ∀ e ∈ es, e.aside = true

/-- A context as it is made. -/
structure JsRtcPeerContext.Fresh (r : JsRtcPeerContext) : Prop where
  opened : r.opened = false
  linked : r.linked = false
  deleted : r.deleted = false
  closedFired : r.closedFired = false
  ended : r.ended = false
  busy : r.busy = false

inductive JsEffect (s : JsRtcTransport) : JsRtcTransport → Prop where
  | aside {s' : JsRtcTransport} (h : JsAside s s') : JsEffect s s'
  | stored {s₁ : JsRtcTransport} (h : JsAside s s₁) (r : JsRtcPeerContext) (hr : r.Fresh)
      (ha : s.alive = true) (hi : r.inbound = true → s.inboundCount < s.maxInboundConnections)
      (e : Option JsEvent) (he : ∀ e' ∈ e, e'.aside = true) :
    JsEffect s { s₁.store r with
      inboundCount := if r.inbound then s₁.inboundCount + 1 else s₁.inboundCount
      log := e.toList ++ s₁.log }
  | opened (c : Nat) (hc : c < s.created) (ho : (s.contexts c).opened = false)
      (hd : (s.contexts c).deleted = false) (ha : s.alive = true) :
    JsEffect s { s with
      contexts := update s.contexts c { s.contexts c with opened := true, linked := true, inOnLink := true }
      log := .linked c :: s.log
      inUse := s.inUse + 1 }
  | openedLate (c : Nat) (hc : c < s.created) (ho : (s.contexts c).opened = false) (ha : s.alive = false) :
    JsEffect s { s with
      contexts := update s.contexts c { s.contexts c with opened := true, mapped := false, deleted := true } }
  | closed (c : Nat) (hl : (s.contexts c).linked = true) (hf : (s.contexts c).closedFired = false) :
    JsEffect s { s with
      contexts := update s.contexts c { s.contexts c with closedFired := true }
      log := if (s.contexts c).handler.onDisconnected then .onDisconnected c :: s.log else s.log }
  | ended {s₁ : JsRtcTransport} (h : JsAside s s₁) (c : Nat) (hl : (s.contexts c).busy = true)
      (hb : (s₁.contexts c).busy = false) : JsEffect s (s₁.destroyLink c)
  | destroyed : JsEffect s { s with alive := false, peers := fun _ => none }

section Effect

variable {s s' : JsRtcTransport} {c : Nat}

theorem JsRtcPeerContext.Kept.refl (r : JsRtcPeerContext) : r.Kept r :=
  ⟨rfl, rfl, rfl, rfl, rfl, rfl, rfl, id⟩

theorem kept_update {r : JsRtcPeerContext} (h : (s.contexts c).Kept r) (k : Nat) :
    (s.contexts k).Kept (update s.contexts c r k) := by
  by_cases hk : k = c
  · subst hk
    rwa [Function.update_self]
  · rw [Function.update_of_ne hk]
    exact .refl _

theorem JsAside.refl (s : JsRtcTransport) : JsAside s s :=
  ⟨rfl, rfl, rfl, rfl, rfl, fun _ => .refl _, [], rfl, by simp⟩

theorem JsAside.emit (s : JsRtcTransport) {e : JsEvent} (he : e.aside = true) : JsAside s (s.emit e) :=
  ⟨rfl, rfl, rfl, rfl, rfl, fun _ => .refl _, [e], rfl, by simpa⟩

theorem JsAside.setContext {r : JsRtcPeerContext} (h : (s.contexts c).Kept r) : JsAside s (s.setContext c r) :=
  ⟨rfl, rfl, rfl, rfl, rfl, kept_update h, [], rfl, by simp⟩

theorem JsAside.setRemoteAnswer (s : JsRtcTransport) (c : Nat) (d : Description) :
    JsAside s (s.setRemoteAnswer c d) := by
  simp only [JsRtcTransport.setRemoteAnswer]
  split
  · exact ⟨rfl, rfl, rfl, rfl, rfl, kept_update ⟨rfl, rfl, rfl, rfl, rfl, rfl, rfl, id⟩, [.described c d],
      rfl, by simp [JsEvent.aside]⟩
  · exact .refl s

theorem JsAside.addIceCandidate (s : JsRtcTransport) (c : Nat) (cand : Candidate) :
    JsAside s (s.addIceCandidate c cand) := by
  simp only [JsRtcTransport.addIceCandidate]
  split
  · split
    · exact .emit s rfl
    · exact .setContext ⟨rfl, rfl, rfl, rfl, rfl, rfl, rfl, id⟩
  · exact .refl s

theorem onOffer_effect {s : JsRtcTransport} (ha : s.alive = true) (src : PeerId) (j : Json) :
    JsEffect s (s.onOffer src j) := by
  simp only [JsRtcTransport.onOffer]
  split
  · exact .aside (.refl s)
  · rename_i hmax
    split
    · exact .aside (.emit s rfl)
    · rename_i sdp hd
      exact .stored (.refl s) { remoteId := src, inbound := true, describing := true }
        ⟨rfl, rfl, rfl, rfl, rfl, rfl⟩ ha (fun _ => by omega) (some (.described s.created ⟨sdp, .offer, src⟩))
        (by simp [JsEvent.aside])

theorem onAnswer_effect (s : JsRtcTransport) (src : PeerId) (j : Json) : JsEffect s (s.onAnswer src j) := by
  simp only [JsRtcTransport.onAnswer]
  split
  · split
    · exact .aside (.emit s rfl)
    · split
      · exact .aside (.refl s)
      · exact .aside (.setRemoteAnswer s _ _)
  · exact .aside (.refl s)

theorem onCandidate_effect (s : JsRtcTransport) (src : PeerId) (j : Json) :
    JsEffect s (s.onCandidate src j) := by
  simp only [JsRtcTransport.onCandidate]
  split
  · split
    · exact .aside (.refl s)
    · exact .aside (.addIceCandidate s _ _)
  · exact .aside (.emit s rfl)

theorem onMessage_effect (parse : Parse) {s : JsRtcTransport} (ha : s.alive = true) (m : SigMessage) :
    JsEffect s (s.onMessage parse m) := by
  simp only [JsRtcTransport.onMessage]
  split
  · exact .aside (.refl s)
  · split
    · exact .aside (.emit s rfl)
    · exact onOffer_effect ha _ _
    · exact onAnswer_effect s _ _
    · exact onCandidate_effect s _ _
    · exact .aside (.refl s)

theorem onJoined_effect {s : JsRtcTransport} (ha : s.alive = true) (result : Option Error) :
    JsEffect s (s.onJoined result) := by
  cases result with
  | some e => exact .aside ⟨rfl, rfl, rfl, rfl, rfl, fun _ => .refl _, [.refused e], rfl, by simp [JsEvent.aside]⟩
  | none =>
    have hs : JsAside s { s with joined := true, handling := true } :=
      ⟨rfl, rfl, rfl, rfl, rfl, fun _ => .refl _, [], rfl, by simp⟩
    simp only [JsRtcTransport.onJoined]
    split
    · exact .stored hs { remoteId := s.remoteId, inbound := false } ⟨rfl, rfl, rfl, rfl, rfl, rfl⟩ ha nofun none
        (by simp)
    · exact .aside hs

theorem onDescSet_effect (s : JsRtcTransport) (c : Nat) : JsEffect s (s.onDescSet c) :=
  .aside ⟨rfl, rfl, rfl, rfl, rfl, kept_update ⟨rfl, rfl, rfl, rfl, rfl, rfl, rfl, id⟩, _, rfl, by
    simp [JsEvent.aside]⟩

theorem onDataChannelOpen_effect {s : JsRtcTransport} (hc : c < s.created)
    (hd : (s.contexts c).deleted = false) : JsEffect s (s.onDataChannelOpen c) := by
  simp only [JsRtcTransport.onDataChannelOpen]
  split
  · exact .aside (.refl s)
  · rename_i ho
    split
    · exact .opened c hc (by simpa using ho) hd ‹_›
    · exact .openedLate c hc (by simpa using ho) (by simpa using ‹¬ s.alive = true›)

theorem setHandler_aside {s : JsRtcTransport} {keep : Bool} {h : LinkHandler}
    (hl : (s.contexts c).inOnLink = true) : JsAside s (s.setHandler c keep h) :=
  ⟨rfl, rfl, rfl, rfl, rfl, kept_update ⟨rfl, rfl, rfl, rfl, rfl, rfl, rfl, fun _ => by
    simp [JsRtcPeerContext.busy, hl]⟩, [], rfl, by simp⟩

theorem onLink_effect {s : JsRtcTransport} {keep : Bool} {h : LinkHandler}
    (hl : (s.contexts c).inOnLink = true) : JsEffect s (s.onLink c keep h) := by
  simp only [JsRtcTransport.onLink]
  split
  · rename_i hh
    refine .ended (setHandler_aside hl) c (by simp [JsRtcPeerContext.busy, hl]) ?_
    have hin : ((s.setHandler c keep h).contexts c).inOnLink = false := by
      simp [JsRtcTransport.setHandler, JsRtcTransport.setContext]
    simp [JsRtcPeerContext.busy, hh, hin]
  · exact .aside (setHandler_aside hl)

theorem onClose_effect (s : JsRtcTransport) (c : Nat) : JsEffect s (s.onClose c) := by
  simp only [JsRtcTransport.onClose]
  split
  · rename_i h
    convert JsEffect.closed c h.1 h.2 using 1
    split <;> rfl
  · exact .aside (.refl s)

theorem dropLink_effect {s : JsRtcTransport} (hh : 0 < (s.contexts c).held) : JsEffect s (s.dropLink c) := by
  have hset : JsAside s (s.setContext c { s.contexts c with held := (s.contexts c).held - 1 }) :=
    .setContext ⟨rfl, rfl, rfl, rfl, rfl, rfl, rfl, fun _ => by simp [JsRtcPeerContext.busy, hh]⟩
  simp only [JsRtcTransport.dropLink]
  split
  · rename_i h
    exact .ended hset c (by simp [JsRtcPeerContext.busy, hh])
      (by simp [JsRtcPeerContext.busy, JsRtcTransport.setContext, h.1, h.2])
  · exact .aside hset

theorem JsEffect.of_step {parse : Parse} {a : JsAction} (he : s.step parse a = some s') : JsEffect s s' := by
  cases a <;> simp only [JsRtcTransport.step] at he <;> split at he <;> cases he <;> rename_i h
  case joined result => exact onJoined_effect h.2 result
  case onMessage m => exact onMessage_effect parse h.2 m
  case onLeft ec =>
    cases ec
    · exact .aside (.refl s)
    · exact .aside (.emit s rfl)
  case descSet c => exact onDescSet_effect s c
  case onDataChannelOpen c => exact onDataChannelOpen_effect h.1 h.2.2
  case onLink c keep hd => exact onLink_effect h.2
  case onDataChannelClose c => exact onClose_effect s c
  case disconnect c =>
    split
    · exact .aside (.refl s)
    · exact .aside (.setContext ⟨rfl, rfl, rfl, rfl, rfl, rfl, rfl, id⟩)
  case dropLink c => exact dropLink_effect h.2
  case destroy => exact .destroyed

end Effect

/-! ## The invariant -/

/-- The number of inbound contexts that have not ended. -/
def JsRtcTransport.unended (s : JsRtcTransport) : Nat :=
  Nat.count (fun c => (s.contexts c).inbound = true ∧ (s.contexts c).ended = false) s.created

/-- A link is made of a context that opened, and deletes it at its end. -/
structure JsRtcPeerContext.Sound (r : JsRtcPeerContext) : Prop where
  linked : r.linked = true → r.opened = true ∧ r.deleted = false
  busy : r.busy = true → r.linked = true
  ended : r.ended = true → r.deleted = true

structure JsInv (s : JsRtcTransport) : Prop where
  context : ∀ c, (s.contexts c).Sound
  fresh : ∀ c, s.created ≤ c → (s.contexts c).Fresh
  stored : ∀ id c, s.peers id = some c →
    s.alive = true ∧ c < s.created ∧ (s.contexts c).remoteId = id ∧ (s.contexts c).deleted = false
  count : s.alive = true → s.inboundCount = s.unended
  limit : s.inboundCount ≤ s.maxInboundConnections
  linked : ∀ c, s.log.countP (JsEvent.links c) ≤ 1 ∧
    ((s.contexts c).opened = false → s.log.countP (JsEvent.links c) = 0) ∧
    ((s.contexts c).linked = true ∨ (s.contexts c).ended = true → .linked c ∈ s.log)
  disconnected : ∀ c, s.log.countP (JsEvent.disconnects c) ≤ 1 ∧
    ((s.contexts c).closedFired = false → s.log.countP (JsEvent.disconnects c) = 0)
  order : ∀ c log, .onDisconnected c :: log <:+ s.log → .linked c ∈ log

section Invariant

variable {s s' s₁ : JsRtcTransport} {c : Nat}

theorem JsRtcPeerContext.Kept.sound {r r' : JsRtcPeerContext} (h : r.Kept r') (hr : r.Sound) : r'.Sound where
  linked hl := by
    rw [h.opened, h.deleted]
    exact hr.linked (h.linked ▸ hl)
  busy hb := h.linked.trans (hr.busy (h.busy hb))
  ended he := h.deleted.trans (hr.ended (h.ended ▸ he))

theorem JsRtcPeerContext.Kept.fresh {r r' : JsRtcPeerContext} (h : r.Kept r') (hr : r.Fresh) : r'.Fresh where
  opened := h.opened.trans hr.opened
  linked := h.linked.trans hr.linked
  deleted := h.deleted.trans hr.deleted
  closedFired := h.closedFired.trans hr.closedFired
  ended := h.ended.trans hr.ended
  busy := by
    by_contra hb
    have := h.busy (by simpa using hb)
    simp [hr.busy] at this

theorem JsRtcPeerContext.Fresh.sound {r : JsRtcPeerContext} (h : r.Fresh) : r.Sound where
  linked hl := by simp [h.linked] at hl
  busy hb := by simp [h.busy] at hb
  ended he := by simp [h.ended] at he

theorem countP_aside {p : JsEvent → Bool} {es log : List JsEvent} (hp : ∀ e, e.aside = true → p e = false)
    (he : ∀ e ∈ es, e.aside = true) : (es ++ log).countP p = log.countP p := by
  have hz : es.countP p = 0 := List.countP_eq_zero.mpr fun e hm => by simp [hp e (he e hm)]
  rw [List.countP_append, hz, Nat.zero_add]

theorem suffix_aside {c : Nat} {es log log' : List JsEvent} (he : ∀ e ∈ es, e.aside = true)
    (h : .onDisconnected c :: log' <:+ es ++ log) : .onDisconnected c :: log' <:+ log := by
  refine suffix_of_notMem (fun hm => ?_) h
  cases he _ hm

/-! ### The end of a link -/

theorem destroyLink_contexts (s : JsRtcTransport) (c : Nat) : (s.destroyLink c).contexts =
    update s.contexts c { s.contexts c with
      mapped := false, deleted := true, linked := false, ended := s.alive || (s.contexts c).ended } := by
  simp only [JsRtcTransport.destroyLink]
  split <;> rename_i h <;> simp [JsRtcTransport.setContext, h]

theorem destroyLink_peers (s : JsRtcTransport) (c : Nat) : (s.destroyLink c).peers =
    if s.alive = true then update s.peers (s.contexts c).remoteId none else s.peers := by
  simp only [JsRtcTransport.destroyLink]
  split <;> rfl

theorem destroyLink_inboundCount (s : JsRtcTransport) (c : Nat) : (s.destroyLink c).inboundCount =
    if s.alive = true ∧ (s.contexts c).inbound = true then s.inboundCount - 1 else s.inboundCount := by
  simp only [JsRtcTransport.destroyLink]
  split
  · rename_i h
    simp only [h, true_and]
    cases (s.contexts c).inbound <;> simp
    omega
  · rename_i h
    simp [JsRtcTransport.setContext, h]

@[simp]
theorem destroyLink_created (s : JsRtcTransport) (c : Nat) : (s.destroyLink c).created = s.created := by
  simp only [JsRtcTransport.destroyLink]
  split <;> rfl

@[simp]
theorem destroyLink_alive (s : JsRtcTransport) (c : Nat) : (s.destroyLink c).alive = s.alive := by
  simp only [JsRtcTransport.destroyLink]
  split <;> rfl

@[simp]
theorem destroyLink_max (s : JsRtcTransport) (c : Nat) :
    (s.destroyLink c).maxInboundConnections = s.maxInboundConnections := by
  simp only [JsRtcTransport.destroyLink]
  split <;> rfl

@[simp]
theorem destroyLink_log (s : JsRtcTransport) (c : Nat) : (s.destroyLink c).log = s.log := by
  simp only [JsRtcTransport.destroyLink]
  split <;> rfl

/-! ### What the steps keep -/

/-- A context that is referred to was created, and is not deleted. -/
theorem JsInv.busy (hi : JsInv s) (hb : (s.contexts c).busy = true) : c < s.created ∧
    (s.contexts c).linked = true ∧ (s.contexts c).opened = true ∧ (s.contexts c).deleted = false := by
  have hl := (hi.context c).busy hb
  obtain ⟨ho, hd⟩ := (hi.context c).linked hl
  refine ⟨?_, hl, ho, hd⟩
  by_contra hc
  have := (hi.fresh c (by omega)).busy
  simp [hb] at this

theorem JsInv.linked_created (hi : JsInv s) (hl : (s.contexts c).linked = true) : c < s.created := by
  by_contra hc
  have := (hi.fresh c (by omega)).linked
  simp [hl] at this

theorem JsEffect.context (h : JsEffect s s') (hi : JsInv s) (k : Nat) : (s'.contexts k).Sound := by
  have hold := hi.context k
  cases h with
  | aside h => exact (h.contexts k).sound hold
  | @stored s₁ h r hr ha hin e he =>
    by_cases hk : k = s₁.created
    · subst hk
      simpa [JsRtcTransport.store] using hr.sound
    · simpa [JsRtcTransport.store, hk] using (h.contexts k).sound hold
  | opened c hc ho hd ha =>
    by_cases hk : k = c
    · subst hk
      simp only [Function.update_self]
      exact ⟨fun _ => ⟨rfl, hd⟩, fun _ => rfl, hold.ended⟩
    · simpa [hk] using hold
  | openedLate c hc ho ha =>
    by_cases hk : k = c
    · subst hk
      simp only [Function.update_self]
      have hl : (s.contexts k).linked = false := by
        by_contra hl
        simp [(hold.linked (by simpa using hl)).1] at ho
      exact ⟨fun h => by simp [hl] at h, hold.busy, fun _ => rfl⟩
    · simpa [hk] using hold
  | closed c hl hf =>
    by_cases hk : k = c
    · subst hk
      simp only [Function.update_self]
      exact ⟨hold.linked, hold.busy, hold.ended⟩
    · simpa [hk] using hold
  | @ended s₁ h c hl hb =>
    rw [destroyLink_contexts]
    by_cases hk : k = c
    · subst hk
      simp only [Function.update_self]
      exact ⟨nofun, fun h => absurd h (by simpa [JsRtcPeerContext.busy] using hb), fun _ => rfl⟩
    · rw [Function.update_of_ne hk]
      exact (h.contexts k).sound hold
  | destroyed => exact hold

theorem JsEffect.fresh (h : JsEffect s s') (hi : JsInv s) (k : Nat) (hk : s'.created ≤ k) :
    (s'.contexts k).Fresh := by
  cases h with
  | aside h => exact (h.contexts k).fresh (hi.fresh k (h.created ▸ hk))
  | @stored s₁ h r hr ha hin e he =>
    have hlt : s₁.created + 1 ≤ k := hk
    have hne : k ≠ s₁.created := by omega
    simpa [JsRtcTransport.store, hne] using (h.contexts k).fresh (hi.fresh k (by rw [← h.created]; omega))
  | opened c hc | openedLate c hc =>
    have hne : k ≠ c := by
      have : s.created ≤ k := hk
      omega
    simpa [hne] using hi.fresh k hk
  | closed c hl hf =>
    have hne : k ≠ c := by
      have hc := hi.linked_created hl
      have : s.created ≤ k := hk
      omega
    simpa [hne] using hi.fresh k hk
  | @ended s₁ h c hl hb =>
    rw [destroyLink_created, h.created] at hk
    have hne : k ≠ c := by
      have hc := (hi.busy hl).1
      omega
    rw [destroyLink_contexts, Function.update_of_ne hne]
    exact (h.contexts k).fresh (hi.fresh k hk)
  | destroyed => exact hi.fresh k hk

theorem JsEffect.stored_live (h : JsEffect s s') (hi : JsInv s) (id : PeerId) (k : Nat)
    (hp : s'.peers id = some k) : s'.alive = true ∧ k < s'.created ∧ (s'.contexts k).remoteId = id ∧
      (s'.contexts k).deleted = false := by
  cases h with
  | aside h =>
    rw [h.peers] at hp
    rw [h.alive, h.created, (h.contexts k).remoteId, (h.contexts k).deleted]
    exact hi.stored id k hp
  | @stored s₁ h r hr ha hin e he =>
    refine ⟨h.alive.trans ha, ?_⟩
    by_cases hid : id = r.remoteId
    · obtain rfl : s₁.created = k := by simpa [JsRtcTransport.store, hid] using hp
      simp [JsRtcTransport.store, hid, hr.deleted]
    · have hpold : s.peers id = some k := by simpa [JsRtcTransport.store, hid, h.peers] using hp
      obtain ⟨-, hlt, hrem, hdel⟩ := hi.stored id k hpold
      have hlt' : k < s₁.created := h.created ▸ hlt
      have hsame : (s₁.store r).contexts k = s₁.contexts k := Function.update_of_ne (Nat.ne_of_lt hlt') ..
      exact ⟨Nat.lt_succ_of_lt hlt', by rw [hsame, (h.contexts k).remoteId, hrem],
        by rw [hsame, (h.contexts k).deleted, hdel]⟩
  | opened c hc ho hd ha =>
    obtain ⟨hal, hlt, hid, hdel⟩ := hi.stored id k hp
    refine ⟨hal, hlt, ?_⟩
    by_cases hk : k = c
    · subst hk
      simpa using ⟨hid, hdel⟩
    · simpa [hk] using ⟨hid, hdel⟩
  | openedLate c hc ho ha =>
    have := (hi.stored id k hp).1
    simp [ha] at this
  | closed c hl hf =>
    obtain ⟨hal, hlt, hid, hdel⟩ := hi.stored id k hp
    refine ⟨hal, hlt, ?_⟩
    by_cases hk : k = c
    · subst hk
      simpa using ⟨hid, hdel⟩
    · simpa [hk] using ⟨hid, hdel⟩
  | @ended s₁ h c hl hb =>
    rw [destroyLink_peers] at hp
    rw [destroyLink_created, destroyLink_alive, destroyLink_contexts, h.created, h.alive]
    have hpold : s.peers id = some k := by
      rw [h.peers] at hp
      split at hp
      · by_cases hid : id = (s₁.contexts c).remoteId
        · simp [hid] at hp
        · simpa [hid] using hp
      · exact hp
    obtain ⟨hal, hlt, hid, hdel⟩ := hi.stored id k hpold
    have hne : k ≠ c := by
      rintro rfl
      rw [h.alive, if_pos hal, (h.contexts k).remoteId, hid, Function.update_self] at hp
      cases hp
    rw [Function.update_of_ne hne, (h.contexts k).remoteId, (h.contexts k).deleted]
    exact ⟨hal, hlt, hid, hdel⟩
  | destroyed => cases hp

theorem unended_aside (h : JsAside s s₁) : s₁.unended = s.unended := by
  simp only [JsRtcTransport.unended, h.created]
  exact count_congr fun k _ => by rw [(h.contexts k).inbound, (h.contexts k).ended]

/-- A context changes, but not what is counted of it. -/
theorem unended_update {r : JsRtcPeerContext} (hs : s'.contexts = update s.contexts c r)
    (hc : s'.created = s.created) (hin : r.inbound = (s.contexts c).inbound)
    (he : r.ended = (s.contexts c).ended) : s'.unended = s.unended := by
  simp only [JsRtcTransport.unended, hc, hs]
  refine count_congr fun k _ => ?_
  by_cases hk : k = c
  · subst hk
    rw [Function.update_self, hin, he]
  · rw [Function.update_of_ne hk]

theorem JsEffect.count (h : JsEffect s s') (hi : JsInv s) (hal : s'.alive = true) :
    s'.inboundCount = s'.unended := by
  cases h with
  | aside h => rw [h.inboundCount, unended_aside h, hi.count (h.alive ▸ hal)]
  | @stored s₁ h r hr ha hin e he =>
    have hold := hi.count ha
    rw [← h.inboundCount, ← unended_aside h] at hold
    have hnew : Nat.count (fun k => ((s₁.store r).contexts k).inbound = true ∧
        ((s₁.store r).contexts k).ended = false) s₁.created = s₁.unended := by
      refine count_congr fun k hk => ?_
      have hsame : (s₁.store r).contexts k = s₁.contexts k := Function.update_of_ne (Nat.ne_of_lt hk) ..
      rw [hsame]
    have hlast : ((s₁.store r).contexts s₁.created) = r := Function.update_self ..
    simp only [JsRtcTransport.unended] at hnew ⊢
    rw [show (s₁.store r).created = s₁.created + 1 from rfl, Nat.count_succ, hnew, hlast]
    simp only [hr.ended, and_true, hold, JsRtcTransport.unended]
    split <;> rfl
  | opened | openedLate | closed =>
    refine (hi.count hal).trans (Eq.symm ?_)
    exact unended_update (s := s) rfl rfl rfl rfl
  | @ended s₁ h c hl hb =>
    rw [destroyLink_alive] at hal
    obtain ⟨hc, -, -, hdel⟩ := hi.busy hl
    have hend : (s₁.contexts c).ended = false := by
      rw [(h.contexts c).ended]
      by_contra he
      simp [(hi.context c).ended (by simpa using he)] at hdel
    have hold : s₁.inboundCount = s₁.unended := by
      rw [h.inboundCount, unended_aside h, hi.count (h.alive ▸ hal)]
    rw [destroyLink_inboundCount, hal]
    cases hin : (s₁.contexts c).inbound with
    | false =>
      rw [if_neg (by simp), hold]
      simp only [JsRtcTransport.unended, destroyLink_created, destroyLink_contexts]
      refine count_congr fun k _ => ?_
      by_cases hk : k = c
      · subst hk
        simp [hin]
      · rw [Function.update_of_ne hk]
    | true =>
      rw [if_pos (by simp), hold]
      have hone := count_remove (p := fun k => (s₁.contexts k).inbound = true ∧ (s₁.contexts k).ended = false)
        (q := fun k => ((s₁.destroyLink c).contexts k).inbound = true ∧
          ((s₁.destroyLink c).contexts k).ended = false) (n := s₁.created) (l := c)
        (h.created ▸ hc) ⟨hin, hend⟩ (by simp [destroyLink_contexts, hal]) fun k hk => by
          rw [destroyLink_contexts, Function.update_of_ne hk]
      simp only [JsRtcTransport.unended, destroyLink_created]
      omega
  | destroyed => cases hal

theorem JsEffect.limit (h : JsEffect s s') (hi : JsInv s) : s'.inboundCount ≤ s'.maxInboundConnections := by
  have hold := hi.limit
  cases h with
  | aside h => rwa [h.inboundCount, h.max]
  | @stored s₁ h r hr ha hin e he =>
    simp only [h.inboundCount, JsRtcTransport.store, h.max]
    split
    · have := hin ‹_›
      omega
    · exact hold
  | opened | openedLate | closed | destroyed => exact hold
  | @ended s₁ h c hl hb =>
    rw [destroyLink_inboundCount, destroyLink_max, h.inboundCount, h.max]
    split <;> omega

/-! ### The acceptor and the handlers -/

theorem links_aside {e : JsEvent} (c : Nat) (he : e.aside = true) : e.links c = false := by
  cases e <;> first | rfl | cases he

theorem disconnects_aside {e : JsEvent} (c : Nat) (he : e.aside = true) : e.disconnects c = false := by
  cases e <;> first | rfl | cases he

theorem JsEffect.log_linked (h : JsEffect s s') (hi : JsInv s) (k : Nat) :
    s'.log.countP (JsEvent.links k) ≤ 1 ∧
      ((s'.contexts k).opened = false → s'.log.countP (JsEvent.links k) = 0) ∧
      ((s'.contexts k).linked = true ∨ (s'.contexts k).ended = true → .linked k ∈ s'.log) := by
  obtain ⟨hle, hzero, hmem⟩ := hi.linked k
  cases h with
  | aside h =>
    obtain ⟨es, hlog, hes⟩ := h.log
    rw [hlog, countP_aside (fun e => links_aside k) hes, (h.contexts k).opened, (h.contexts k).linked,
      (h.contexts k).ended]
    exact ⟨hle, hzero, fun hl => List.mem_append_right es (hmem hl)⟩
  | @stored s₁ h r hr ha hin e he =>
    obtain ⟨es, hlog, hes⟩ := h.log
    have hcount : (e.toList ++ s₁.log).countP (JsEvent.links k) = s.log.countP (JsEvent.links k) := by
      rw [countP_aside (fun e => links_aside k) fun e' hm => he e' (Option.mem_toList.mp hm), hlog,
        countP_aside (fun e => links_aside k) hes]
    refine ⟨hcount ▸ hle, fun ho => ?_, fun hl => List.mem_append_right _ ?_⟩
    · by_cases hk : k = s₁.created
      · subst hk
        have hop := (hi.fresh s₁.created (by rw [h.created])).opened
        exact hcount.trans (hzero hop)
      · refine hcount.trans (hzero ?_)
        simpa [JsRtcTransport.store, hk, (h.contexts k).opened] using ho
    · by_cases hk : k = s₁.created
      · subst hk
        simp [JsRtcTransport.store, hr.linked, hr.ended] at hl
      · rw [hlog]
        refine List.mem_append_right _ (hmem ?_)
        simpa [JsRtcTransport.store, hk, (h.contexts k).linked, (h.contexts k).ended] using hl
  | opened c hc ho hd ha =>
    by_cases hk : k = c
    · subst hk
      simp [JsEvent.links, hzero ho]
    · have hcount : (.linked c :: s.log).countP (JsEvent.links k) = s.log.countP (JsEvent.links k) :=
        List.countP_cons_of_neg (by simpa [JsEvent.links] using fun he => hk he.symm)
      simp only [Function.update_of_ne hk]
      exact ⟨hcount ▸ hle, fun h => hcount.trans (hzero h), fun h => List.mem_cons_of_mem _ (hmem h)⟩
  | openedLate c hc ho ha =>
    by_cases hk : k = c
    · subst hk
      simp only [Function.update_self]
      exact ⟨hle, fun _ => hzero ho, hmem⟩
    · simp only [Function.update_of_ne hk]
      exact ⟨hle, hzero, hmem⟩
  | closed c hl hf =>
    have hcount : (if (s.contexts c).handler.onDisconnected = true then .onDisconnected c :: s.log
        else s.log).countP (JsEvent.links k) = s.log.countP (JsEvent.links k) := by
      split <;> simp [JsEvent.links]
    have hsub : s.log ⊆ if (s.contexts c).handler.onDisconnected = true then .onDisconnected c :: s.log
        else s.log := by
      split <;> simp
    have hflags : (update s.contexts c { s.contexts c with closedFired := true } k).opened =
        (s.contexts k).opened ∧ (update s.contexts c { s.contexts c with closedFired := true } k).linked =
        (s.contexts k).linked ∧ (update s.contexts c { s.contexts c with closedFired := true } k).ended =
        (s.contexts k).ended := by
      by_cases hk : k = c
      · subst hk
        simp
      · simp [hk]
    obtain ⟨ho, hli, he⟩ := hflags
    exact ⟨hcount ▸ hle, fun h => hcount.trans (hzero (ho ▸ h)), fun h => hsub (hmem (hli ▸ he ▸ h))⟩
  | @ended s₁ h c hl hb =>
    obtain ⟨es, hlog, hes⟩ := h.log
    rw [destroyLink_log, hlog, countP_aside (fun e => links_aside k) hes, destroyLink_contexts]
    by_cases hk : k = c
    · subst hk
      obtain ⟨-, hlinked, hopen, -⟩ := hi.busy hl
      refine ⟨hle, fun ho => ?_, fun _ => List.mem_append_right es (hmem (.inl hlinked))⟩
      simp [(h.contexts k).opened, hopen] at ho
    · rw [Function.update_of_ne hk, (h.contexts k).opened, (h.contexts k).linked, (h.contexts k).ended]
      exact ⟨hle, hzero, fun hl => List.mem_append_right es (hmem hl)⟩
  | destroyed => exact ⟨hle, hzero, hmem⟩

theorem JsEffect.log_disconnected (h : JsEffect s s') (hi : JsInv s) (k : Nat) :
    s'.log.countP (JsEvent.disconnects k) ≤ 1 ∧
      ((s'.contexts k).closedFired = false → s'.log.countP (JsEvent.disconnects k) = 0) := by
  obtain ⟨hle, hzero⟩ := hi.disconnected k
  cases h with
  | aside h =>
    obtain ⟨es, hlog, hes⟩ := h.log
    rw [hlog, countP_aside (fun e => disconnects_aside k) hes, (h.contexts k).closedFired]
    exact ⟨hle, hzero⟩
  | @stored s₁ h r hr ha hin e he =>
    obtain ⟨es, hlog, hes⟩ := h.log
    have hcount : (e.toList ++ s₁.log).countP (JsEvent.disconnects k) =
        s.log.countP (JsEvent.disconnects k) := by
      rw [countP_aside (fun e => disconnects_aside k) fun e' hm => he e' (Option.mem_toList.mp hm), hlog,
        countP_aside (fun e => disconnects_aside k) hes]
    refine ⟨hcount ▸ hle, fun hf => hcount.trans (hzero ?_)⟩
    by_cases hk : k = s₁.created
    · subst hk
      exact (hi.fresh s₁.created (by rw [h.created])).closedFired
    · simpa [JsRtcTransport.store, hk, (h.contexts k).closedFired] using hf
  | opened c | openedLate c =>
    refine ⟨hle, fun hf => hzero ?_⟩
    by_cases hk : k = c
    · subst hk
      simpa using hf
    · simpa [hk] using hf
  | closed c hl hf =>
    by_cases hk : k = c
    · subst hk
      simp only [Function.update_self]
      refine ⟨?_, nofun⟩
      split <;> simp [JsEvent.disconnects, hzero hf]
    · simp only [Function.update_of_ne hk]
      have hcount : (if (s.contexts c).handler.onDisconnected = true then .onDisconnected c :: s.log
          else s.log).countP (JsEvent.disconnects k) = s.log.countP (JsEvent.disconnects k) := by
        split
        · exact List.countP_cons_of_neg (by simpa [JsEvent.disconnects] using fun he => hk he.symm)
        · rfl
      exact ⟨hcount ▸ hle, fun h => hcount.trans (hzero h)⟩
  | @ended s₁ h c hl hb =>
    obtain ⟨es, hlog, hes⟩ := h.log
    rw [destroyLink_log, hlog, countP_aside (fun e => disconnects_aside k) hes, destroyLink_contexts]
    refine ⟨hle, fun hf => hzero ?_⟩
    by_cases hk : k = c
    · subst hk
      simpa [(h.contexts k).closedFired] using hf
    · rwa [Function.update_of_ne hk, (h.contexts k).closedFired] at hf
  | destroyed => exact ⟨hle, hzero⟩

theorem JsEffect.log_order (h : JsEffect s s') (hi : JsInv s) (k : Nat) (log : List JsEvent)
    (hs : .onDisconnected k :: log <:+ s'.log) : .linked k ∈ log := by
  have hold := hi.order k log
  cases h with
  | aside h =>
    obtain ⟨es, hlog, hes⟩ := h.log
    exact hold (suffix_aside hes (hlog ▸ hs))
  | @stored s₁ h r hr ha hin e he =>
    obtain ⟨es, hlog, hes⟩ := h.log
    have hs' := suffix_aside (fun e' hm => he e' (Option.mem_toList.mp hm)) hs
    exact hold (suffix_aside hes (hlog ▸ hs'))
  | opened c =>
    rcases List.suffix_cons_iff.mp hs with he | hs
    · cases he
    · exact hold hs
  | openedLate | destroyed => exact hold hs
  | closed c hl hf =>
    simp only at hs
    split at hs
    · rcases List.suffix_cons_iff.mp hs with he | hs
      · cases he
        exact (hi.linked k).2.2 (.inl hl)
      · exact hold hs
    · exact hold hs
  | @ended s₁ h c hl hb =>
    obtain ⟨es, hlog, hes⟩ := h.log
    rw [destroyLink_log, hlog] at hs
    exact hold (suffix_aside hes hs)

theorem JsEffect.jsInv (h : JsEffect s s') (hi : JsInv s) : JsInv s' :=
  ⟨h.context hi, h.fresh hi, h.stored_live hi, h.count hi, h.limit hi, h.log_linked hi,
    h.log_disconnected hi, h.log_order hi⟩

end Invariant

theorem JsInv.reach {parse : Parse} {remoteId : PeerId} {max : Nat} {s : JsRtcTransport}
    (h : (JsRtcTransport.lts parse remoteId max).Reach Lts.Any s) : JsInv s := by
  refine h.invariant ⟨fun c => ?_, fun c _ => ⟨rfl, rfl, rfl, rfl, rfl, rfl⟩, ?_, ?_, ?_, ?_, ?_, ?_⟩
    fun hI _ he => (JsEffect.of_step he).jsInv hI
  · exact JsRtcPeerContext.Fresh.sound ⟨rfl, rfl, rfl, rfl, rfl, rfl⟩
  all_goals simp [JsRtcTransport.lts, JsRtcTransport.unended]

/-- In every run: no pointer in `peers` is to a deleted context; `inboundCount` is the number of
inbound contexts that have not ended, and within the limit; a context ends, and gives its place
back, after its link was told to the acceptor; and that is told once, and its handler of the end
once at most, and after it. -/
theorem contexts_sound {parse : Parse} {remoteId : PeerId} {max : Nat} {s : JsRtcTransport}
    (h : (JsRtcTransport.lts parse remoteId max).Reach Lts.Any s) :
    (∀ id c, s.peers id = some c → c < s.created ∧ (s.contexts c).remoteId = id ∧
      (s.contexts c).deleted = false) ∧
    (s.alive = true → s.inboundCount = s.unended) ∧ s.inboundCount ≤ s.maxInboundConnections ∧
    ∀ c, ((s.contexts c).ended = true → .linked c ∈ s.log) ∧ s.log.countP (JsEvent.links c) ≤ 1 ∧
      s.log.countP (JsEvent.disconnects c) ≤ 1 ∧
      ∀ log, .onDisconnected c :: log <:+ s.log → .linked c ∈ log := by
  have hi := JsInv.reach h
  refine ⟨fun id c hp => (hi.stored id c hp).2, hi.count, hi.limit, fun c => ?_⟩
  exact ⟨fun he => (hi.linked c).2.2 (.inr he), (hi.linked c).1, (hi.disconnected c).1, hi.order c⟩

/-- Two offers of one peer, of which the first link ends: the entry of the second is gone, and
its place is not. -/
theorem contexts_sound_twice : ∃ s, (JsRtcTransport.lts DcRtcTransport.sampleParse ⟨""⟩ 2).Reach Lts.Any s ∧
    s.log = [.onDisconnected 0, .described 1 ⟨"v=0", .offer, ⟨"a"⟩⟩, .linked 0,
      .described 0 ⟨"v=0", .offer, ⟨"a"⟩⟩] ∧ s.peers ⟨"a"⟩ = none ∧ s.unended = 1 := by
  obtain ⟨s, hs, hq⟩ := Lts.Reach.of_run (JsRtcTransport.lts DcRtcTransport.sampleParse ⟨""⟩ 2) Lts.Any
    [.joined none, .onMessage (DcRtcTransport.offerFrom "a"), .onDataChannelOpen 0, .onLink 0 true ⟨true⟩,
      .onMessage (DcRtcTransport.offerFrom "a"), .onDataChannelClose 0, .onDataChannelClose 0, .dropLink 0]
    (fun s => (s.alive = true ∧ s.inboundCount = 1) ∧ s.log = [.onDisconnected 0,
      .described 1 ⟨"v=0", .offer, ⟨"a"⟩⟩, .linked 0, .described 0 ⟨"v=0", .offer, ⟨"a"⟩⟩] ∧
      s.peers ⟨"a"⟩ = none) (by decide +kernel)
  obtain ⟨⟨ha, hc⟩, hl, hp⟩ := of_decide_eq_true hq
  exact ⟨s, hs, hl, hp, ((contexts_sound hs).2.1 ha).symm.trans hc⟩

end TX.Rtt
