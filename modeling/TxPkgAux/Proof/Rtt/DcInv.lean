import TxPkgAux.Proof.Rtt.DcStep

/-!
# `DcRtcTransport`: links and their callbacks

What a step does to a link (`DcStep.linkStep`): nothing that matters to its callback, or one of
the steps from its creation to its end.

`DcInv` is what holds in every run: the callback of a link runs for a link that was
created and whose connection reported a terminal state, and `peers` has a link under
its own id, until the link ends.
-/

namespace TX.Rtt

open Function (update)

variable {τ : Type} [DecidableEq τ]

/-- What the calls that are made of a link leave as it is. -/
structure DcRtcLink.Kept (r r' : DcRtcLink) : Prop where
  remoteId : r'.remoteId = r.remoteId
  inbound : r'.inbound = r.inbound
  handler : r'.handler = r.handler
  closedFired : r'.closedFired = r.closedFired
  change : r'.change = r.change
  reported : r'.reported = r.reported
  due : r'.due = r.due
  ended : r'.ended = r.ended

/-- What a step does to the link `k`. -/
inductive LinkStep (s : DcRtcTransport τ) (a : DcAction τ) (s' : DcRtcTransport τ) (k : Nat) : Prop where
  | kept (h : (s.links k).Kept (s'.links k))
  | created (hk : k = s.created) (hc : s'.created = s.created + 1) (src : PeerId) (inbound : Bool)
      (ho : inbound = false → src = s.remoteId)
      (he : s'.links k = { remoteId := src, inbound := inbound, refs := 1 })
  | bound (t : τ) (accepted : Bool) (h : LinkHandler) (ha : a = .next t accepted)
      (hc : s.calls t = some (.setHandler k h))
      (he : s'.links k = { s.links k with handler := h, refs := (s.links k).refs - 1 })
  | reported (st : PcState) (ha : a = .stateChange k st) (hl : k < s'.created)
      (hr : (s.links k).attached = false ∨ st.terminal = false)
      (he : s'.links k = { s.links k with reported := (s.links k).reported || st.terminal })
  | changed (st : PcState) (hl : k < s'.created)
      (he : s'.links k = { s.links k with
        change := some (.ending st)
        reported := true
        due := (s.links k).due || (s.links k).handler.onDisconnected })
  | gone (st : PcState) (hc : (s.links k).change = some (.ending st))
      (hp : s'.peers (s.links k).remoteId = none)
      (he : s'.links k = { s.links k with
        ended := true
        change := some (if st = .failed ∧ (s.links k).inbound = false then .refusing else .notifying) })
  | goneDead (st : PcState) (hc : (s.links k).change = some (.ending st)) (ha : s'.alive = false)
      (he : s'.links k = { s.links k with
        change := some (if st = .failed ∧ (s.links k).inbound = false then .refusing else .notifying) })
  | refused (hc : (s.links k).change = some .refusing)
      (he : s'.links k = { s.links k with change := some .notifying })
  | notified (hc : (s.links k).change = some .notifying) (hf : (s.links k).closedFired = false)
      (he : s'.links k = { s.links k with
        closedFired := true, refs := (s.links k).refs + 1, change := some .inHandler })
      (hl : s'.log = if (s.links k).handler.onDisconnected then .onDisconnected k :: s.log else s.log)
  | unnotified (ha : a = .changeNext k) (hc : (s.links k).change = some .notifying)
      (ho : s.owned k = false ∨ (s.links k).closedFired = true)
      (he : s'.links k = { s.links k with change := none })
  | handled (hc : (s.links k).change = some .inHandler)
      (he : s'.links k = { s.links k with refs := (s.links k).refs - 1, change := none })

section Links

variable {parse : Parse} {s s' : DcRtcTransport τ} {a : DcAction τ}

omit [DecidableEq τ] in
/-- A field that the new value of a link has from the old one. -/
theorem links_field {β : Type} (p : DcRtcLink → β) {l : Nat} {r : DcRtcLink} (h : p r = p (s.links l))
    (k : Nat) : p (update s.links l r k) = p (s.links k) := by
  by_cases hk : k = l
  · subst hk
    rwa [Function.update_self]
  · rw [Function.update_of_ne hk]

omit [DecidableEq τ] in
theorem DcRtcLink.Kept.update {l : Nat} {r : DcRtcLink} (h : (s.links l).Kept r) (k : Nat) :
    (s.links k).Kept (update s.links l r k) := by
  by_cases hk : k = l
  · subst hk
    rwa [Function.update_self]
  · rw [Function.update_of_ne hk]
    exact ⟨rfl, rfl, rfl, rfl, rfl, rfl, rfl, rfl⟩

theorem DcStep.linkStep (h : DcStep parse s a s') (k : Nat) : LinkStep s a s' k := by
  -- The step is on the link `l`: of the others there is nothing to say.
  have hother : ∀ {l : Nat} {r : DcRtcLink} {s' : DcRtcTransport τ}, s'.links = update s.links l r →
      (k = l → LinkStep s a s' k) → LinkStep s a s' k := fun {l r s'} hl h => by
    by_cases hk : k = l
    · exact h hk
    · refine .kept ?_
      rw [hl, Function.update_of_ne hk]
      exact ⟨rfl, rfl, rfl, rfl, rfl, rfl, rfl, rfl⟩
  cases h
  case handleOffer t accepted src sdp hc =>
    refine hother rfl ?_
    rintro rfl
    exact .created rfl rfl src true nofun (Function.update_self ..)
  case openOfferer t accepted hc =>
    refine hother rfl ?_
    rintro rfl
    exact .created rfl rfl s.remoteId false (fun _ => rfl) (Function.update_self ..)
  case setHandler t accepted l h hc =>
    refine hother rfl ?_
    rintro rfl
    exact .bound t accepted h rfl hc (Function.update_self ..)
  case reported l st hl hc hr =>
    refine hother rfl ?_
    rintro rfl
    exact .reported st rfl hl hr (Function.update_self ..)
  case changed l st hl hc hr ht =>
    refine hother rfl ?_
    rintro rfl
    exact .changed st hl (Function.update_self ..)
  case gone l st hc ha =>
    refine hother rfl ?_
    rintro rfl
    exact .gone st hc (Function.update_self ..) (Function.update_self ..)
  case goneDead l st hc ha =>
    refine hother rfl ?_
    rintro rfl
    exact .goneDead st hc ha (Function.update_self ..)
  case refused l hc =>
    refine hother rfl ?_
    rintro rfl
    exact .refused hc (Function.update_self ..)
  case notified l hc ho hf =>
    refine hother rfl ?_
    rintro rfl
    exact .notified hc hf (Function.update_self ..) rfl
  case unnotified l hc ho =>
    refine hother rfl ?_
    rintro rfl
    exact .unnotified rfl hc ho (Function.update_self ..)
  case handled l hc =>
    refine hother rfl ?_
    rintro rfl
    exact .handled hc (Function.update_self ..)
  all_goals
    refine .kept ?_
    first
    | exact ⟨rfl, rfl, rfl, rfl, rfl, rfl, rfl, rfl⟩
    | exact DcRtcLink.Kept.update (by constructor <;> rfl) k

/-- Links are made one after the other. -/
theorem DcStep.creates (h : DcStep parse s a s') : s'.created = s.created ∨ s'.created = s.created + 1 ∧
    ((s'.links s.created).inbound = false → (s'.links s.created).remoteId = s.remoteId) := by
  cases h
  case handleOffer | openOfferer => exact .inr ⟨rfl, by simp⟩
  all_goals exact .inl rfl

theorem DcStep.created_le (h : DcStep parse s a s') : s.created ≤ s'.created := by
  rcases h.creates with hc | ⟨hc, -⟩ <;> omega

/-- A link is stored when it is made, under its id. -/
theorem DcStep.peers (h : DcStep parse s a s') {id : PeerId} {l : Nat} (hp : s'.peers id = some l) :
    s.peers id = some l ∨ l = s.created ∧ s'.created = s.created + 1 ∧ (s'.links l).remoteId = id ∧
      (s'.links l).ended = false := by
  cases h
  case handleOffer t accepted src sdp hc =>
    by_cases hid : id = src
    · obtain rfl : s.created = l := by simpa [hid] using hp
      exact .inr ⟨rfl, rfl, by simp [hid], by simp⟩
    · exact .inl (by simpa [hid] using hp)
  case openOfferer t accepted hc =>
    by_cases hid : id = s.remoteId
    · obtain rfl : s.created = l := by simpa [hid] using hp
      exact .inr ⟨rfl, rfl, by simp [hid], by simp⟩
    · exact .inl (by simpa [hid] using hp)
  case gone l' st hc ha =>
    by_cases hid : id = (s.links l').remoteId
    · simp [hid] at hp
    · exact .inl (by simpa [hid] using hp)
  case destroy => cases hp
  all_goals exact .inl hp

end Links

structure DcInv (s : DcRtcTransport τ) : Prop where
  changing : ∀ l, (s.links l).change ≠ none → l < s.created ∧ (s.links l).reported = true
  ended : ∀ l, (s.links l).ended = true → (s.links l).reported = true
  fresh : ∀ l, s.created ≤ l → (s.links l).closedFired = false
  stored : ∀ id l, s.peers id = some l → l < s.created ∧ (s.links l).remoteId = id ∧
    (s.links l).ended = false

section Step

variable {parse : Parse} {s s' : DcRtcTransport τ} {a : DcAction τ}

theorem DcStep.changing (h : DcStep parse s a s') (hi : DcInv s) (l : Nat)
    (hl : (s'.links l).change ≠ none) : l < s'.created ∧ (s'.links l).reported = true := by
  have hle := h.created_le
  have hold : (s.links l).change ≠ none → l < s'.created ∧ (s.links l).reported = true := fun hc =>
    ⟨Nat.lt_of_lt_of_le (hi.changing l hc).1 hle, (hi.changing l hc).2⟩
  cases h.linkStep l with
  | kept hk =>
    rw [hk.reported]
    exact hold (hk.change ▸ hl)
  | created hk hc src inbound ho he =>
    rw [he] at hl
    exact absurd rfl hl
  | bound t accepted hd ha hc he =>
    rw [he] at hl ⊢
    exact hold hl
  | reported st ha hlt hr he =>
    rw [he] at hl ⊢
    simp [hold hl]
  | changed st hlt he =>
    rw [he]
    exact ⟨hlt, rfl⟩
  | gone st hc hp he =>
    rw [he]
    exact hold (by simp [hc])
  | goneDead st hc ha he | refused hc he | notified hc hf he hlog =>
    rw [he]
    exact hold (by simp [hc])
  | unnotified ha hc ho he | handled hc he =>
    rw [he] at hl
    exact absurd rfl hl

theorem DcStep.ended_reported (h : DcStep parse s a s') (hi : DcInv s) (l : Nat)
    (hl : (s'.links l).ended = true) : (s'.links l).reported = true := by
  cases h.linkStep l with
  | kept hk =>
    rw [hk.reported]
    exact hi.ended l (hk.ended ▸ hl)
  | created hk hc src inbound ho he =>
    rw [he] at hl
    cases hl
  | reported st ha hlt hr he =>
    rw [he] at hl ⊢
    simp [hi.ended l hl]
  | changed st hlt he => rw [he]
  | gone st hc hp he =>
    rw [he]
    exact (hi.changing l (by simp [hc])).2
  | bound t accepted hd ha hc he | goneDead st hc ha he | refused hc he | notified hc hf he hlog
  | unnotified ha hc ho he | handled hc he =>
    rw [he] at hl ⊢
    exact hi.ended l hl

theorem DcStep.fresh (h : DcStep parse s a s') (hi : DcInv s) (l : Nat) (hl : s'.created ≤ l) :
    (s'.links l).closedFired = false := by
  have hf := hi.fresh l (Nat.le_trans h.created_le hl)
  cases h.linkStep l with
  | kept hk => rw [hk.closedFired, hf]
  | created hk hc src inbound ho he => rw [he]
  | notified hc hf' he hlog =>
    have hlt := (hi.changing l (by simp [hc])).1
    have := h.created_le
    omega
  | bound t accepted hd ha hc he | reported st ha hlt hr he | changed st hlt he | gone st hc hp he
  | goneDead st hc ha he | refused hc he | unnotified ha hc ho he | handled hc he =>
    rw [he]
    exact hf

theorem DcStep.stored (h : DcStep parse s a s') (hi : DcInv s) (id : PeerId) (l : Nat)
    (hp : s'.peers id = some l) :
    l < s'.created ∧ (s'.links l).remoteId = id ∧ (s'.links l).ended = false := by
  rcases h.peers hp with hp' | ⟨rfl, hc, hid, he⟩
  · obtain ⟨hlt, hid, hend⟩ := hi.stored id l hp'
    refine ⟨Nat.lt_of_lt_of_le hlt h.created_le, ?_⟩
    cases h.linkStep l with
    | kept hk => exact ⟨hk.remoteId.trans hid, hk.ended.trans hend⟩
    | created hk hc src inbound ho he => omega
    | gone st hc hnone he =>
      rw [hid, hp] at hnone
      cases hnone
    | bound t accepted hd ha hc he | reported st ha hlt hr he | changed st hlt he
    | goneDead st hc ha he | refused hc he | notified hc hf he hlog | unnotified ha hc ho he
    | handled hc he =>
      rw [he]
      exact ⟨hid, hend⟩
  · exact ⟨by omega, hid, he⟩

theorem DcStep.dcInv (h : DcStep parse s a s') (hi : DcInv s) : DcInv s' :=
  ⟨h.changing hi, h.ended_reported hi, h.fresh hi, h.stored hi⟩

/-- A state that is destroyed stays so. -/
theorem DcStep.alive (h : DcStep parse s a s') (ha : s'.alive = true) : s.alive = true := by
  cases h <;> first | exact ha | cases ha

end Step

theorem DcInv.init (parse : Parse) (remoteId : PeerId) (max : Nat) :
    DcInv (DcRtcTransport.lts τ parse remoteId max).init := by
  constructor <;> simp [DcRtcTransport.lts]

end TX.Rtt
