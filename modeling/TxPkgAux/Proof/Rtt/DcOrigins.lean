import TxPkgAux.Framework.Tokens
import TxPkgAux.Proof.Rtt.DcAnswers

/-!
# `DcRtcTransport`: where a link comes from

Each link is made by one call: that of `OpenOfferer`, or of an offer. The origin of a link
(`none` for `OpenOfferer`, the sender of an offer otherwise) is first with the call and then
with the link: `DcStep.carriers` says that no step copies it. The link of `OpenOfferer` is
the only one (`Opened.outbound_unique`).
-/

namespace TX.Rtt

open Function (update)

variable {τ : Type} [DecidableEq τ]

/-- The origin of the link that the call is to make. -/
def Call.makes : Call → Option (Option PeerId)
  | .openOfferer => some none
  | .offer src _ | .handleOffer src _ => some (some src)
  | _ => none

def DcRtcLink.origin (r : DcRtcLink) : Option PeerId := if r.inbound then some r.remoteId else none

namespace DcRtcTransport

/-- The calls and the links that have the origin. -/
def carriers (s : DcRtcTransport τ) (k : Option PeerId) : Set (τ ⊕ Nat)
  | .inl t => (s.calls t).bind Call.makes = some k
  | .inr l => l < s.created ∧ (s.links l).origin = k

omit [DecidableEq τ] in
theorem mem_carriers_call {s : DcRtcTransport τ} {k : Option PeerId} {t : τ} :
    .inl t ∈ s.carriers k ↔ (s.calls t).bind Call.makes = some k := Iff.rfl

omit [DecidableEq τ] in
theorem mem_carriers_link {s : DcRtcTransport τ} {k : Option PeerId} {l : Nat} :
    .inr l ∈ s.carriers k ↔ l < s.created ∧ (s.links l).origin = k := Iff.rfl

end DcRtcTransport

section Step

variable {parse : Parse} {s s' : DcRtcTransport τ} {a : DcAction τ} {k : Option PeerId}

theorem DcStep.origin (h : DcStep parse s a s') {l : Nat} (hl : l < s.created) :
    (s'.links l).origin = (s.links l).origin := by
  obtain ⟨-, -, hid⟩ := h.identity
  obtain ⟨hin, hrem⟩ := hid l hl
  rw [DcRtcLink.origin, DcRtcLink.origin, hin, hrem]

/-- A call goes on with what it had, or without it. -/
theorem carriers_subset (h : DcStep parse s a s') (hcr : s'.created = s.created)
    (hc : ∀ t, (s'.calls t).bind Call.makes = some k → (s.calls t).bind Call.makes = some k) :
    s'.carriers k ⊆ s.carriers k := by
  rintro (t | l) hx
  · exact hc t hx
  · obtain ⟨hl, ho⟩ := hx
    rw [hcr] at hl
    exact ⟨hl, h.origin hl ▸ ho⟩

theorem makes_update {o : Option Call} {t₀ : τ}
    (ho : o.bind Call.makes = some k → (s.calls t₀).bind Call.makes = some k) (t : τ)
    (hc : (update s.calls t₀ o t).bind Call.makes = some k) : (s.calls t).bind Call.makes = some k := by
  by_cases ht : t = t₀
  · subst ht
    exact ho (by simpa using hc)
  · simpa [ht] using hc

/-- A call makes its link, and returns. -/
theorem carriers_store (h : DcStep parse s a s') {t : τ} {c : Call} {o : Option (Option PeerId)}
    (hcr : s'.created = s.created + 1) (hcalls : s'.calls = update s.calls t (some c))
    (hn : c.makes = none) (ho : (s.calls t).bind Call.makes = o)
    (hl : o = some (s'.links s.created).origin) : Passes (s.carriers k) (s'.carriers k) := by
  have hcall : ∀ t', (s'.calls t').bind Call.makes = some k →
      t' ≠ t ∧ (s.calls t').bind Call.makes = some k := fun t' ht' => by
    rw [hcalls] at ht'
    by_cases he : t' = t
    · subst he
      simp [hn] at ht'
    · exact ⟨he, by simpa [he] using ht'⟩
  rintro (t' | l) hx
  · exact .inl (hcall t' hx).2
  · obtain ⟨hlt, hk⟩ := hx
    by_cases hold : l < s.created
    · exact .inl ⟨hold, h.origin hold ▸ hk⟩
    · obtain rfl : l = s.created := by omega
      refine .inr ⟨.inl t, ?_, fun ht => (hcall t ht).1 rfl, ?_⟩
      · rw [DcRtcTransport.mem_carriers_call, ho, hl, hk]
      · rintro (t' | l') hx'
        · exact .inr (hcall t' hx').2
        · obtain ⟨hlt', hk'⟩ := hx'
          by_cases hold' : l' < s.created
          · exact .inr ⟨hold', h.origin hold' ▸ hk'⟩
          · exact .inl (congrArg Sum.inr (by omega))

/-- An origin is new where `onJoined` goes on to `OpenOfferer`, and where an offer arrives;
the other steps hand it on. -/
theorem DcStep.carriers (h : DcStep parse s a s') (k : Option PeerId) :
    Passes (s.carriers k) (s'.carriers k) ∨ ∃ t, s'.carriers k ⊆ insert (.inl t) (s.carriers k) ∧
      ((k = none ∧ s.joined = false ∧ s'.joined = true) ∨ ∃ m j, a = .onMessage t m ∧ k = some m.src ∧
        parse m.payload = some j ∧ j.value "type" = some "offer") := by
  have hbegin : ∀ {s₀ : DcRtcTransport τ} {t : τ} {c : Call}, s₀.created = s.created → s₀.links = s.links →
      s₀.calls = update s.calls t (some c) → s₀.carriers k ⊆ insert (.inl t) (s.carriers k) :=
    fun {s₀ t c} hcr hl hc => by
      rintro (t' | l) hx
      · by_cases ht : t' = t
        · exact .inl (congrArg Sum.inl ht)
        · rw [DcRtcTransport.mem_carriers_call, hc] at hx
          exact .inr (by simpa [ht, DcRtcTransport.mem_carriers_call] using hx)
      · rw [DcRtcTransport.mem_carriers_link, hcr, hl] at hx
        exact .inr hx
  have hstep := h
  cases h
  case joinOfferer t hj hc ho =>
    by_cases hk : k = none
    · exact .inr ⟨t, hbegin rfl rfl rfl, .inl ⟨hk, hj, rfl⟩⟩
    · refine .inl (.of_subset (carriers_subset hstep rfl (makes_update fun he => ?_)))
      exact absurd (Option.some.inj he).symm hk
  case offer t m j hc hp ht =>
    by_cases hk : k = some m.src
    · exact .inr ⟨t, hbegin rfl rfl rfl, .inr ⟨m, j, rfl, hk, hp, ht⟩⟩
    · refine .inl (.of_subset (carriers_subset hstep rfl (makes_update fun he => ?_)))
      exact absurd (Option.some.inj he).symm hk
  case handleOffer t accepted src sdp hc =>
    refine .inl (carriers_store hstep rfl rfl rfl (o := some (some src)) (by simp [hc, Call.makes]) ?_)
    simp [DcRtcLink.origin]
  case openOfferer t accepted hc =>
    refine .inl (carriers_store hstep rfl rfl rfl (o := some none) (by simp [hc, Call.makes]) ?_)
    simp [DcRtcLink.origin]
  case offerPassed t accepted src j sdp hc hm hd =>
    exact .inl (.of_subset (carriers_subset hstep rfl (makes_update fun he => by rwa [hc])))
  all_goals
    refine .inl (.of_subset (carriers_subset hstep rfl ?_))
    first
    | exact fun t ht => ht
    | exact makes_update fun he => by cases he

/-- `OpenOfferer` is called once. -/
structure Opened (s : DcRtcTransport τ) : Prop where
  unjoined : s.joined = false → s.carriers none = ∅
  once : (s.carriers none).Subsingleton

theorem DcStep.joined (h : DcStep parse s a s') (hj : s'.joined = false) : s.joined = false := by
  cases h <;> first | exact hj | cases hj

theorem DcStep.opened (h : DcStep parse s a s') (hi : Opened s) : Opened s' := by
  rcases h.carriers none with hp | ⟨t, hsub, ⟨-, hj, hj'⟩ | ⟨m, j, -, hk, -⟩⟩
  · exact ⟨fun hj => hp.empty (hi.unjoined (h.joined hj)), hp.subsingleton hi.once⟩
  · rw [hi.unjoined hj] at hsub
    exact ⟨fun hf => by simp [hf] at hj', subsingleton_of_insert_empty hsub⟩
  · cases hk

theorem Opened.init (parse : Parse) (remoteId : PeerId) (max : Nat) :
    Opened (DcRtcTransport.lts τ parse remoteId max).init := by
  have he : (DcRtcTransport.lts τ parse remoteId max).init.carriers none = ∅ := by
    refine Set.eq_empty_of_forall_notMem ?_
    rintro (t | l) hx
    · cases hx
    · exact absurd hx.1 (Nat.not_lt_zero l)
  exact ⟨fun _ => he, he ▸ Set.subsingleton_empty⟩

omit [DecidableEq τ] in
/-- The link of `OpenOfferer` is the only one. -/
theorem Opened.outbound_unique (hi : Opened s) {l l' : Nat} (hl : l < s.created) (hl' : l' < s.created)
    (ho : (s.links l).inbound = false) (ho' : (s.links l').inbound = false) : l = l' :=
  Sum.inr.inj (hi.once (show .inr l ∈ s.carriers none from ⟨hl, by simp [DcRtcLink.origin, ho]⟩)
    (show .inr l' ∈ s.carriers none from ⟨hl', by simp [DcRtcLink.origin, ho']⟩))

end Step

end TX.Rtt
