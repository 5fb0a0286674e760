import TxPkgAux.Impl.Rtt.DcRtcTransport

/-!
# `DcRtcTransport::OnMessage` on any text

`OnMessage` on its own, from its call to its end (`Returns`), with libdatachannel as what
it takes (`Acceptance`). A handler `Tolerates` a text if it returns normally, and leaves
the state as it was unless the text is what the handler expects: for a transport, a JSON
object with the string fields of its type (`Json.isSignal`).

`dc_tolerates_iff` says which texts `OnMessage` tolerates in which states
(`DcRtcTransport.Tolerable`): `value` raises an exception where the text is not an object
or a field is not a string, and stands in for a field that is missing.
-/

namespace TX.Rtt

open Function (update)

namespace Json

/-- The string under `key` in an object. -/
def stringField (j : Json) (key : String) : Option String := (j.find key).bind getString

/-- An object with these string fields. -/
def hasStrings (j : Json) (keys : List String) : Bool := keys.all fun key => (j.stringField key).isSome

/-- The fields that `OnMessage` reads, beside `type`. -/
def signalFields : String → List String
  | "offer" | "answer" => ["description"]
  | "candidate" => ["candidate", "mid"]
  | _ => []

/-- An object with a string `type` and the string fields of that type. -/
def isSignal (j : Json) : Bool := (j.stringField "type").any fun type => j.hasStrings (signalFields type)

/-- `value` is the string field, or empty where an object has no such field. -/
theorem value_eq_some {j : Json} {key v : String} :
    j.value key = some v ↔ j.stringField key = some v ∨
      v = "" ∧ j.find key = none ∧ ∃ fields, j = .object fields := by
  cases j with
  | object fields =>
    simp only [value, stringField, find]
    cases fields.lookup key with
    | none => simp [eq_comm]
    | some f => cases f <;> simp [getString]
  | _ => simp [value, stringField, find]

theorem isSignal_eq {j : Json} {type : String} (ht : j.value "type" = some type) (hne : type ≠ "") :
    j.isSignal = j.hasStrings (signalFields type) := by
  rcases value_eq_some.mp ht with hf | ⟨he, -⟩
  · simp [isSignal, hf]
  · exact absurd he hne

theorem stringField_eq_none {j : Json} {key : String} (h : j.value key = none) :
    j.stringField key = none := by
  rw [Option.eq_none_iff_forall_ne_some]
  intro v hv
  simp [value_eq_some.mpr (.inl hv)] at h

/-- Where `value` does not throw, a string field is what it returns. -/
theorem exists_stringField {j : Json} {key v : String} (h : j.value key = some v) {P : String → Prop} :
    (∃ v, j.stringField key = some v ∧ P v) ↔ (j.stringField key).isSome = true ∧ P v := by
  constructor
  · rintro ⟨v', hv, hp⟩
    obtain rfl : v = v' := Option.some.inj (h.symm.trans (value_eq_some.mpr (.inl hv)))
    exact ⟨by simp [hv], hp⟩
  · rintro ⟨hs, hp⟩
    obtain ⟨v', hv⟩ := Option.isSome_iff_exists.mp hs
    obtain rfl : v = v' := Option.some.inj (h.symm.trans (value_eq_some.mpr (.inl hv)))
    exact ⟨v, hv, hp⟩

end Json

/-- The handler returned normally, where `threw` counts the exceptions that left it, and
the state is as it was unless the text was `expected`. -/
def Tolerates {σ : Type} (threw : σ → ℕ) (expected : Bool) (s s' : σ) : Prop :=
  threw s' = threw s ∧ (expected = false → s' = s)

section Tolerates

variable {σ : Type} {threw : σ → ℕ} {e : Bool} {s s' : σ}

theorem tolerates_self : Tolerates threw e s s := ⟨rfl, fun _ => rfl⟩

theorem not_tolerates (ht : threw s' = threw s + 1) : ¬ Tolerates threw e s s' := fun h => by
  have := h.1
  omega

/-- Where the handler did something, the text has to be what it expects. -/
theorem tolerates_iff {X : Prop} (hne : s' ≠ s) (ht : threw s' = threw s ↔ X) :
    Tolerates threw e s s' ↔ e = true ∧ X := by
  rw [Tolerates, ht]
  cases e <;> simp [hne]

end Tolerates

/-- What libdatachannel takes: a description or a candidate for a link. It raises an
exception on any other. -/
structure Acceptance where
  description : ℕ → Description → Bool
  candidate : ℕ → Candidate → Bool

variable {τ : Type} [DecidableEq τ]

namespace DcRtcTransport

/-- Whether libdatachannel takes what the call of `t` hands it next. -/
def accepted (A : Acceptance) (s : DcRtcTransport τ) (t : τ) : Bool :=
  match s.calls t with
  | some (.setRemoteDescription l d) => A.description l d
  | some (.flushing l _ (c :: _)) => A.candidate l c
  | some (.addDirect l c) => A.candidate l c
  | _ => true

/-- The call of `t` runs to its end, with no other call in between. -/
inductive Returns (A : Acceptance) (t : τ) : DcRtcTransport τ → DcRtcTransport τ → Prop where
  | done {s : DcRtcTransport τ} (h : s.calls t = none) : Returns A t s s
  | next {s s₁ s' : DcRtcTransport τ} (he : s.next t (s.accepted A t) = some s₁)
      (h : Returns A t s₁ s') : Returns A t s s'

/-- The exceptions that left `OnMessage` so far. -/
def threw (s : DcRtcTransport τ) : ℕ := s.log.count .threw

/-- The limit of inbound connections is reached. -/
def full (s : DcRtcTransport τ) : Prop :=
  s.maxInboundConnections = 0 ∨ s.inboundCount ≥ s.maxInboundConnections

/-- libdatachannel takes the description, and then the candidates the link has buffered. -/
def takes (A : Acceptance) (s : DcRtcTransport τ) (l : ℕ) (d : Description) : Prop :=
  A.description l d = true ∧ ∀ c ∈ (s.links l).pendingCandidates, A.candidate l c = true

/-- `OnMessage` tolerates the message. -/
def Tolerable (parse : Parse) (A : Acceptance) (s : DcRtcTransport τ) (m : SigMessage) : Prop :=
  ∀ j, parse m.payload = some j → ∃ type, j.value "type" = some type ∧
    (type = "offer" → s.full ∨
      ∃ sdp, j.stringField "description" = some sdp ∧ A.description s.created ⟨sdp, .offer, m.src⟩ = true) ∧
    (type = "answer" → s.isOfferer = true →
      match s.peers s.remoteId with
      | none => (j.value "description").isSome = true
      | some l => ∃ sdp, j.stringField "description" = some sdp ∧ s.takes A l ⟨sdp, .answer, m.src⟩) ∧
    (type = "candidate" →
      match s.peers m.src with
      | none => (j.value "candidate").isSome = true ∧ (j.value "mid").isSome = true
      | some l => ∃ cand, j.stringField "candidate" = some cand ∧ ∃ mid, j.stringField "mid" = some mid ∧
        ((s.links l).remoteDescSet = true → A.candidate l ⟨cand, mid⟩ = true))

theorem Returns.unique {A : Acceptance} {t : τ} {s s' s'' : DcRtcTransport τ} (h : Returns A t s s')
    (h' : Returns A t s s'') : s' = s'' := by
  induction h with
  | done hd =>
    cases h' with
    | done => rfl
    | next he => simp [DcRtcTransport.next, hd] at he
  | next he _ ih =>
    cases h' with
    | done hd => simp [DcRtcTransport.next, hd] at he
    | next he' h' =>
      obtain rfl : _ = _ := Option.some.inj (he.symm.trans he')
      exact ih h'

theorem Returns.exists_iff {A : Acceptance} {t : τ} {s s' : DcRtcTransport τ} (h : Returns A t s s')
    {P : DcRtcTransport τ → Prop} : (∃ s', Returns A t s s' ∧ P s') ↔ P s' :=
  ⟨fun ⟨_, h', hp⟩ => h.unique h' ▸ hp, fun hp => ⟨s', h, hp⟩⟩

/-! ## Calls -/

variable {A : Acceptance} {t : τ} {s : DcRtcTransport τ}

theorem finish_begin (hc : s.calls t = none) (c : Call) : (s.begin t c).finish t = s := by
  simp [begin, finish, setCall, ← hc]

theorem flush_returns {l : ℕ} {d : Description} (cs : List Candidate)
    (hc : s.calls t = some (.flushing l d cs)) :
    ∃ s', Returns A t s s' ∧ s.log.length ≤ s'.log.length ∧
      (s'.threw = s.threw ↔ ∀ c ∈ cs, A.candidate l c = true) := by
  induction cs generalizing s with
  | nil =>
    refine ⟨s.finishLink t l, .next (by simp [next, hc, linkNext]) (.done ?_), ?_, ?_⟩ <;>
      simp [finishLink, finish, setCall, setLink, threw]
  | cons c cs ih =>
    by_cases ha : A.candidate l c = true
    · have he : s.next t (s.accepted A t) =
          some ((s.emit (.candidate l c)).setCall t (some (.flushing l d cs))) := by
        simp [next, hc, linkNext, accepted, ha]
      obtain ⟨s', hr, hl, ht⟩ := ih (s := (s.emit (.candidate l c)).setCall t (some (.flushing l d cs)))
        (by simp [setCall])
      refine ⟨s', .next he hr, ?_, ?_⟩
      · simp only [setCall, emit, List.length_cons] at hl
        omega
      · simpa [threw, setCall, emit, ha] using ht
    · have he : s.next t (s.accepted A t) = some ((s.emit .threw).finishLink t l) := by
        simp [next, hc, linkNext, accepted, ha]
      refine ⟨_, .next he (.done ?_), ?_, ?_⟩ <;>
        simp [finishLink, finish, setCall, setLink, emit, threw, ha]

theorem setRemoteDescription_returns {l : ℕ} {d : Description}
    (hc : s.calls t = some (.setRemoteDescription l d)) :
    ∃ s', Returns A t s s' ∧ s.log.length < s'.log.length ∧ (s'.threw = s.threw ↔ s.takes A l d) := by
  by_cases ha : A.description l d = true
  · set s₁ := (s.emit (.described l d)).setCall t (some (.takePending l d)) with hs₁
    set s₂ := (s₁.setLink l (s₁.links l).takePending).setCall t
      (some (.flushing l d (s₁.links l).pendingCandidates)) with hs₂
    have h₁ : s.next t (s.accepted A t) = some s₁ := by simp [next, hc, linkNext, accepted, ha, hs₁]
    have h₂ : s₁.next t (s₁.accepted A t) = some s₂ := by
      simp [next, hs₁, hs₂, setCall, linkNext]
    obtain ⟨s', hr, hl, ht⟩ := flush_returns (A := A) (s := s₂) (t := t) (l := l) (d := d)
      (s₁.links l).pendingCandidates (by simp [hs₂, setCall])
    refine ⟨s', .next h₁ (.next h₂ hr), ?_, ?_⟩
    · simp only [hs₂, hs₁, setCall, setLink, emit, List.length_cons] at hl
      omega
    · simpa [threw, hs₂, hs₁, setCall, setLink, emit, takes, ha] using ht
  · have he : s.next t (s.accepted A t) = some ((s.emit .threw).finishLink t l) := by
      simp [next, hc, linkNext, accepted, ha]
    refine ⟨_, .next he (.done ?_), ?_, ?_⟩ <;>
      simp [finishLink, finish, setCall, setLink, emit, threw, takes, ha]

theorem begin_calls (c : Call) : (s.begin t c).calls t = some c := by simp [begin, setCall]

theorem offer_full (hc : s.calls t = none) (src : PeerId) (j : Json) (hf : s.full) :
    Returns A t (s.begin t (.offer src j)) s := by
  have hf' : (s.begin t (.offer src j)).maxInboundConnections = 0 ∨
      (s.begin t (.offer src j)).inboundCount ≥ (s.begin t (.offer src j)).maxInboundConnections := hf
  have he : (s.begin t (.offer src j)).next t ((s.begin t (.offer src j)).accepted A t) = some s := by
    simp only [next, begin_calls, hf', if_true, finish_begin hc]
  exact .next he (.done hc)

theorem offer_threw (src : PeerId) {j : Json} (hf : ¬ s.full) (hd : j.value "description" = none) :
    ∃ s', Returns A t (s.begin t (.offer src j)) s' ∧ s'.threw = s.threw + 1 := by
  have hf' : ¬ ((s.begin t (.offer src j)).maxInboundConnections = 0 ∨
      (s.begin t (.offer src j)).inboundCount ≥ (s.begin t (.offer src j)).maxInboundConnections) := hf
  have he : (s.begin t (.offer src j)).next t ((s.begin t (.offer src j)).accepted A t) =
      some (((s.begin t (.offer src j)).emit .threw).finish t) := by
    simp only [next, begin_calls, hf', if_false, hd]
  exact ⟨_, .next he (.done (by simp [finish, setCall])), by simp [threw, finish, setCall, emit, begin]⟩

theorem onDataChannel_returns {l : ℕ} {d : Description} (hc : s.calls t = some (.onDataChannel l d)) :
    ∃ s', Returns A t s s' ∧ s.log.length < s'.log.length ∧ (s'.threw = s.threw ↔ s.takes A l d) := by
  have he : s.next t (s.accepted A t) = some ((s.setLink l { s.links l with wired := true }).setCall t
      (some (.setRemoteDescription l d))) := by
    simp only [next, hc]
  have hc' : ((s.setLink l { s.links l with wired := true }).setCall t
      (some (.setRemoteDescription l d))).calls t = some (.setRemoteDescription l d) := Function.update_self ..
  obtain ⟨s', hr, hl, ht⟩ := setRemoteDescription_returns (A := A) hc'
  refine ⟨s', .next he hr, hl, ht.trans ?_⟩
  simp only [takes, setCall, setLink, Function.update_self]

theorem handleOffer_returns {src : PeerId} {sdp : String} (hc : s.calls t = some (.handleOffer src sdp)) :
    ∃ s', Returns A t s s' ∧ s.log.length < s'.log.length ∧
      (s'.threw = s.threw ↔ A.description s.created ⟨sdp, .offer, src⟩ = true) := by
  have he : s.next t (s.accepted A t) = some ({ s.store src true with
      inboundCount := s.inboundCount + 1 }.setCall t
        (some (.onDataChannel s.created ⟨sdp, .offer, src⟩))) := by
    simp only [next, hc]
  have hc' : ({ s.store src true with inboundCount := s.inboundCount + 1 }.setCall t
      (some (.onDataChannel s.created ⟨sdp, .offer, src⟩))).calls t =
        some (.onDataChannel s.created ⟨sdp, .offer, src⟩) := Function.update_self ..
  obtain ⟨s', hr, hl, ht⟩ := onDataChannel_returns (A := A) hc'
  refine ⟨s', .next he hr, hl, ht.trans ?_⟩
  simp [takes, setCall, store]

theorem offer_returns (src : PeerId) {j : Json} {sdp : String} (hf : ¬ s.full)
    (hd : j.value "description" = some sdp) :
    ∃ s', Returns A t (s.begin t (.offer src j)) s' ∧ s.log.length < s'.log.length ∧
      (s'.threw = s.threw ↔ A.description s.created ⟨sdp, .offer, src⟩ = true) := by
  have hf' : ¬ ((s.begin t (.offer src j)).maxInboundConnections = 0 ∨
      (s.begin t (.offer src j)).inboundCount ≥ (s.begin t (.offer src j)).maxInboundConnections) := hf
  have he : (s.begin t (.offer src j)).next t ((s.begin t (.offer src j)).accepted A t) =
      some ((s.begin t (.offer src j)).setCall t (some (.handleOffer src sdp))) := by
    simp only [next, begin_calls, hf', if_false, hd]
  have hc' : ((s.begin t (.offer src j)).setCall t (some (.handleOffer src sdp))).calls t =
      some (.handleOffer src sdp) := Function.update_self ..
  obtain ⟨s', hr, hl, ht⟩ := handleOffer_returns (A := A) hc'
  exact ⟨s', .next he hr, hl, ht⟩

/-- The lookup found no link. -/
theorem lookup_unknown {c : Call} {id : PeerId} {k : ℕ → Call} (hc : s.calls t = none)
    (hn : (s.begin t c).next t ((s.begin t c).accepted A t) = some ((s.begin t c).lookup t id k))
    (hp : s.peers id = none) : Returns A t (s.begin t c) s := by
  have hl : (s.begin t c).lookup t id k = s := by
    have hp' : (s.begin t c).peers id = none := hp
    simp only [lookup, hp', finish_begin hc]
  rw [hl] at hn
  exact .next hn (.done hc)

theorem answer_returns (src : PeerId) (sdp : String) {l : ℕ} (hp : s.peers s.remoteId = some l) :
    ∃ s', Returns A t (s.begin t (.answer src sdp)) s' ∧ s.log.length < s'.log.length ∧
      (s'.threw = s.threw ↔ s.takes A l ⟨sdp, .answer, src⟩) := by
  set d : Description := ⟨sdp, .answer, src⟩ with hd
  set s₀ := s.begin t (.answer src sdp) with hs₀
  set s₁ := (s₀.setLink l (s₀.links l).acquire).setCall t (some (.setRemoteDescription l d)) with hs₁
  have h₁ : s₀.next t (s₀.accepted A t) = some s₁ := by
    have hp' : s₀.peers s₀.remoteId = some l := hp
    simp only [next, hs₀, begin_calls] at hp' ⊢
    simp only [lookup, hp', hs₁, hs₀, hd]
  obtain ⟨s', hr, hl, ht⟩ := setRemoteDescription_returns (A := A) (s := s₁) (t := t) (l := l) (d := d)
    (by simp [hs₁, setCall])
  have hlog : s₁.log = s.log := rfl
  have hpend : (s₁.links l).pendingCandidates = (s.links l).pendingCandidates := by
    simp [hs₁, hs₀, setCall, setLink, begin, DcRtcLink.acquire]
  refine ⟨s', .next h₁ hr, hlog ▸ hl, ?_⟩
  simpa [threw, hlog, takes, hpend] using ht

theorem candidate_returns {src : PeerId} {c : Candidate} {l : ℕ} (hp : s.peers src = some l) :
    ∃ s', Returns A t (s.begin t (.candidate src c)) s' ∧ s' ≠ s ∧
      (s'.threw = s.threw ↔ ((s.links l).remoteDescSet = true → A.candidate l c = true)) := by
  set s₀ := s.begin t (.candidate src c) with hs₀
  set s₁ := (s₀.setLink l (s₀.links l).acquire).setCall t (some (.addRemoteCandidate l c)) with hs₁
  have h₁ : s₀.next t (s₀.accepted A t) = some s₁ := by
    have hp' : s₀.peers src = some l := hp
    simp only [next, hs₀, begin_calls] at hp' ⊢
    simp only [lookup, hp', hs₁, hs₀]
  have hcall : s₁.calls t = some (.addRemoteCandidate l c) := by simp [hs₁, setCall]
  have hset : (s₁.links l).remoteDescSet = (s.links l).remoteDescSet := by
    simp [hs₁, hs₀, setCall, setLink, begin, DcRtcLink.acquire]
  by_cases hd : (s.links l).remoteDescSet = true
  · set s₂ := s₁.setCall t (some (.addDirect l c)) with hs₂
    have h₂ : s₁.next t (s₁.accepted A t) = some s₂ := by
      simp [next, hcall, linkNext, hset, hd, hs₂]
    have hcall₂ : s₂.calls t = some (.addDirect l c) := by simp [hs₂, setCall]
    have h₃ : s₂.next t (s₂.accepted A t) =
        some ((s₂.emit (if A.candidate l c then .candidate l c else .threw)).finishLink t l) := by
      simp [next, hcall₂, linkNext, accepted]
    have hlog : s₂.log = s.log := rfl
    refine ⟨_, .next h₁ (.next h₂ (.next h₃ (.done ?_))), fun he => ?_, ?_⟩
    · simp [finishLink, finish, setCall]
    · have := congrArg (fun s => s.log.length) he
      simp [finishLink, finish, setCall, setLink, emit, hlog] at this
    · cases ha : A.candidate l c <;> simp [finishLink, finish, setCall, setLink, emit, threw, hlog, hd]
  · have h₂ : s₁.next t (s₁.accepted A t) =
        some ((s₁.setLink l ((s₁.links l).buffer c)).finishLink t l) := by
      simp [next, hcall, linkNext, hset, hd]
    refine ⟨_, .next h₁ (.next h₂ (.done ?_)), fun he => ?_, ?_⟩
    · simp [finishLink, finish, setCall]
    · have := congrArg (fun s => (s.links l).pendingCandidates.length) he
      simp [finishLink, finish, setCall, setLink, DcRtcLink.buffer, DcRtcLink.release, hs₁, hs₀, begin,
        DcRtcLink.acquire] at this
    · simp [finishLink, finish, setCall, setLink, threw, hs₁, hs₀, begin, hd]

/-! ## `OnMessage` -/

/-- The text is what `OnMessage` expects. -/
def expected (parse : Parse) (m : SigMessage) : Bool := (parse m.payload).any Json.isSignal

omit [DecidableEq τ] in
/-- Where the log got longer, something was done. -/
theorem ne_of_log {s s' : DcRtcTransport τ} (h : s.log.length < s'.log.length) : s' ≠ s := fun he => by
  rw [he] at h
  exact Nat.lt_irrefl _ h

omit [DecidableEq τ] in
theorem emit_threw (e : Bool) (s : DcRtcTransport τ) : ¬ Tolerates threw e s (s.emit .threw) :=
  not_tolerates (by simp [threw, emit])

end DcRtcTransport

open DcRtcTransport

section Message

variable {parse : Parse} {A : Acceptance} {t : τ} {s : DcRtcTransport τ} {m : SigMessage} {j : Json}

theorem dc_offer_iff (hc : s.calls t = none) (hp : parse m.payload = some j)
    (ht : j.value "type" = some "offer") :
    (∃ s', Returns A t (s.onMessage parse t m) s' ∧ Tolerates threw (expected parse m) s s') ↔
      (s.full ∨ ∃ sdp, j.stringField "description" = some sdp ∧
        A.description s.created ⟨sdp, .offer, m.src⟩ = true) := by
  have hm : s.onMessage parse t m = s.begin t (.offer m.src j) := by simp [onMessage, hp, ht]
  have hx : expected parse m = (j.stringField "description").isSome := by
    simp [expected, hp, Json.isSignal_eq ht, Json.signalFields, Json.hasStrings]
  rw [hm, hx]
  by_cases hf : s.full
  · simp only [(offer_full hc m.src j hf).exists_iff, tolerates_self, hf, true_or]
  · simp only [hf, false_or]
    cases hd : j.value "description" with
    | none =>
      obtain ⟨s', hr, ht'⟩ := offer_threw (A := A) (t := t) m.src hf hd
      simp [hr.exists_iff, not_tolerates ht', Json.stringField_eq_none hd]
    | some sdp =>
      obtain ⟨s', hr, hl, ht'⟩ := offer_returns (A := A) (t := t) m.src hf hd
      rw [hr.exists_iff, tolerates_iff (ne_of_log hl) ht', Json.exists_stringField hd]

theorem dc_answer_iff (hc : s.calls t = none) (hp : parse m.payload = some j)
    (ht : j.value "type" = some "answer") :
    (∃ s', Returns A t (s.onMessage parse t m) s' ∧ Tolerates threw (expected parse m) s s') ↔
      (s.isOfferer = true →
        match s.peers s.remoteId with
        | none => (j.value "description").isSome = true
        | some l => ∃ sdp, j.stringField "description" = some sdp ∧ s.takes A l ⟨sdp, .answer, m.src⟩) := by
  have hx : expected parse m = (j.stringField "description").isSome := by
    simp [expected, hp, Json.isSignal_eq ht, Json.signalFields, Json.hasStrings]
  rw [hx]
  by_cases ho : s.isOfferer = true
  · simp only [ho, true_imp_iff]
    cases hd : j.value "description" with
    | none =>
      have hm : s.onMessage parse t m = s.emit .threw := by simp [onMessage, hp, ht, ho, hd]
      have hr : Returns A t (s.emit .threw) (s.emit .threw) := .done hc
      rw [hm, hr.exists_iff]
      split <;> simp [emit_threw, Json.stringField_eq_none hd]
    | some sdp =>
      have hm : s.onMessage parse t m = s.begin t (.answer m.src sdp) := by
        simp [onMessage, hp, ht, ho, hd]
      rw [hm]
      split
      · rename_i hpeer
        have hr : Returns A t (s.begin t (.answer m.src sdp)) s :=
          lookup_unknown hc (by simp only [next, begin_calls]; rfl) hpeer
        simp [hr.exists_iff, tolerates_self]
      · rename_i l hpeer
        obtain ⟨s', hr, hl, ht'⟩ := answer_returns (A := A) (t := t) m.src sdp hpeer
        rw [hr.exists_iff, tolerates_iff (ne_of_log hl) ht', Json.exists_stringField hd]
  · have hm : s.onMessage parse t m = s := by simp [onMessage, hp, ht, ho]
    have hr : Returns A t s s := .done hc
    simp [hm, hr.exists_iff, tolerates_self, ho]

theorem dc_candidate_iff (hc : s.calls t = none) (hp : parse m.payload = some j)
    (ht : j.value "type" = some "candidate") :
    (∃ s', Returns A t (s.onMessage parse t m) s' ∧ Tolerates threw (expected parse m) s s') ↔
      match s.peers m.src with
      | none => (j.value "candidate").isSome = true ∧ (j.value "mid").isSome = true
      | some l => ∃ cand, j.stringField "candidate" = some cand ∧ ∃ mid, j.stringField "mid" = some mid ∧
        ((s.links l).remoteDescSet = true → A.candidate l ⟨cand, mid⟩ = true) := by
  have hx : expected parse m = ((j.stringField "candidate").isSome && (j.stringField "mid").isSome) := by
    simp [expected, hp, Json.isSignal_eq ht, Json.signalFields, Json.hasStrings]
  rw [hx]
  by_cases hv : (j.value "candidate").isSome = true ∧ (j.value "mid").isSome = true
  · obtain ⟨⟨cand, hcand⟩, mid, hmid⟩ := hv.imp Option.isSome_iff_exists.mp Option.isSome_iff_exists.mp
    have hm : s.onMessage parse t m = s.begin t (.candidate m.src ⟨cand, mid⟩) := by
      simp [onMessage, hp, ht, hcand, hmid]
    rw [hm]
    split
    · rename_i hpeer
      have hr : Returns A t (s.begin t (.candidate m.src ⟨cand, mid⟩)) s :=
        lookup_unknown hc (by simp only [next, begin_calls]; rfl) hpeer
      simp [hr.exists_iff, tolerates_self, hcand, hmid]
    · rename_i l hpeer
      obtain ⟨s', hr, hne, ht'⟩ := candidate_returns (A := A) (t := t) (c := ⟨cand, mid⟩) hpeer
      rw [hr.exists_iff, tolerates_iff hne ht']
      rw [Json.exists_stringField hcand, Json.exists_stringField hmid, Bool.and_eq_true, and_assoc]
  · have hm : s.onMessage parse t m = s.emit .threw := by
      simp only [onMessage, hp, ht]
      split
      · rename_i hcand hmid
        exact absurd ⟨by simp [hcand], by simp [hmid]⟩ hv
      · rfl
    have hr : Returns A t (s.emit .threw) (s.emit .threw) := .done hc
    rw [hm, hr.exists_iff]
    refine iff_of_false (emit_threw _ s) ?_
    split
    · exact hv
    · rintro ⟨cand, hcand, mid, hmid, -⟩
      exact hv ⟨by simp [Json.value_eq_some.mpr (.inl hcand)], by simp [Json.value_eq_some.mpr (.inl hmid)]⟩

end Message

/-- `OnMessage` tolerates exactly the messages that are `Tolerable`. -/
theorem dc_tolerates_iff {parse : Parse} {A : Acceptance} {t : τ} {s : DcRtcTransport τ}
    (hc : s.calls t = none) (m : SigMessage) :
    (∃ s', Returns A t (s.onMessage parse t m) s' ∧ Tolerates threw (expected parse m) s s') ↔
      s.Tolerable parse A m := by
  have hr : Returns A t s s := .done hc
  cases hp : parse m.payload with
  | none =>
    have hm : s.onMessage parse t m = s := by simp [onMessage, hp]
    simp [hm, hr.exists_iff, tolerates_self, Tolerable, hp]
  | some j =>
    simp only [Tolerable, hp, Option.some.injEq, forall_eq']
    cases ht : j.value "type" with
    | none =>
      have hm : s.onMessage parse t m = s.emit .threw := by simp [onMessage, hp, ht]
      have hr' : Returns A t (s.emit .threw) (s.emit .threw) := .done hc
      simp [hm, hr'.exists_iff, emit_threw]
    | some type =>
      simp only [Option.some.injEq, exists_eq_left']
      by_cases h₁ : type = "offer"
      · subst h₁
        simp [dc_offer_iff hc hp ht]
      by_cases h₂ : type = "answer"
      · subst h₂
        simp [dc_answer_iff hc hp ht]
      by_cases h₃ : type = "candidate"
      · subst h₃
        simp [dc_candidate_iff hc hp ht]
      · have hm : s.onMessage parse t m = s := by
          simp [onMessage, hp, ht]
        simp [hm, hr.exists_iff, tolerates_self, h₁, h₂, h₃]

end TX.Rtt
