import TxPkgAux.Proof.Rtt.DcInv

/-!
# `DcRtcTransport`: answers

`OnMessage` applies an answer to the link it finds under `remoteId`, whoever sent it
and whichever link that is. Where the sender is `remoteId` and the link is the one of
`OpenOfferer`, or there is none, every answer that is applied was made by the peer it
was asked of (`answers_applied`).
-/

namespace TX.Rtt

open Function (update)

variable {τ : Type} [DecidableEq τ]

/-- The link and the description of a call of `SetRemoteDescription`, which
`HandleOffer` also ends in. -/
def Call.describes : Call → Option (Nat × Description)
  | .onDataChannel l d | .setRemoteDescription l d | .takePending l d | .flushing l d _ => some (l, d)
  | _ => none

/-- The sender of the answer that the call handles. -/
def Call.answerFrom : Call → Option PeerId
  | .answer src _ => some src
  | c => c.describes.bind fun p => if p.2.type = .answer then some p.2.src else none

namespace DcRtcTransport

/-- The sender of the answer that the next step of the call looks a link up for. -/
def answering (s : DcRtcTransport τ) (t : τ) : Option PeerId :=
  match s.calls t with
  | some (.answer src _) => some src
  | _ => none

/-- The sender of the message that the action handles, if it begins a message or is a
step in the handling of an answer. -/
def handles (s : DcRtcTransport τ) : DcAction τ → Option PeerId
  | .onMessage _ m => some m.src
  | .next t _ => (s.calls t).bind Call.answerFrom
  | _ => none

/-- An answer goes to the link of `OpenOfferer`, and comes from its `RemoteId`. -/
def Fits (s : DcRtcTransport τ) (l : Nat) (d : Description) : Prop :=
  d.type = .answer → l < s.created ∧ (s.links l).inbound = false ∧ d.src = (s.links l).remoteId

end DcRtcTransport

/-- An answer is looked up while nothing is stored under `remoteId`, or it was sent by
`remoteId` and the link of `OpenOfferer` is stored there. -/
def AnswersFit (s : DcRtcTransport τ) : DcAction τ → Prop
  | .next t _ => ∀ src ∈ s.answering t, ∀ l ∈ s.peers s.remoteId,
    src = s.remoteId ∧ (s.links l).inbound = false
  | _ => True

structure AnswerInv (s : DcRtcTransport τ) : Prop where
  base : DcInv s
  outbound : ∀ l < s.created, (s.links l).inbound = false → (s.links l).remoteId = s.remoteId
  describing : ∀ t c l d, s.calls t = some c → c.describes = some (l, d) → s.Fits l d
  described : ∀ l d, .described l d ∈ s.log → s.Fits l d

section Step

variable {parse : Parse} {s s' : DcRtcTransport τ} {a : DcAction τ}

/-- A link keeps its identity, and the transport its `remoteId`. -/
theorem DcStep.identity (h : DcStep parse s a s') : s'.remoteId = s.remoteId ∧
    s.created ≤ s'.created ∧ ∀ l < s.created, (s'.links l).inbound = (s.links l).inbound ∧
      (s'.links l).remoteId = (s.links l).remoteId := by
  refine ⟨by cases h <;> rfl, h.created_le, fun l hl => ?_⟩
  cases h.linkStep l with
  | kept hk => exact ⟨hk.inbound, hk.remoteId⟩
  | created hk hc src inbound ho he => omega
  | bound _ _ _ _ _ he | reported _ _ _ _ he | changed _ _ he | gone _ _ _ he | goneDead _ _ _ he
  | refused _ he | notified _ _ he _ | unnotified _ _ _ he | handled _ he => rw [he]; exact ⟨rfl, rfl⟩

theorem DcStep.fits (h : DcStep parse s a s') {l : Nat} {d : Description} (hf : s.Fits l d) :
    s'.Fits l d := by
  intro ht
  obtain ⟨hl, hin, hsrc⟩ := hf ht
  obtain ⟨-, hle, hid⟩ := h.identity
  obtain ⟨hin', hrem⟩ := hid l hl
  exact ⟨by omega, hin'.trans hin, hsrc.trans hrem.symm⟩

theorem DcStep.outbound (h : DcStep parse s a s') (hi : AnswerInv s) (l : Nat) (hl : l < s'.created)
    (hin : (s'.links l).inbound = false) : (s'.links l).remoteId = s'.remoteId := by
  obtain ⟨hrem, -, hid⟩ := h.identity
  by_cases hlt : l < s.created
  · rw [(hid l hlt).1] at hin
    rw [(hid l hlt).2, hrem, hi.outbound l hlt hin]
  · rcases h.creates with hc | ⟨hc, ho⟩
    · omega
    · obtain rfl : l = s.created := by omega
      rw [hrem, ho hin]

/-- A description comes from the call it was in, from `HandleOffer`, or from the lookup
of an answer. -/
theorem DcStep.describes (h : DcStep parse s a s') {t : τ} {c : Call} {l : Nat} {d : Description}
    (hc : s'.calls t = some c) (hd : c.describes = some (l, d)) :
    (∃ c₀, s.calls t = some c₀ ∧ c₀.describes = some (l, d)) ∨ d.type = .offer ∨
      ∃ accepted, a = .next t accepted ∧ s.answering t = some d.src ∧ s.peers s.remoteId = some l := by
  have hcall : ∀ {t' o}, update s.calls t' o t = some c → t = t' ∧ o = some c ∨ s.calls t = some c :=
    fun {t' o} hc => by
      by_cases ht : t = t'
      · subst ht
        exact .inl ⟨rfl, by simpa using hc⟩
      · exact .inr (by simpa [ht] using hc)
  cases h
  case answerFound t' accepted src sdp l' hc' hp =>
    rcases hcall hc with ⟨rfl, he⟩ | hc
    · cases he
      cases hd
      exact .inr (.inr ⟨accepted, rfl, by simp [DcRtcTransport.answering, hc'], hp⟩)
    · exact .inl ⟨c, hc, hd⟩
  case handleOffer t' accepted src sdp hc' =>
    rcases hcall hc with ⟨rfl, he⟩ | hc
    · cases he
      cases hd
      exact .inr (.inl rfl)
    · exact .inl ⟨c, hc, hd⟩
  case onDataChannel hc' | described hc' | takePending hc' | flush hc' =>
    rcases hcall hc with ⟨rfl, he⟩ | hc
    · cases he
      exact .inl ⟨_, hc', hd⟩
    · exact .inl ⟨c, hc, hd⟩
  all_goals first
    | exact .inl ⟨c, hc, hd⟩
    | rcases hcall hc with ⟨-, he⟩ | hc
      · cases he <;> cases hd
      · exact .inl ⟨c, hc, hd⟩

theorem DcStep.describing (h : DcStep parse s a s') (hi : AnswerInv s) (ha : AnswersFit s a) (t : τ)
    (c : Call) (l : Nat) (d : Description) (hc : s'.calls t = some c)
    (hd : c.describes = some (l, d)) : s'.Fits l d := by
  refine h.fits ?_
  rcases h.describes hc hd with ⟨c₀, hc₀, hd₀⟩ | ho | ⟨accepted, rfl, hans, hp⟩
  · exact hi.describing t c₀ l d hc₀ hd₀
  · intro ht
    simp [ho] at ht
  · intro _
    obtain ⟨hsrc, hin⟩ := ha d.src hans l hp
    obtain ⟨hl, hrem, -⟩ := hi.base.stored s.remoteId l hp
    exact ⟨hl, hin, hsrc.trans hrem.symm⟩

/-- A description that is applied is the one of the call that applies it. -/
theorem DcStep.log_described (h : DcStep parse s a s') {l : Nat} {d : Description}
    (hm : .described l d ∈ s'.log) : .described l d ∈ s.log ∨
      ∃ t c, s.calls t = some c ∧ c.describes = some (l, d) := by
  cases h
  case described t l' d' hc =>
    rcases List.mem_cons.mp hm with he | hm
    · cases he
      exact .inr ⟨t, _, hc, rfl⟩
    · exact .inl hm
  all_goals grind -linarith -order

theorem DcStep.described_fits (h : DcStep parse s a s') (hi : AnswerInv s) (l : Nat)
    (d : Description) (hm : .described l d ∈ s'.log) : s'.Fits l d := by
  refine h.fits ?_
  rcases h.log_described hm with hm | ⟨t, c, hc, hd⟩
  · exact hi.described l d hm
  · exact hi.describing t c l d hc hd

theorem DcStep.answerInv (h : DcStep parse s a s') (hi : AnswerInv s) (ha : AnswersFit s a) :
    AnswerInv s' :=
  ⟨h.dcInv hi.base, h.outbound hi, h.describing hi ha, h.described_fits hi⟩

omit [DecidableEq τ] in
theorem Call.answerFrom_describes {c : Call} {l : Nat} {d : Description} (hd : c.describes = some (l, d)) :
    c.answerFrom = if d.type = .answer then some d.src else none := by
  cases c <;> cases hd <;> rfl

/-- A step in the handling of an answer of another peer changes no link. -/
theorem DcStep.handles_other (h : DcStep parse s a s') (hi : AnswerInv s) (ha : AnswersFit s a)
    {src : PeerId} (hh : s.handles a = some src) (hne : src ≠ s.remoteId) :
    s'.links = s.links ∧ s'.peers = s.peers ∧ s'.inboundCount = s.inboundCount := by
  -- A call that applies the answer would have found it fit.
  have hfits : ∀ {t accepted c l d}, s.calls t = some c → c.describes = some (l, d) →
      s.handles (.next t accepted) ≠ some src := fun {t accepted c l d} hc hd hh => by
    rw [DcRtcTransport.handles, hc, Option.bind_some, Call.answerFrom_describes hd] at hh
    split at hh <;> cases hh
    rename_i ht
    obtain ⟨hl, hin, hsrc⟩ := hi.describing t c l d hc hd ht
    exact hne (by rw [hsrc, hi.outbound l hl hin])
  cases h
  case answerFound t accepted src' sdp l hc hp =>
    obtain rfl : src' = src := by simpa [DcRtcTransport.handles, hc, Call.answerFrom] using hh
    exact absurd (ha src' (by simp [DcRtcTransport.answering, hc]) l hp).1 hne
  case onDataChannel hc | descriptionRejected hc | takePending hc | flushed hc | flushRejected hc =>
    exact absurd hh (hfits hc rfl)
  case handleOffer hc | openOfferer hc | onOpen hc | addDirect hc | setHandler hc | candidateFound hc _ |
      addBuffered hc _ =>
    simp [DcRtcTransport.handles, hc, Call.answerFrom, Call.describes] at hh
  all_goals first
    | exact ⟨rfl, rfl, rfl⟩
    | cases hh

end Step

theorem AnswerInv.init (parse : Parse) (remoteId : PeerId) (max : Nat) :
    AnswerInv (DcRtcTransport.lts τ parse remoteId max).init where
  base := .init parse remoteId max
  outbound := by simp [DcRtcTransport.lts]
  describing := by simp [DcRtcTransport.lts]
  described := by simp [DcRtcTransport.lts]

theorem AnswerInv.reach {parse : Parse} {remoteId : PeerId} {max : Nat} {s : DcRtcTransport τ}
    (h : (DcRtcTransport.lts τ parse remoteId max).Reach AnswersFit s) : AnswerInv s :=
  h.invariant (.init parse remoteId max) fun hI ha he => (DcStep.of_step he).answerInv hI ha

/-- In a run in which answers fit, an answer is applied, or is about to be, only to the
link of `OpenOfferer` and only if its sender is that link's `RemoteId`; and handling an
answer of another peer leaves the links as they are. -/
theorem answers_applied {parse : Parse} {remoteId : PeerId} {max : Nat} {s : DcRtcTransport τ}
    (h : (DcRtcTransport.lts τ parse remoteId max).Reach AnswersFit s) :
    (∀ l d, (.described l d ∈ s.log ∨ ∃ t, s.calls t = some (.setRemoteDescription l d)) →
      d.type = .answer → l < s.created ∧ (s.links l).inbound = false ∧
        d.src = (s.links l).remoteId) ∧
      ∀ a s' src, AnswersFit s a → s.step parse a = some s' → s.handles a = some src →
        src ≠ s.remoteId → s'.links = s.links ∧ s'.peers = s.peers := by
  have hi := AnswerInv.reach h
  refine ⟨fun l d hd ht => ?_, fun a s' src ha he hh hne => ?_⟩
  · rcases hd with hm | ⟨t, hc⟩
    · exact hi.described l d hm ht
    · exact hi.describing t _ l d hc rfl ht
  · obtain ⟨hl, hp, -⟩ := (DcStep.of_step he).handles_other hi ha hh hne
    exact ⟨hl, hp⟩

instance (s : DcRtcTransport τ) (a : DcAction τ) : Decidable (AnswersFit s a) :=
  match a with
  | .next t _ => inferInstanceAs (Decidable (∀ src ∈ s.answering t, ∀ l ∈ s.peers s.remoteId,
      src = s.remoteId ∧ (s.links l).inbound = false))
  | .joined _ _ | .onMessage _ _ | .onLeft _ | .channel _ _ | .onLink _ _ _ | .stateChange _ _
  | .changeNext _ | .disconnect _ | .dropLink _ | .dropAcceptor | .destroy => .isTrue trivial

/-- The answer of the peer that was made an offer. -/
theorem answers_applied_remote : ∃ s, (DcRtcTransport.offerer "b" 1).Reach AnswersFit s ∧
    .described 0 ⟨"v=0", .answer, ⟨"b"⟩⟩ ∈ s.log ∧ (s.links 0).inbound = false ∧
    (s.links 0).remoteId = ⟨"b"⟩ := by
  obtain ⟨s, hs, hq⟩ := Lts.Reach.of_run (DcRtcTransport.offerer "b" 1) AnswersFit
    [.joined () none, .next () true, .next () true, .onMessage () (DcRtcTransport.answerFrom "b"),
      .next () true, .next () true]
    (fun s => .described 0 ⟨"v=0", .answer, ⟨"b"⟩⟩ ∈ s.log) (by decide +kernel)
  have hm := of_decide_eq_true hq
  obtain ⟨-, hin, hsrc⟩ := (answers_applied hs).1 0 _ (.inl hm) rfl
  exact ⟨s, hs, hm, hin, hsrc.symm⟩

/-- The answer of another peer is applied to the link to `b`. -/
theorem answers_applied_spoofed : ∃ s, (DcRtcTransport.offerer "b" 1).Reach Lts.Any s ∧
    .described 0 ⟨"v=0", .answer, ⟨"c"⟩⟩ ∈ s.log ∧ (s.links 0).remoteId = ⟨"b"⟩ ∧
    (s.links 0).remoteDescSet = true := by
  obtain ⟨s, hs, hq⟩ := Lts.Reach.of_run (DcRtcTransport.offerer "b" 1) Lts.Any
    [.joined () none, .next () true, .next () true, .onMessage () (DcRtcTransport.answerFrom "c"),
      .next () true, .next () true, .next () true]
    (fun s => .described 0 ⟨"v=0", .answer, ⟨"c"⟩⟩ ∈ s.log ∧ (s.links 0).remoteId = ⟨"b"⟩ ∧
      (s.links 0).remoteDescSet = true) (by decide +kernel)
  exact ⟨s, hs, of_decide_eq_true hq⟩

end TX.Rtt
