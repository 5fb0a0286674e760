import TxPkgAux.Impl.Rtt.RtcNetwork
import TxPkgAux.Proof.Rtt.DcAnswers

/-!
# `DcRtcTransport`: what it hands to libdatachannel

`OnMessage` reads back what the callbacks of a link sent (`onMessage_payload`). A transport
whose messages all come from such callbacks hands to a peer connection only what one of
them reported: a description to the link it is meant for, a candidate to a link of its
sender (`HeardInv`). `P src e` says that `src` sent `e`.
-/

namespace TX.Rtt

open Function (update)

/-! ## Payloads -/

theorem Json.value_ofFields (fields : List (String × String)) (key : String) :
    (Json.ofFields fields).value key = some ((fields.lookup key).getD "") := by
  have hl : (fields.map fun f => (f.1, Json.string f.2)).lookup key =
      (fields.lookup key).map Json.string := by
    induction fields with
    | nil => rfl
    | cons f fields ih =>
      obtain ⟨k, v⟩ := f
      cases hk : key == k <;> simp [List.lookup_cons, hk, ih]
  simp only [Json.ofFields, Json.value, hl]
  cases fields.lookup key <;> rfl

namespace LocalEvent

theorem type_payload (e : LocalEvent) : e.payload.value "type" = some (match e with
    | .description type _ => type.typeString
    | .candidate _ => "candidate") := by
  cases e <;> simp [payload, Json.value_ofFields, fields, List.lookup_cons]

theorem description_payload (type : DescriptionType) (sdp : String) :
    (description type sdp).payload.value "description" = some sdp := by
  simp [payload, Json.value_ofFields, fields]

theorem candidate_payload (c : Candidate) : (candidate c).payload.value "candidate" = some c.candidate ∧
    (candidate c).payload.value "mid" = some c.mid := by
  simp [payload, Json.value_ofFields, fields, List.lookup_cons]

/-- The call that `OnMessage` goes on with. -/
def call (src : PeerId) : LocalEvent → Call
  | .description .offer sdp => .offer src (LocalEvent.description .offer sdp).payload
  | .description .answer sdp => .answer src sdp
  | .candidate c => .candidate src c

/-- `OnMessage` drops an answer where none was asked for. -/
def isAnswer : LocalEvent → Bool
  | .description .answer _ => true
  | _ => false

end LocalEvent

section

variable {τ : Type} [DecidableEq τ]

/-- `OnMessage` reads back what the callbacks of a link sent. -/
theorem onMessage_payload {parse : Parse} (s : DcRtcTransport τ) (t : τ) {m : SigMessage} {e : LocalEvent}
    (hp : parse m.payload = some e.payload) : s.onMessage parse t m =
      if e.isAnswer = true ∧ s.isOfferer = false then s else s.begin t (e.call m.src) := by
  simp only [DcRtcTransport.onMessage, hp, LocalEvent.type_payload]
  cases e with
  | candidate c =>
    obtain ⟨hc, hm⟩ := LocalEvent.candidate_payload c
    simp [hc, hm, LocalEvent.isAnswer, LocalEvent.call]
  | description type sdp =>
    have hd := LocalEvent.description_payload type sdp
    cases type
    · simp [DescriptionType.typeString, LocalEvent.isAnswer, LocalEvent.call]
    · cases ho : s.isOfferer <;>
        simp [DescriptionType.typeString, LocalEvent.isAnswer, LocalEvent.call, hd]

/-! ## What was heard -/

/-- A description is for the link: an offer for the link that `HandleOffer` made for its
sender, an answer for the link of `OpenOfferer` to its sender. -/
def DcRtcTransport.Applies (s : DcRtcTransport τ) (l : Nat) (d : Description) : Prop :=
  l < s.created ∧ d.src = (s.links l).remoteId ∧ ((s.links l).inbound = true ↔ d.type = .offer)

/-- A candidate is from the peer of the link. -/
def DcRtcTransport.Gathered (s : DcRtcTransport τ) (P : PeerId → LocalEvent → Prop) (l : Nat)
    (c : Candidate) : Prop :=
  l < s.created ∧ P (s.links l).remoteId (.candidate c)

/-- What the call handles was heard. -/
def Call.Heard (P : PeerId → LocalEvent → Prop) (s : DcRtcTransport τ) : Call → Prop
  | .offer src j => ∀ sdp, j.value "description" = some sdp → P src (.description .offer sdp)
  | .handleOffer src sdp => P src (.description .offer sdp)
  | .answer src sdp => P src (.description .answer sdp)
  | .candidate src c => P src (.candidate c)
  | .onDataChannel l d | .setRemoteDescription l d | .takePending l d =>
    s.Applies l d ∧ P d.src (.description d.type d.sdp)
  | .flushing l d pending =>
    (s.Applies l d ∧ P d.src (.description d.type d.sdp)) ∧ ∀ c ∈ pending, s.Gathered P l c
  | .addRemoteCandidate l c | .addDirect l c => s.Gathered P l c
  | .openOfferer | .onOpen _ | .onLink _ | .setHandler _ _ => True

structure HeardInv (P : PeerId → LocalEvent → Prop) (s : DcRtcTransport τ) : Prop where
  base : AnswerInv s
  calls : ∀ t c, s.calls t = some c → c.Heard P s
  inbound : ∀ l < s.created, (s.links l).inbound = true →
    ∃ sdp, P (s.links l).remoteId (.description .offer sdp)
  pending : ∀ l, ∀ c ∈ (s.links l).pendingCandidates, s.Gathered P l c
  described : ∀ l d, .described l d ∈ s.log → s.Applies l d ∧ P d.src (.description d.type d.sdp)
  candidates : ∀ l c, .candidate l c ∈ s.log → s.Gathered P l c

section Step

variable {P : PeerId → LocalEvent → Prop} {parse : Parse} {s s' : DcRtcTransport τ} {a : DcAction τ}

theorem DcStep.applies (h : DcStep parse s a s') {l : Nat} {d : Description} (ha : s.Applies l d) :
    s'.Applies l d := by
  obtain ⟨hl, hsrc, hin⟩ := ha
  obtain ⟨-, hle, hid⟩ := h.identity
  obtain ⟨hin', hrem⟩ := hid l hl
  exact ⟨Nat.lt_of_lt_of_le hl hle, hsrc.trans hrem.symm, hin' ▸ hin⟩

theorem DcStep.gathered (h : DcStep parse s a s') {l : Nat} {c : Candidate} (hg : s.Gathered P l c) :
    s'.Gathered P l c := by
  obtain ⟨hl, hp⟩ := hg
  obtain ⟨-, hle, hid⟩ := h.identity
  exact ⟨Nat.lt_of_lt_of_le hl hle, (hid l hl).2 ▸ hp⟩

theorem DcStep.heard (h : DcStep parse s a s') {c : Call} (hc : c.Heard P s) : c.Heard P s' := by
  cases c with
  | offer | handleOffer | answer | candidate | openOfferer | onOpen | onLink | setHandler => exact hc
  | onDataChannel | setRemoteDescription | takePending => exact ⟨h.applies hc.1, hc.2⟩
  | flushing => exact ⟨⟨h.applies hc.1.1, hc.1.2⟩, fun c hm => h.gathered (hc.2 c hm)⟩
  | addRemoteCandidate | addDirect => exact h.gathered hc

/-- One call goes on, or returns. -/
theorem heard_update {s₀ : DcRtcTransport τ} (hold : ∀ t c, s₀.calls t = some c → c.Heard P s)
    {t₀ : τ} {o : Option Call} (ho : ∀ c, o = some c → c.Heard P s) (t : τ) (c : Call)
    (hc : update s₀.calls t₀ o t = some c) : c.Heard P s := by
  by_cases ht : t = t₀
  · subst ht
    exact ho c (by simpa using hc)
  · exact hold t c (by simpa [ht] using hc)

/-- The calls that go on handle what they handled before. -/
theorem DcStep.heard_calls (h : DcStep parse s a s') (hi : HeardInv P s) (ha : AnswersFit s a)
    (hm : ∀ t m, a ≠ .onMessage t m) (t : τ) (c : Call) (hc : s'.calls t = some c) : c.Heard P s' := by
  have hold : ∀ t c, s.calls t = some c → c.Heard P s' := fun t c hc => h.heard (hi.calls t c hc)
  have hstep := h
  cases h
  case ignored t₀ m | messageThrew t₀ m | offer t₀ m _ _ _ _ | answer t₀ m _ _ _ _ _ _ _ |
      candidate t₀ m _ _ _ _ _ => exact absurd rfl (hm t₀ m)
  case offerPassed t₀ accepted src j sdp hc' hmax hd =>
    refine heard_update hold (fun c he => ?_) t c hc
    cases he
    exact hi.calls _ _ hc' sdp hd
  case handleOffer t₀ accepted src sdp hc' =>
    refine heard_update hold (fun c he => ?_) t c hc
    cases he
    exact ⟨⟨Nat.lt_succ_self _, by simp, by simp⟩, hi.calls _ _ hc'⟩
  case onDataChannel hc' =>
    refine heard_update hold (fun c he => ?_) t c hc
    cases he
    have hh := hold _ _ hc'
    exact hh
  case answerFound t₀ accepted src sdp l hc' hp =>
    obtain ⟨hsrc, hin⟩ := ha src (by simp [DcRtcTransport.answering, hc']) l hp
    obtain ⟨hl, hrem, -⟩ := hi.base.base.stored _ l hp
    refine heard_update hold (fun c he => ?_) t c hc
    cases he
    exact ⟨hstep.applies ⟨hl, hsrc.trans hrem.symm, by simp [hin]⟩, hi.calls _ _ hc'⟩
  case candidateFound t₀ accepted src c' l hc' hp =>
    obtain ⟨hl, hrem, -⟩ := hi.base.base.stored _ l hp
    refine heard_update hold (fun c he => ?_) t c hc
    cases he
    exact hstep.gathered ⟨hl, hrem.symm ▸ hi.calls _ _ hc'⟩
  case described hc' =>
    refine heard_update hold (fun c he => ?_) t c hc
    cases he
    have hh := hold _ _ hc'
    exact hh
  case takePending t₀ accepted l d hc' =>
    refine heard_update hold (fun c he => ?_) t c hc
    cases he
    exact ⟨hold _ _ hc', fun c hm => hstep.gathered (hi.pending l c hm)⟩
  case flush hc' =>
    refine heard_update hold (fun c he => ?_) t c hc
    cases he
    exact ⟨(hold _ _ hc').1, fun c hm => (hold _ _ hc').2 c (List.mem_cons_of_mem _ hm)⟩
  case addDescribed hc' hr =>
    refine heard_update hold (fun c he => ?_) t c hc
    cases he
    have hh := hold _ _ hc'
    exact hh
  all_goals first
    | exact hold t c hc
    | refine heard_update hold (fun c he => ?_) t c hc
      cases he <;> exact True.intro

theorem DcStep.heard_inbound (h : DcStep parse s a s') (hi : HeardInv P s) (l : Nat)
    (hl : l < s'.created) (hin : (s'.links l).inbound = true) :
    ∃ sdp, P (s'.links l).remoteId (.description .offer sdp) := by
  obtain ⟨-, -, hid⟩ := h.identity
  by_cases hlt : l < s.created
  · rw [(hid l hlt).1] at hin
    rw [(hid l hlt).2]
    exact hi.inbound l hlt hin
  · cases h
    case handleOffer t accepted src sdp hc =>
      obtain rfl : l = s.created := by
        have : l < s.created + 1 := hl
        omega
      refine ⟨sdp, ?_⟩
      simp only [Function.update_self]
      exact hi.calls _ _ hc
    case openOfferer t accepted hc =>
      obtain rfl : l = s.created := by
        have : l < s.created + 1 := hl
        omega
      simp at hin
    all_goals exact absurd hl hlt

/-- A candidate is buffered by the call that handles it. -/
theorem DcStep.pendingCandidates (h : DcStep parse s a s') {l : Nat} {c : Candidate}
    (hm : c ∈ (s'.links l).pendingCandidates) : c ∈ (s.links l).pendingCandidates ∨
      ∃ t, s.calls t = some (.addRemoteCandidate l c) := by
  cases h
  case addBuffered t accepted l' c' hc hr =>
    by_cases hl : l = l'
    · subst hl
      simp only [Function.update_self, List.mem_append, List.mem_singleton] at hm
      rcases hm with hm | rfl
      · exact .inl hm
      · exact .inr ⟨t, hc⟩
    · exact .inl (by simpa [hl] using hm)
  all_goals exact .inl (by grind -linarith -order [Function.update_apply])

theorem DcStep.heard_pending (h : DcStep parse s a s') (hi : HeardInv P s) (l : Nat) (c : Candidate)
    (hm : c ∈ (s'.links l).pendingCandidates) : s'.Gathered P l c := by
  rcases h.pendingCandidates hm with hm | ⟨t, hc⟩
  · exact h.gathered (hi.pending l c hm)
  · exact h.gathered (hi.calls t _ hc)

theorem DcStep.heard_described (h : DcStep parse s a s') (hi : HeardInv P s) (l : Nat) (d : Description)
    (hm : .described l d ∈ s'.log) : s'.Applies l d ∧ P d.src (.description d.type d.sdp) := by
  have hold : .described l d ∈ s.log → s'.Applies l d ∧ P d.src (.description d.type d.sdp) := fun hm =>
    ⟨h.applies (hi.described l d hm).1, (hi.described l d hm).2⟩
  have hstep := h
  cases h
  case described t l' d' hc =>
    rcases List.mem_cons.mp hm with he | hm
    · cases he
      exact ⟨hstep.applies (hi.calls t _ hc).1, (hi.calls t _ hc).2⟩
    · exact hold hm
  all_goals exact hold (by grind -linarith -order)

theorem DcStep.heard_candidates (h : DcStep parse s a s') (hi : HeardInv P s) (l : Nat) (c : Candidate)
    (hm : .candidate l c ∈ s'.log) : s'.Gathered P l c := by
  have hold : .candidate l c ∈ s.log → s'.Gathered P l c := fun hm => h.gathered (hi.candidates l c hm)
  have hstep := h
  cases h
  case flush t l' d c' rest hc =>
    rcases List.mem_cons.mp hm with he | hm
    · cases he
      exact hstep.gathered ((hi.calls t _ hc).2 c List.mem_cons_self)
    · exact hold hm
  case addDirect t accepted l' c' hc =>
    rcases List.mem_cons.mp hm with he | hm
    · cases accepted <;> cases he
      exact hstep.gathered (hi.calls t _ hc)
    · exact hold hm
  all_goals exact hold (by grind -linarith -order)

theorem DcStep.heardInv (h : DcStep parse s a s') (hi : HeardInv P s) (ha : AnswersFit s a)
    (hm : ∀ t m, a ≠ .onMessage t m) : HeardInv P s' :=
  ⟨h.answerInv hi.base ha, h.heard_calls hi ha hm, h.heard_inbound hi, h.heard_pending hi,
    h.heard_described hi, h.heard_candidates hi⟩

theorem HeardInv.begin (hi : HeardInv P s) {t : τ} {c : Call} (hb : AnswerInv (s.begin t c))
    (hc : c.Heard P s) : HeardInv P (s.begin t c) where
  base := hb
  calls := heard_update hi.calls fun _ he => by
    cases he
    exact hc
  inbound := hi.inbound
  pending := hi.pending
  described := hi.described
  candidates := hi.candidates

/-- A message that was sent by the callback of a link arrives. -/
theorem HeardInv.onMessage (hi : HeardInv P s) {t : τ} {m : SigMessage} {e : LocalEvent}
    (he : s.step parse (.onMessage t m) = some s') (hp : parse m.payload = some e.payload)
    (hP : P m.src e) : HeardInv P s' := by
  have hb := (DcStep.of_step he).answerInv hi.base trivial
  simp only [DcRtcTransport.step] at he
  split at he <;> cases he
  rw [onMessage_payload s t hp] at hb ⊢
  by_cases hd : e.isAnswer = true ∧ s.isOfferer = false
  · rwa [if_pos hd]
  · rw [if_neg hd] at hb ⊢
    refine hi.begin hb ?_
    cases e with
    | candidate c => exact hP
    | description type sdp =>
      cases type
      · intro sdp' hd
        rw [LocalEvent.description_payload, Option.some.injEq] at hd
        exact hd ▸ hP
      · exact hP

omit [DecidableEq τ] in
/-- What was heard was heard by anyone who heard more. -/
theorem HeardInv.mono {Q : PeerId → LocalEvent → Prop} (hPQ : ∀ src e, P src e → Q src e)
    (hi : HeardInv P s) : HeardInv Q s where
  base := hi.base
  calls t c hc := by
    have h := hi.calls t c hc
    cases c with
    | openOfferer | onOpen | onLink | setHandler => exact h
    | offer => exact fun sdp hd => hPQ _ _ (h sdp hd)
    | handleOffer | answer | candidate => exact hPQ _ _ h
    | onDataChannel | setRemoteDescription | takePending => exact ⟨h.1, hPQ _ _ h.2⟩
    | flushing => exact ⟨⟨h.1.1, hPQ _ _ h.1.2⟩, fun c hm => ⟨(h.2 c hm).1, hPQ _ _ (h.2 c hm).2⟩⟩
    | addRemoteCandidate | addDirect => exact ⟨h.1, hPQ _ _ h.2⟩
  inbound l hl hin := (hi.inbound l hl hin).imp fun _ => hPQ _ _
  pending l c hm := ⟨(hi.pending l c hm).1, hPQ _ _ (hi.pending l c hm).2⟩
  described l d hm := ⟨(hi.described l d hm).1, hPQ _ _ (hi.described l d hm).2⟩
  candidates l c hm := ⟨(hi.candidates l c hm).1, hPQ _ _ (hi.candidates l c hm).2⟩

theorem HeardInv.init (P : PeerId → LocalEvent → Prop) (parse : Parse) (remoteId : PeerId) (max : Nat) :
    HeardInv P (DcRtcTransport.lts τ parse remoteId max).init where
  base := .init parse remoteId max
  calls := by simp [DcRtcTransport.lts]
  inbound := by simp [DcRtcTransport.lts]
  pending := by simp [DcRtcTransport.lts]
  described := by simp [DcRtcTransport.lts]
  candidates := by simp [DcRtcTransport.lts]

end Step

end

end TX.Rtt
