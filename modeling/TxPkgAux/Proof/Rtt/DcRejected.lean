import TxPkgAux.Proof.Rtt.DcMalformed

/-!
# Offers that libdatachannel rejects

`HandleOffer` stores the new link and counts it before it applies the description, and an
exception of libdatachannel undoes neither. So an offer with a description that is rejected
leaves `peers` and `inboundCount` alone only where `OnMessage` drops it before
`HandleOffer`, at the limit of inbound connections (`rejected_offers_iff`).
-/

namespace TX.Rtt

namespace DcRtcTransport

variable {τ : Type} [DecidableEq τ] {parse : Parse} {A : Acceptance} {t : τ} {s s' : DcRtcTransport τ}
  {m : SigMessage}

/-- An offer whose description libdatachannel rejects in the state `s`: the construction of the
`rtc::Description` raises an exception, or `setRemoteDescription` of the new link does. -/
def RejectedOffer (parse : Parse) (A : Acceptance) (s : DcRtcTransport τ) (m : SigMessage) : Prop :=
  ∃ j sdp, parse m.payload = some j ∧ j.value "type" = some "offer" ∧
    j.value "description" = some sdp ∧ A.description s.created ⟨sdp, .offer, m.src⟩ = false

/-- Rejected offers are handled, one after the other. -/
inductive HandlesRejected (parse : Parse) (A : Acceptance) (t : τ) :
    List SigMessage → DcRtcTransport τ → DcRtcTransport τ → Prop where
  | nil (s : DcRtcTransport τ) : HandlesRejected parse A t [] s s
  | cons {m : SigMessage} {ms : List SigMessage} {s s₁ s' : DcRtcTransport τ}
      (hm : RejectedOffer parse A s m) (hr : Returns A t (s.onMessage parse t m) s₁)
      (h : HandlesRejected parse A t ms s₁ s') : HandlesRejected parse A t (m :: ms) s s'

theorem Returns.calls (h : Returns A t s s') : s'.calls t = none := by
  induction h with
  | done h => exact h
  | next _ _ ih => exact ih

/-- A rejected description ends the call, and what was stored stays. -/
theorem rejected_returns {l : ℕ} {d : Description} (hc : s.calls t = some (.onDataChannel l d))
    (hrej : A.description l d = false) :
    ∃ s', Returns A t s s' ∧ s'.peers = s.peers ∧ s'.inboundCount = s.inboundCount := by
  set s₁ := (s.setLink l { s.links l with wired := true }).setCall t (some (.setRemoteDescription l d)) with hs₁
  have h₁ : s.next t (s.accepted A t) = some s₁ := by simp only [next, hc, hs₁]
  have hc₁ : s₁.calls t = some (.setRemoteDescription l d) := Function.update_self ..
  have h₂ : s₁.next t (s₁.accepted A t) = some ((s₁.emit .threw).finishLink t l) := by
    simp [next, hc₁, linkNext, accepted, hrej]
  refine ⟨(s₁.emit .threw).finishLink t l, .next h₁ (.next h₂ (.done ?_)), ?_, ?_⟩ <;>
    simp [finishLink, finish, setCall, setLink, emit, hs₁]

/-- A rejected offer has its link stored and counted, unless the limit is reached. -/
theorem rejectedOffer_returns (hc : s.calls t = none) (hm : RejectedOffer parse A s m) :
    ∃ s', Returns A t (s.onMessage parse t m) s' ∧
      (s.full ∧ s' = s ∨
        ¬ s.full ∧ s'.peers = Function.update s.peers m.src (some s.created) ∧
          s'.inboundCount = s.inboundCount + 1) := by
  obtain ⟨j, sdp, hp, ht, hd, hrej⟩ := hm
  have hon : s.onMessage parse t m = s.begin t (.offer m.src j) := by simp [onMessage, hp, ht]
  rw [hon]
  by_cases hf : s.full
  · exact ⟨s, offer_full hc m.src j hf, .inl ⟨hf, rfl⟩⟩
  · set s₀ := s.begin t (.offer m.src j) with hs₀
    set s₁ := s₀.setCall t (some (.handleOffer m.src sdp)) with hs₁
    set s₂ := { s₁.store m.src true with inboundCount := s₁.inboundCount + 1 }.setCall t
      (some (.onDataChannel s₁.created ⟨sdp, .offer, m.src⟩)) with hs₂
    have hf' : ¬ (s₀.maxInboundConnections = 0 ∨ s₀.inboundCount ≥ s₀.maxInboundConnections) := hf
    have h₀ : s₀.next t (s₀.accepted A t) = some s₁ := by
      simp only [next, hs₀, begin_calls] at hf' ⊢
      simp only [hf', if_false, hd, hs₁, hs₀]
    have hc₁ : s₁.calls t = some (.handleOffer m.src sdp) := Function.update_self ..
    have h₁ : s₁.next t (s₁.accepted A t) = some s₂ := by simp only [next, hc₁, hs₂]
    have hc₂ : s₂.calls t = some (.onDataChannel s₁.created ⟨sdp, .offer, m.src⟩) := Function.update_self ..
    obtain ⟨s', hr, hpeers, hcount⟩ := rejected_returns (A := A) hc₂ hrej
    exact ⟨s', .next h₀ (.next h₁ hr), .inr ⟨hf, hpeers, hcount⟩⟩

theorem HandlesRejected.count_le {ms : List SigMessage} (h : HandlesRejected parse A t ms s s')
    (hc : s.calls t = none) : s.inboundCount ≤ s'.inboundCount := by
  induction h with
  | nil => exact Nat.le_refl _
  | cons hm hr _ ih =>
    obtain ⟨s₁, hr₁, hs₁⟩ := rejectedOffer_returns hc hm
    obtain rfl := hr.unique hr₁
    have hle := ih hr.calls
    obtain ⟨-, rfl⟩ | ⟨-, -, hcount⟩ := hs₁
    · exact hle
    · omega

/-- Once the limit is reached, rejected offers change nothing. -/
theorem HandlesRejected.of_full {ms : List SigMessage} (h : HandlesRejected parse A t ms s s')
    (hc : s.calls t = none) (hf : s.full) : s' = s := by
  induction h with
  | nil => rfl
  | cons hm hr _ ih =>
    obtain ⟨s₁, hr₁, hs₁⟩ := rejectedOffer_returns hc hm
    obtain rfl := hr.unique hr₁
    obtain ⟨-, rfl⟩ | ⟨hnf, -⟩ := hs₁
    · exact ih hc hf
    · exact absurd hf hnf

/-- `OnMessage` returns from a rejected offer, and `peers` and `inboundCount` are as they were
if and only if the limit of inbound connections is reached. So it is for any number of
rejected offers. -/
theorem rejected_offers_iff (hc : s.calls t = none) :
    (∀ m, RejectedOffer parse A s m → ∃ s', Returns A t (s.onMessage parse t m) s' ∧
      (s'.peers = s.peers ∧ s'.inboundCount = s.inboundCount ↔ s.full)) ∧
    ∀ ms s', HandlesRejected parse A t ms s s' →
      (s'.peers = s.peers ∧ s'.inboundCount = s.inboundCount ↔ s.full ∨ ms = []) := by
  constructor
  · intro m hm
    obtain ⟨s', hr, hs'⟩ := rejectedOffer_returns hc hm
    refine ⟨s', hr, ?_⟩
    obtain ⟨hf, rfl⟩ | ⟨hf, -, hcount⟩ := hs'
    · exact iff_of_true ⟨rfl, rfl⟩ hf
    · exact iff_of_false (fun h => by omega) hf
  · intro ms s' h
    by_cases hf : s.full
    · obtain rfl := h.of_full hc hf
      exact iff_of_true ⟨rfl, rfl⟩ (.inl hf)
    · cases h with
      | nil => exact iff_of_true ⟨rfl, rfl⟩ (.inr rfl)
      | cons hm hr hrest =>
        obtain ⟨s₁, hr₁, hs₁⟩ := rejectedOffer_returns hc hm
        obtain rfl := hr.unique hr₁
        have hcount := (hs₁.resolve_left fun h => hf h.1).2.2
        have hle := hrest.count_le hr.calls
        exact iff_of_false (fun h => by omega) (by simp [hf])

/-- A parser for one payload, and an acceptor that takes nothing. -/
def rejectingParse : Parse := fun _ =>
  some (.object [("type", .string "offer"), ("description", .string "v=0")])

def rejectingAcceptance : Acceptance := ⟨fun _ _ => false, fun _ _ => false⟩

/-- An answerer that has joined. -/
def joinedAnswerer (maxInboundConnections : ℕ) : DcRtcTransport Unit :=
  { remoteId := ⟨""⟩, maxInboundConnections, joined := true, handling := true }

theorem joinedAnswerer_reach (n : ℕ) : (lts Unit rejectingParse ⟨""⟩ n).Reach Lts.Any (joinedAnswerer n) :=
  .tail (a := .joined () none) (.refl _) trivial rfl

theorem joinedAnswerer_rejects (n : ℕ) :
    RejectedOffer rejectingParse rejectingAcceptance (joinedAnswerer n) ⟨⟨"a"⟩, ""⟩ :=
  ⟨_, _, rfl, rfl, rfl, rfl⟩

/-- With no inbound connections allowed, a rejected offer changes nothing. -/
theorem rejected_offers_at_limit :
    (lts Unit rejectingParse ⟨""⟩ 0).Reach Lts.Any (joinedAnswerer 0) ∧
      ∃ s', Returns rejectingAcceptance () ((joinedAnswerer 0).onMessage rejectingParse () ⟨⟨"a"⟩, ""⟩) s' ∧
        s'.peers = (joinedAnswerer 0).peers ∧ s'.inboundCount = (joinedAnswerer 0).inboundCount := by
  obtain ⟨s', hr, hs'⟩ := (rejected_offers_iff (t := ()) rfl).1 _ (joinedAnswerer_rejects 0)
  exact ⟨joinedAnswerer_reach 0, s', hr, hs'.mpr (.inl rfl)⟩

/-- An offer with the description `v=0` is rejected, and counts as an inbound connection. -/
theorem rejected_offer_counted :
    (lts Unit rejectingParse ⟨""⟩ 4096).Reach Lts.Any (joinedAnswerer 4096) ∧
      (joinedAnswerer 4096).inboundCount = 0 ∧ (joinedAnswerer 4096).peers ⟨"a"⟩ = none ∧
      RejectedOffer rejectingParse rejectingAcceptance (joinedAnswerer 4096) ⟨⟨"a"⟩, ""⟩ ∧
      ∀ s', Returns rejectingAcceptance () ((joinedAnswerer 4096).onMessage rejectingParse () ⟨⟨"a"⟩, ""⟩) s' →
        s'.inboundCount = 1 ∧ s'.peers ⟨"a"⟩ = some 0 := by
  refine ⟨joinedAnswerer_reach 4096, rfl, rfl, joinedAnswerer_rejects 4096, ?_⟩
  intro s' hr
  obtain ⟨s₁, hr₁, hs₁⟩ := rejectedOffer_returns (t := ()) rfl (joinedAnswerer_rejects 4096)
  obtain rfl := hr.unique hr₁
  obtain ⟨hf, -⟩ | ⟨-, hpeers, hcount⟩ := hs₁
  · exact absurd hf (by simp [full, joinedAnswerer])
  · exact ⟨hcount, by rw [hpeers]; exact Function.update_self ..⟩

end DcRtcTransport

end TX.Rtt
