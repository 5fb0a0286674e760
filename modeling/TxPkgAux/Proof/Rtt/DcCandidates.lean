import TxPkgAux.Impl.Rtt.DcRtcLink
import Mathlib.Data.List.Perm.Basic

/-!
# `DcRtcLink`: ICE candidates

`AddRemoteCandidate` buffers a candidate until `SetRemoteDescription` was called, which
hands the buffer over outside its critical section. `NegotiationStep.count` is the account of
the candidates: those handed over, in the buffer and with the calls in progress are among
those passed, and with those lost are all of them. A candidate is lost where the constructor
of `rtc::Candidate` raises for it, or where the exception of one before it in the loop over
the buffer leaves `SetRemoteDescription` with the rest (`candidates_handed`, `candidates_lost`).
-/

namespace TX.Rtt

/-- The candidates that the call has yet to hand over, or to buffer. -/
def NegotiationCall.carries : NegotiationCall → List Candidate
  | .setRemoteDescription _ | .takePending => []
  | .flushing pending => pending
  | .addRemoteCandidate c | .addDirect c => [c]

/-- The call is past `pc.setRemoteDescription`, or is the direct path of a candidate. -/
def NegotiationCall.described : NegotiationCall → Bool
  | .takePending | .flushing _ | .addDirect _ => true
  | .setRemoteDescription _ | .addRemoteCandidate _ => false

def NegotiationEvent.passedCandidate : NegotiationEvent → Option Candidate
  | .passed c => some c
  | _ => none

def NegotiationEvent.handedCandidate : NegotiationEvent → Option Candidate
  | .handed c => some c
  | _ => none

namespace Negotiation

/-- The candidates that `AddRemoteCandidate` was called with. -/
def passed (s : Negotiation) : List Candidate := s.log.filterMap NegotiationEvent.passedCandidate

/-- The candidates that `pc.addRemoteCandidate` was called with. -/
def handed (s : Negotiation) : List Candidate := s.log.filterMap NegotiationEvent.handedCandidate

/-- The candidates on their way. -/
def carried (s : Negotiation) : List Candidate := s.calls.flatMap NegotiationCall.carries

/-- The candidates that a call loses: one for which the constructor raises, and the rest of
the buffer where the loop over it is left. -/
def losesIn : NegotiationCall → CandidateOutcome → List Candidate
  | .flushing (c :: rest), .malformed => c :: rest
  | .flushing (_ :: rest), .rejected => rest
  | .addDirect c, .malformed => [c]
  | _, _ => []

/-- The candidates that the step loses. -/
def loses (s : Negotiation) : NegotiationAction → List Candidate
  | .next i outcome => s.calls[i]?.elim [] (losesIn · outcome)
  | _ => []

/-- All candidates there are. -/
def known (s : Negotiation) : List Candidate := s.handed ++ s.link.pendingCandidates ++ s.carried

/-- `pc.setRemoteDescription` has been made. -/
def Described (s : Negotiation) : Prop := ∃ d, .described d ∈ s.log

end Negotiation

/-- The candidates that the action passes to the link. -/
def NegotiationAction.passes : NegotiationAction → List Candidate
  | .addRemoteCandidate c => [c]
  | _ => []

/-- The flag and the buffer, with the calls that are past them. -/
structure NegotiationInv (s : Negotiation) : Prop where
  set : s.link.remoteDescSet = true → s.Described
  past : ∀ c ∈ s.calls, c.described = true → s.Described
  flushing : ∀ pending, .flushing pending ∈ s.calls → s.link.remoteDescSet = true
  completed : .completed ∈ s.log → s.link.remoteDescSet = true
  taken : s.link.remoteDescSet = true → s.link.pendingCandidates = []
  early : ∀ c log, .handed c :: log <:+ s.log → ∃ d, .described d ∈ log
  counted : ∀ c, s.known.count c ≤ s.passed.count c

section Step

variable {s s' : Negotiation} {a : NegotiationAction}

/-- A call in the list of the calls, and what the steps make of the list. -/
theorem calls_split {i : Nat} {c : NegotiationCall} (h : s.calls[i]? = some c) : ∃ pre post,
    s.calls = pre ++ c :: post ∧ (∀ c', s.calls.set i c' = pre ++ c' :: post) ∧
      s.calls.eraseIdx i = pre ++ post := by
  obtain ⟨hi, hc⟩ := List.getElem?_eq_some_iff.mp h
  refine ⟨s.calls.take i, s.calls.drop (i + 1), ?_, fun c' => ?_, ?_⟩
  · rw [← hc, List.getElem_cons_drop, List.take_append_drop]
  · exact List.set_eq_take_append_cons_drop ▸ if_pos hi
  · exact List.eraseIdx_eq_take_drop_succ s.calls i

/-- The steps of the link, with the calls before and after the one that takes it. -/
inductive NegotiationStep (s : Negotiation) : NegotiationAction → Negotiation → Prop where
  | setRemoteDescription (d : Description) :
    NegotiationStep s (.setRemoteDescription d) { s with calls := .setRemoteDescription d :: s.calls }
  | addRemoteCandidate (c : Candidate) :
    NegotiationStep s (.addRemoteCandidate c) { s with
      calls := .addRemoteCandidate c :: s.calls
      log := .passed c :: s.log }
  | described {i : Nat} {outcome : CandidateOutcome} {d : Description} {pre post : List NegotiationCall}
      (hc : s.calls = pre ++ .setRemoteDescription d :: post) (hl : s.loses (.next i outcome) = []) :
    NegotiationStep s (.next i outcome) { s with
      calls := pre ++ .takePending :: post
      log := .described d :: s.log }
  | takePending {i : Nat} {outcome : CandidateOutcome} {pre post : List NegotiationCall}
      (hc : s.calls = pre ++ .takePending :: post) (hl : s.loses (.next i outcome) = []) :
    NegotiationStep s (.next i outcome) { s with
      link := { s.link with remoteDescSet := true, pendingCandidates := [] }
      calls := pre ++ .flushing s.link.pendingCandidates :: post }
  | completed {i : Nat} {outcome : CandidateOutcome} {pre post : List NegotiationCall}
      (hc : s.calls = pre ++ .flushing [] :: post) (hl : s.loses (.next i outcome) = []) :
    NegotiationStep s (.next i outcome) { s with
      calls := pre ++ post
      log := .completed :: s.log }
  | flush {i : Nat} {c : Candidate} {rest : List Candidate} {pre post : List NegotiationCall}
      (hc : s.calls = pre ++ .flushing (c :: rest) :: post) (hl : s.loses (.next i .taken) = []) :
    NegotiationStep s (.next i .taken) { s with
      calls := pre ++ .flushing rest :: post
      log := .handed c :: s.log }
  | flushRaised {i : Nat} {c : Candidate} {rest : List Candidate} {pre post : List NegotiationCall}
      (hc : s.calls = pre ++ .flushing (c :: rest) :: post) (hl : s.loses (.next i .rejected) = rest) :
    NegotiationStep s (.next i .rejected) { s with
      calls := pre ++ post
      log := .handed c :: s.log }
  | flushMalformed {i : Nat} {c : Candidate} {rest : List Candidate} {pre post : List NegotiationCall}
      (hc : s.calls = pre ++ .flushing (c :: rest) :: post)
      (hl : s.loses (.next i .malformed) = c :: rest) :
    NegotiationStep s (.next i .malformed) { s with calls := pre ++ post }
  | addDescribed {i : Nat} {outcome : CandidateOutcome} {c : Candidate} {pre post : List NegotiationCall}
      (hc : s.calls = pre ++ .addRemoteCandidate c :: post) (hr : s.link.remoteDescSet = true)
      (hl : s.loses (.next i outcome) = []) :
    NegotiationStep s (.next i outcome) { s with calls := pre ++ .addDirect c :: post }
  | addBuffered {i : Nat} {outcome : CandidateOutcome} {c : Candidate} {pre post : List NegotiationCall}
      (hc : s.calls = pre ++ .addRemoteCandidate c :: post) (hr : s.link.remoteDescSet = false)
      (hl : s.loses (.next i outcome) = []) :
    NegotiationStep s (.next i outcome) { s with
      link := { s.link with pendingCandidates := s.link.pendingCandidates ++ [c] }
      calls := pre ++ post }
  | addDirect {i : Nat} {outcome : CandidateOutcome} {c : Candidate} {pre post : List NegotiationCall}
      (hc : s.calls = pre ++ .addDirect c :: post) (hl : s.loses (.next i outcome) = []) :
    NegotiationStep s (.next i outcome) { s with
      calls := pre ++ post
      log := .handed c :: s.log }
  | addMalformed {i : Nat} {c : Candidate} {pre post : List NegotiationCall}
      (hc : s.calls = pre ++ .addDirect c :: post) (hl : s.loses (.next i .malformed) = [c]) :
    NegotiationStep s (.next i .malformed) { s with calls := pre ++ post }

theorem callNext_cases {i : Nat} {outcome : CandidateOutcome} {c : NegotiationCall}
    (h : s.calls[i]? = some c) : NegotiationStep s (.next i outcome) (s.callNext i outcome c) := by
  obtain ⟨pre, post, hc, hset, herase⟩ := calls_split h
  have hloses : s.loses (.next i outcome) = Negotiation.losesIn c outcome := by simp [Negotiation.loses, h]
  cases c with
  | setRemoteDescription d =>
    simp only [Negotiation.callNext, Negotiation.emit, Negotiation.setCall, hset]
    exact .described hc hloses
  | takePending =>
    simp only [Negotiation.callNext, Negotiation.setCall, hset]
    exact .takePending hc hloses
  | flushing pending =>
    cases pending with
    | nil =>
      simp only [Negotiation.callNext, Negotiation.emit, Negotiation.finish, herase]
      exact .completed hc hloses
    | cons c rest =>
      cases outcome <;>
        simp only [Negotiation.callNext, Negotiation.emit, Negotiation.finish, Negotiation.setCall,
          herase, hset]
      · exact .flushMalformed hc hloses
      · exact .flushRaised hc hloses
      · exact .flush hc hloses
  | addRemoteCandidate c =>
    simp only [Negotiation.callNext, Negotiation.finish, Negotiation.setCall, herase, hset]
    split
    · exact .addDescribed hc ‹_› hloses
    · exact .addBuffered hc (by simpa using ‹¬ s.link.remoteDescSet = true›) hloses
  | addDirect c =>
    cases outcome <;> simp only [Negotiation.callNext, Negotiation.emit, Negotiation.finish, herase]
    · exact .addMalformed hc hloses
    · exact .addDirect hc hloses
    · exact .addDirect hc hloses

theorem NegotiationStep.of_step (he : s.step a = some s') : NegotiationStep s a s' := by
  cases a with
  | setRemoteDescription d =>
    cases he
    exact .setRemoteDescription d
  | addRemoteCandidate c =>
    cases he
    exact .addRemoteCandidate c
  | next i outcome =>
    obtain ⟨c, hc, rfl⟩ := Option.map_eq_some_iff.mp he
    exact callNext_cases hc

theorem known_count (s : Negotiation) (x : Candidate) :
    s.known.count x = s.handed.count x + s.link.pendingCandidates.count x + s.carried.count x := by
  rw [Negotiation.known, List.count_append, List.count_append]

theorem carried_count {pre post : List NegotiationCall} {call : NegotiationCall}
    (hc : s.calls = pre ++ call :: post) (x : Candidate) :
    s.carried.count x = (pre.flatMap NegotiationCall.carries ++
      post.flatMap NegotiationCall.carries).count x + call.carries.count x := by
  rw [Negotiation.carried, hc, List.flatMap_append, List.flatMap_cons, List.count_append, List.count_append,
    List.count_append]
  omega

theorem carried_append {pre post : List NegotiationCall} (hc : s.calls = pre ++ post) :
    s.carried = pre.flatMap NegotiationCall.carries ++ post.flatMap NegotiationCall.carries := by
  rw [Negotiation.carried, hc, List.flatMap_append]

/-- The account of one step: what is passed comes in, what is lost goes out. -/
theorem NegotiationStep.count (h : NegotiationStep s a s') (x : Candidate) :
    s'.known.count x + (s.loses a).count x = a.passes.count x + s.known.count x ∧
      s'.passed = a.passes ++ s.passed := by
  rw [known_count, known_count]
  cases h with
  | setRemoteDescription d => exact ⟨(Nat.zero_add _).symm, rfl⟩
  | addRemoteCandidate c =>
    refine ⟨?_, rfl⟩
    simp only [Negotiation.carried, Negotiation.handed, NegotiationEvent.handedCandidate,
      NegotiationCall.carries, NegotiationAction.passes, Negotiation.loses, List.filterMap_cons,
      List.flatMap_cons, List.count_append, List.count_nil]
    omega
  | described hc hl | addDescribed hc hr hl =>
    rw [hl, carried_count hc, carried_count rfl]
    exact ⟨(Nat.zero_add _).symm, rfl⟩
  | takePending hc hl =>
    refine ⟨?_, rfl⟩
    rw [hl, carried_count hc, carried_count rfl]
    simp only [Negotiation.handed, NegotiationCall.carries, NegotiationAction.passes, List.count_nil]
    omega
  | flush hc hl =>
    refine ⟨?_, rfl⟩
    rw [hl, carried_count hc, carried_count rfl]
    simp only [Negotiation.handed, NegotiationEvent.handedCandidate, NegotiationCall.carries,
      NegotiationAction.passes, List.filterMap_cons, List.count_cons, List.count_nil]
    omega
  | completed hc hl =>
    rw [hl, carried_count hc, carried_append rfl]
    exact ⟨(Nat.zero_add _).symm, rfl⟩
  | flushRaised hc hl | addDirect hc hl =>
    refine ⟨?_, rfl⟩
    rw [hl, carried_count hc, carried_append rfl]
    simp only [Negotiation.handed, NegotiationEvent.handedCandidate, NegotiationCall.carries,
      NegotiationAction.passes, List.filterMap_cons, List.count_cons, List.count_nil]
    omega
  | flushMalformed hc hl | addMalformed hc hl =>
    refine ⟨?_, rfl⟩
    rw [hl, carried_count hc, carried_append rfl]
    simp only [Negotiation.handed, NegotiationCall.carries, NegotiationAction.passes, List.count_nil]
    omega
  | addBuffered hc hr hl =>
    refine ⟨?_, rfl⟩
    rw [hl, carried_count hc, carried_append rfl]
    simp only [Negotiation.handed, NegotiationCall.carries, NegotiationAction.passes, List.count_append,
      List.count_nil]
    omega

theorem NegotiationStep.described_of (h : NegotiationStep s a s') (hi : NegotiationInv s) :
    (s'.link.remoteDescSet = true → s'.Described) ∧
      ∀ c ∈ s'.calls, c.described = true → s'.Described := by
  have hs := hi.set
  have hc := hi.past
  have htop : ∀ pre (call : NegotiationCall) post, s.calls = pre ++ call :: post → call.described = true →
      s.Described :=
    fun pre call post hs => hi.past call (by simp [hs])
  unfold Negotiation.Described at *
  cases h <;> grind -linarith -order [NegotiationCall.described]

theorem NegotiationStep.remoteDescSet (h : NegotiationStep s a s') (hi : NegotiationInv s) :
    (∀ pending, .flushing pending ∈ s'.calls → s'.link.remoteDescSet = true) ∧
      (.completed ∈ s'.log → s'.link.remoteDescSet = true) ∧
      (s'.link.remoteDescSet = true → s'.link.pendingCandidates = []) := by
  have hf := hi.flushing
  have hc := hi.completed
  have ht := hi.taken
  have htop : ∀ pre pending post, s.calls = pre ++ NegotiationCall.flushing pending :: post →
      s.link.remoteDescSet = true := fun pre pending post hs => hf pending (by simp [hs])
  cases h <;> grind -linarith -order

/-- A candidate is handed over by a call that is past `pc.setRemoteDescription`, or that
saw the flag of one that was. -/
theorem NegotiationStep.early (h : NegotiationStep s a s') (hi : NegotiationInv s) (c : Candidate)
    (log : List NegotiationEvent) (hs : .handed c :: log <:+ s'.log) : ∃ d, .described d ∈ log := by
  have hold := hi.early c log
  have hd : ∀ pre (call : NegotiationCall) post, s.calls = pre ++ call :: post → call.described = true →
      s.Described :=
    fun pre call post hc => hi.past call (by simp [hc])
  cases h with
  | setRemoteDescription d | takePending hc hl | addDescribed hc hr hl | addBuffered hc hr hl
  | flushMalformed hc hl | addMalformed hc hl =>
    exact hold hs
  | addRemoteCandidate c' | described hc hl | completed hc hl =>
    rcases List.suffix_cons_iff.mp hs with he | hs
    · cases he
    · exact hold hs
  | flush hc hl | flushRaised hc hl | addDirect hc hl =>
    rcases List.suffix_cons_iff.mp hs with he | hs
    · cases he
      exact hd _ _ _ hc rfl
    · exact hold hs

theorem NegotiationStep.negotiationInv (h : NegotiationStep s a s') (hi : NegotiationInv s) :
    NegotiationInv s' := by
  obtain ⟨hs, hp⟩ := h.described_of hi
  obtain ⟨hf, hc, ht⟩ := h.remoteDescSet hi
  refine ⟨hs, hp, hf, hc, ht, h.early hi, fun x => ?_⟩
  obtain ⟨hk, hp⟩ := h.count x
  have hle := hi.counted x
  rw [hp, List.count_append]
  omega

end Step

theorem NegotiationInv.reach {remoteId : PeerId} {inbound : Bool} {s : Negotiation}
    (h : (Negotiation.lts remoteId inbound).Reach Lts.Any s) : NegotiationInv s := by
  refine h.invariant ⟨?_, ?_, ?_, ?_, ?_, ?_, ?_⟩
    fun hI _ he => (NegotiationStep.of_step he).negotiationInv hI <;>
    simp [Negotiation.lts, Negotiation.known, Negotiation.handed, Negotiation.carried]

/-- The link, with a record of the candidates that its steps lose. -/
def Negotiation.observed (remoteId : PeerId) (inbound : Bool) :
    Lts (Negotiation × List Candidate) NegotiationAction :=
  (Negotiation.lts remoteId inbound).observe Negotiation.loses

/-- The candidates that were passed are those there are and those that were lost. -/
theorem known_perm_passed {remoteId : PeerId} {inbound : Bool} {s : Negotiation} {lost : List Candidate}
    (h : (Negotiation.observed remoteId inbound).Reach Lts.Any (s, lost)) :
    (Negotiation.lts remoteId inbound).Reach Lts.Any s ∧ (s.known ++ lost).Perm s.passed := by
  refine h.invariant (I := fun p : Negotiation × List Candidate =>
    (Negotiation.lts remoteId inbound).Reach Lts.Any p.1 ∧ (p.1.known ++ p.2).Perm p.1.passed)
    ⟨.refl _, .refl _⟩ fun {p p' a} hI _ he => ?_
  obtain ⟨he, hlost⟩ := Lts.observe_step.mp he
  refine ⟨.tail hI.1 trivial he, List.perm_iff_count.mpr fun x => ?_⟩
  obtain ⟨hk, hp⟩ := (NegotiationStep.of_step he).count x
  have hold := hI.2.count_eq x
  rw [List.count_append] at hold
  rw [hp, hlost, List.count_append, List.count_append, List.count_append]
  omega

/-- Whatever the interleaving, no candidate is handed over before a remote description
was set, nor more often than it was passed, and the buffer is empty when no call is in
progress and `SetRemoteDescription` has returned. Each candidate was then handed over as
often as it was passed if no step of the run lost one, and otherwise not. -/
theorem candidates_handed {remoteId : PeerId} {inbound : Bool} {s : Negotiation} {lost : List Candidate}
    (h : (Negotiation.observed remoteId inbound).Reach Lts.Any (s, lost)) :
    (∀ c log, .handed c :: log <:+ s.log → ∃ d, .described d ∈ log) ∧
      (∀ c, s.handed.count c ≤ s.passed.count c) ∧
      (s.calls = [] → .completed ∈ s.log → s.link.pendingCandidates = [] ∧
        (s.handed.Perm s.passed ↔ lost = [])) := by
  obtain ⟨hs, hperm⟩ := known_perm_passed h
  have hi := NegotiationInv.reach hs
  refine ⟨hi.early, fun c => ?_, fun hn hc => ?_⟩
  · have := hi.counted c
    simp only [Negotiation.known, List.count_append] at this
    omega
  · have hp : s.link.pendingCandidates = [] := hi.taken (hi.completed hc)
    have hall : (s.handed ++ lost).Perm s.passed := by
      simpa [Negotiation.known, Negotiation.carried, hn, hp] using hperm
    refine ⟨hp, fun hh => ?_, fun hl => ?_⟩
    · have hlen := hall.length_eq.trans hh.length_eq.symm
      rw [List.length_append] at hlen
      exact List.eq_nil_of_length_eq_zero (by omega)
    · simpa [hl] using hall

/-- A candidate that comes before the description, and one that comes after it. -/
theorem candidates_handed_flushed : ∃ s, (Negotiation.observed ⟨"b"⟩ false).Reach Lts.Any (s, []) ∧
    s.passed = [⟨"m", "0"⟩, ⟨"c", "0"⟩] ∧ s.link.pendingCandidates = [] ∧ s.handed.Perm s.passed := by
  obtain ⟨⟨s, lost⟩, hs, hq⟩ := Lts.Reach.of_run (Negotiation.observed ⟨"b"⟩ false) Lts.Any
    [.addRemoteCandidate ⟨"c", "0"⟩, .next 0 .taken, .setRemoteDescription ⟨"v=0", .answer, ⟨"b"⟩⟩,
      .next 0 .taken, .next 0 .taken, .next 0 .taken, .next 0 .taken, .addRemoteCandidate ⟨"m", "0"⟩,
      .next 0 .taken, .next 0 .taken]
    (fun p => p.2 = [] ∧ p.1.calls = [] ∧ .completed ∈ p.1.log ∧ p.1.passed = [⟨"m", "0"⟩, ⟨"c", "0"⟩])
    (by decide +kernel)
  obtain ⟨hl, hn, hc, hp⟩ := of_decide_eq_true hq
  obtain rfl : lost = [] := hl
  obtain ⟨hb, hperm⟩ := (candidates_handed hs).2.2 hn hc
  exact ⟨s, hs, hp, hb, hperm.mpr rfl⟩

/-- Two candidates are buffered, and the constructor raises for the first: neither is handed
over by anyone, although a later `SetRemoteDescription` returns. -/
theorem candidates_lost : ∃ s, (Negotiation.lts ⟨"b"⟩ false).Reach Lts.Any s ∧ s.calls = [] ∧
    .completed ∈ s.log ∧ s.passed = [⟨"c", "0"⟩, ⟨"x", "0"⟩] ∧ s.handed = [] ∧
    ¬ s.handed.Perm s.passed := by
  obtain ⟨s, hs, hq⟩ := Lts.Reach.of_run (Negotiation.lts ⟨"b"⟩ false) Lts.Any
    [.addRemoteCandidate ⟨"x", "0"⟩, .next 0 .taken, .addRemoteCandidate ⟨"c", "0"⟩, .next 0 .taken,
      .setRemoteDescription ⟨"v=0", .answer, ⟨"b"⟩⟩, .next 0 .taken, .next 0 .taken, .next 0 .malformed,
      .setRemoteDescription ⟨"v=0", .answer, ⟨"b"⟩⟩, .next 0 .taken, .next 0 .taken, .next 0 .taken]
    (fun s => s.calls = [] ∧ .completed ∈ s.log ∧ s.passed = [⟨"c", "0"⟩, ⟨"x", "0"⟩] ∧
      s.handed = []) (by decide +kernel)
  obtain ⟨hn, hc, hp, hh⟩ := of_decide_eq_true hq
  refine ⟨s, hs, hn, hc, hp, hh, fun h => ?_⟩
  have := h.length_eq
  simp [hp, hh] at this

end TX.Rtt
