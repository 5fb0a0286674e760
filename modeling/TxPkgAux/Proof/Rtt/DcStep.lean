import TxPkgAux.Impl.Rtt.DcRtcTransport

/-!
# `DcRtcTransport`: what one step can do

`DcStep` lists the steps of the transport with what they read and the state they lead
to; `DcStep.of_step` says that there are no others.
-/

namespace TX.Rtt

open Function (update)

variable {τ : Type} [DecidableEq τ]

/-- The steps of the transport. -/
inductive DcStep (parse : Parse) (s : DcRtcTransport τ) : DcAction τ → DcRtcTransport τ → Prop where
  | joinFailed (t : τ) (e : Error) (hj : s.joined = false) :
    DcStep parse s (.joined t (some e)) { s with joined := true, log := .refused e :: s.log }
  | joinAnswerer (t : τ) (ho : s.isOfferer = false) :
    DcStep parse s (.joined t none) { s with joined := true, handling := true }
  | joinOfferer (t : τ) (hj : s.joined = false) (hc : s.calls t = none) (ho : s.isOfferer = true) :
    DcStep parse s (.joined t none) { s with
      joined := true
      calls := update s.calls t (some .openOfferer)
      inUse := s.inUse + 1 }
  | ignored (t : τ) (m : SigMessage) : DcStep parse s (.onMessage t m) s
  | messageThrew (t : τ) (m : SigMessage) :
    DcStep parse s (.onMessage t m) { s with log := .threw :: s.log }
  | offer (t : τ) (m : SigMessage) (j : Json) (hc : s.calls t = none) (hp : parse m.payload = some j)
      (ht : j.value "type" = some "offer") :
    DcStep parse s (.onMessage t m) { s with
      calls := update s.calls t (some (.offer m.src j))
      inUse := s.inUse + 1 }
  | answer (t : τ) (m : SigMessage) (j : Json) (sdp : String) (hc : s.calls t = none)
      (hp : parse m.payload = some j) (ht : j.value "type" = some "answer")
      (ho : s.isOfferer = true) (hd : j.value "description" = some sdp) :
    DcStep parse s (.onMessage t m) { s with
      calls := update s.calls t (some (.answer m.src sdp))
      inUse := s.inUse + 1 }
  | candidate (t : τ) (m : SigMessage) (j : Json) (c : Candidate) (hc : s.calls t = none)
      (hp : parse m.payload = some j) (ht : j.value "type" = some "candidate") :
    DcStep parse s (.onMessage t m) { s with
      calls := update s.calls t (some (.candidate m.src c))
      inUse := s.inUse + 1 }
  | left (hh : s.handling = true) : DcStep parse s (.onLeft true) { s with log := .refused .transportClosed :: s.log }
  | leftClean : DcStep parse s (.onLeft false) s
  | offerRejected (t : τ) {accepted : Bool} {src : PeerId} {j : Json}
      (hc : s.calls t = some (.offer src j))
      (hm : s.maxInboundConnections = 0 ∨ s.maxInboundConnections ≤ s.inboundCount) :
    DcStep parse s (.next t accepted) { s with
      calls := update s.calls t none
      inUse := s.inUse - 1 }
  | offerThrew (t : τ) {accepted : Bool} {src : PeerId} {j : Json}
      (hc : s.calls t = some (.offer src j)) (hd : j.value "description" = none) :
    DcStep parse s (.next t accepted) { s with
      calls := update s.calls t none
      inUse := s.inUse - 1
      log := .threw :: s.log }
  | offerPassed (t : τ) {accepted : Bool} {src : PeerId} {j : Json} (sdp : String)
      (hc : s.calls t = some (.offer src j)) (hm : s.inboundCount < s.maxInboundConnections)
      (hd : j.value "description" = some sdp) :
    DcStep parse s (.next t accepted) { s with
      calls := update s.calls t (some (.handleOffer src sdp)) }
  | handleOffer (t : τ) {accepted : Bool} {src : PeerId} {sdp : String}
      (hc : s.calls t = some (.handleOffer src sdp)) :
    DcStep parse s (.next t accepted) { s with
      links := update s.links s.created { remoteId := src, inbound := true, refs := 1 }
      created := s.created + 1
      peers := update s.peers src (some s.created)
      inboundCount := s.inboundCount + 1
      calls := update s.calls t (some (.onDataChannel s.created ⟨sdp, .offer, src⟩)) }
  | onDataChannel (t : τ) {accepted : Bool} {l : Nat} {d : Description}
      (hc : s.calls t = some (.onDataChannel l d)) :
    DcStep parse s (.next t accepted) { s with
      links := update s.links l { s.links l with wired := true }
      calls := update s.calls t (some (.setRemoteDescription l d)) }
  | openOfferer (t : τ) {accepted : Bool} (hc : s.calls t = some .openOfferer) :
    DcStep parse s (.next t accepted) { s with
      links := update s.links s.created { remoteId := s.remoteId, inbound := false, refs := 1 }
      created := s.created + 1
      peers := update s.peers s.remoteId (some s.created)
      calls := update s.calls t (some (.onOpen s.created)) }
  | onOpen (t : τ) {accepted : Bool} {l : Nat} (hc : s.calls t = some (.onOpen l)) :
    DcStep parse s (.next t accepted) { s with
      links := update s.links l { s.links l with wired := true, refs := (s.links l).refs - 1 }
      calls := update s.calls t none
      inUse := s.inUse - 1
      handling := true }
  | answerLost (t : τ) {accepted : Bool} {src : PeerId} {sdp : String}
      (hc : s.calls t = some (.answer src sdp)) (hp : s.peers s.remoteId = none) :
    DcStep parse s (.next t accepted) { s with
      calls := update s.calls t none
      inUse := s.inUse - 1 }
  | answerFound (t : τ) {accepted : Bool} {src : PeerId} {sdp : String} (l : Nat)
      (hc : s.calls t = some (.answer src sdp)) (hp : s.peers s.remoteId = some l) :
    DcStep parse s (.next t accepted) { s with
      links := update s.links l { s.links l with refs := (s.links l).refs + 1 }
      calls := update s.calls t (some (.setRemoteDescription l ⟨sdp, .answer, src⟩)) }
  | candidateLost (t : τ) {accepted : Bool} {src : PeerId} {c : Candidate}
      (hc : s.calls t = some (.candidate src c)) (hp : s.peers src = none) :
    DcStep parse s (.next t accepted) { s with
      calls := update s.calls t none
      inUse := s.inUse - 1 }
  | candidateFound (t : τ) {accepted : Bool} {src : PeerId} {c : Candidate} (l : Nat)
      (hc : s.calls t = some (.candidate src c)) (hp : s.peers src = some l) :
    DcStep parse s (.next t accepted) { s with
      links := update s.links l { s.links l with refs := (s.links l).refs + 1 }
      calls := update s.calls t (some (.addRemoteCandidate l c)) }
  | described (t : τ) {l : Nat} {d : Description} (hc : s.calls t = some (.setRemoteDescription l d)) :
    DcStep parse s (.next t true) { s with
      calls := update s.calls t (some (.takePending l d))
      log := .described l d :: s.log }
  | descriptionRejected (t : τ) {l : Nat} {d : Description}
      (hc : s.calls t = some (.setRemoteDescription l d)) :
    DcStep parse s (.next t false) { s with
      links := update s.links l { s.links l with refs := (s.links l).refs - 1 }
      calls := update s.calls t none
      inUse := s.inUse - 1
      log := .threw :: s.log }
  | takePending (t : τ) {accepted : Bool} {l : Nat} {d : Description}
      (hc : s.calls t = some (.takePending l d)) :
    DcStep parse s (.next t accepted) { s with
      links := update s.links l { s.links l with remoteDescSet := true, pendingCandidates := [] }
      calls := update s.calls t (some (.flushing l d (s.links l).pendingCandidates)) }
  | flushed (t : τ) {accepted : Bool} {l : Nat} {d : Description}
      (hc : s.calls t = some (.flushing l d [])) :
    DcStep parse s (.next t accepted) { s with
      links := update s.links l { s.links l with refs := (s.links l).refs - 1 }
      calls := update s.calls t none
      inUse := s.inUse - 1 }
  | flush (t : τ) {l : Nat} {d : Description} {c : Candidate} {rest : List Candidate}
      (hc : s.calls t = some (.flushing l d (c :: rest))) :
    DcStep parse s (.next t true) { s with
      calls := update s.calls t (some (.flushing l d rest))
      log := .candidate l c :: s.log }
  | flushRejected (t : τ) {l : Nat} {d : Description} {c : Candidate} {rest : List Candidate}
      (hc : s.calls t = some (.flushing l d (c :: rest))) :
    DcStep parse s (.next t false) { s with
      links := update s.links l { s.links l with refs := (s.links l).refs - 1 }
      calls := update s.calls t none
      inUse := s.inUse - 1
      log := .threw :: s.log }
  | addDescribed (t : τ) {accepted : Bool} {l : Nat} {c : Candidate}
      (hc : s.calls t = some (.addRemoteCandidate l c)) (hr : (s.links l).remoteDescSet = true) :
    DcStep parse s (.next t accepted) { s with calls := update s.calls t (some (.addDirect l c)) }
  | addBuffered (t : τ) {accepted : Bool} {l : Nat} {c : Candidate}
      (hc : s.calls t = some (.addRemoteCandidate l c)) (hr : (s.links l).remoteDescSet = false) :
    DcStep parse s (.next t accepted) { s with
      links := update s.links l { s.links l with
        pendingCandidates := (s.links l).pendingCandidates ++ [c], refs := (s.links l).refs - 1 }
      calls := update s.calls t none
      inUse := s.inUse - 1 }
  | addDirect (t : τ) {accepted : Bool} {l : Nat} {c : Candidate}
      (hc : s.calls t = some (.addDirect l c)) :
    DcStep parse s (.next t accepted) { s with
      links := update s.links l { s.links l with refs := (s.links l).refs - 1 }
      calls := update s.calls t none
      inUse := s.inUse - 1
      log := (if accepted then .candidate l c else .threw) :: s.log }
  | channel (t : τ) (l : Nat) (hl : l < s.created) (hc : s.calls t = none)
      (hr : (s.links l).inbound = true ∨ (s.links l).opened = false) (ho : s.owned l = true)
      (ha : s.acceptorAlive = true) (hs : (s.links l).inbound = true ∨ s.alive = true) :
    DcStep parse s (.channel t l) { s with
      links := update s.links l { s.links l with
        attached := true, opened := true, refs := (s.links l).refs + 1 }
      calls := update s.calls t (some (.onLink l))
      inUse := if (s.links l).inbound then s.inUse else s.inUse + 1 }
  | channelLost (t : τ) (l : Nat) (hl : l < s.created) :
    DcStep parse s (.channel t l) { s with
      links := update s.links l { s.links l with opened := true } }
  | onLink (t : τ) {l : Nat} (keep : Bool) (h : LinkHandler) (hc : s.calls t = some (.onLink l)) :
    DcStep parse s (.onLink t keep h) { s with
      links := update s.links l { s.links l with
        held := if keep then (s.links l).held + 1 else (s.links l).held }
      calls := update s.calls t (some (.setHandler l h))
      log := .linked l :: s.log }
  | setHandler (t : τ) {accepted : Bool} {l : Nat} {h : LinkHandler}
      (hc : s.calls t = some (.setHandler l h)) :
    DcStep parse s (.next t accepted) { s with
      links := update s.links l { s.links l with handler := h, refs := (s.links l).refs - 1 }
      calls := update s.calls t none
      inUse := if (s.links l).inbound then s.inUse else s.inUse - 1 }
  | reported (l : Nat) (st : PcState) (hl : l < s.created) (hc : (s.links l).change = none)
      (hr : (s.links l).attached = false ∨ st.terminal = false) :
    DcStep parse s (.stateChange l st) { s with
      links := update s.links l { s.links l with
        reported := (s.links l).reported || st.terminal } }
  | changed (l : Nat) (st : PcState) (hl : l < s.created) (hc : (s.links l).change = none)
      (hr : (s.links l).attached = true) (ht : st.terminal = true) :
    DcStep parse s (.stateChange l st) { s with
      links := update s.links l { s.links l with
        change := some (.ending st)
        reported := true
        due := (s.links l).due || (s.links l).handler.onDisconnected } }
  | gone (l : Nat) {st : PcState} (hc : (s.links l).change = some (.ending st)) (ha : s.alive = true) :
    DcStep parse s (.changeNext l) { s with
      links := update s.links l { s.links l with
        ended := true
        change := some (if st = .failed ∧ (s.links l).inbound = false then .refusing else .notifying) }
      peers := update s.peers (s.links l).remoteId none
      inboundCount :=
        if (s.links l).inbound = true ∧ s.inboundCount > 0 then s.inboundCount - 1
        else s.inboundCount }
  | goneDead (l : Nat) {st : PcState} (hc : (s.links l).change = some (.ending st))
      (ha : s.alive = false) :
    DcStep parse s (.changeNext l) { s with
      links := update s.links l { s.links l with
        change := some (if st = .failed ∧ (s.links l).inbound = false then .refusing else .notifying) } }
  | refused (l : Nat) (hc : (s.links l).change = some .refusing) :
    DcStep parse s (.changeNext l) { s with
      links := update s.links l { s.links l with change := some .notifying }
      log := if s.acceptorAlive then .refused .unknown :: s.log else s.log }
  | notified (l : Nat) (hc : (s.links l).change = some .notifying) (ho : s.owned l = true)
      (hf : (s.links l).closedFired = false) :
    DcStep parse s (.changeNext l) { s with
      links := update s.links l { s.links l with
        closedFired := true, refs := (s.links l).refs + 1, change := some .inHandler }
      log := if (s.links l).handler.onDisconnected then .onDisconnected l :: s.log else s.log }
  | unnotified (l : Nat) (hc : (s.links l).change = some .notifying)
      (ho : s.owned l = false ∨ (s.links l).closedFired = true) :
    DcStep parse s (.changeNext l) { s with
      links := update s.links l { s.links l with change := none } }
  | handled (l : Nat) (hc : (s.links l).change = some .inHandler) :
    DcStep parse s (.changeNext l) { s with
      links := update s.links l { s.links l with refs := (s.links l).refs - 1, change := none } }
  | disconnect (l : Nat) :
    DcStep parse s (.disconnect l) { s with
      links := update s.links l { s.links l with disconnectRequested := true } }
  | dropLink (l : Nat) :
    DcStep parse s (.dropLink l) { s with
      links := update s.links l { s.links l with held := (s.links l).held - 1 } }
  | dropAcceptor : DcStep parse s .dropAcceptor { s with acceptorHeld := false }
  | destroy (ha : s.alive = true) :
    DcStep parse s .destroy { s with alive := false, peers := fun _ => none }

section Cases

variable {parse : Parse} {s s' : DcRtcTransport τ} {t : τ} {l : Nat} {accepted : Bool}

theorem onJoined_cases {result : Option Error} (hj : s.joined = false) (hc : s.calls t = none) :
    DcStep parse s (.joined t result) (s.onJoined t result) := by
  cases result with
  | some e => exact .joinFailed t e hj
  | none =>
    simp only [DcRtcTransport.onJoined]
    split
    · exact .joinOfferer t hj hc ‹_›
    · exact .joinAnswerer t (by simpa using ‹¬ s.isOfferer = true›)

theorem onMessage_cases {m : SigMessage} (hc : s.calls t = none) :
    DcStep parse s (.onMessage t m) (s.onMessage parse t m) := by
  simp only [DcRtcTransport.onMessage]
  split
  · exact .ignored t m
  · rename_i j hp
    split
    · exact .messageThrew t m
    · exact .offer t m j hc hp ‹_›
    · split
      · split
        · exact .messageThrew t m
        · exact .answer t m j _ hc hp ‹_› ‹_› ‹_›
      · exact .ignored t m
    · split
      · exact .candidate t m j ⟨_, _⟩ hc hp ‹_›
      · exact .messageThrew t m
    · exact .ignored t m

theorem linkNext_cases {c : Call} (hc : s.calls t = some c) (he : s.linkNext t accepted c = some s') :
    DcStep parse s (.next t accepted) s' := by
  cases c with
  | setRemoteDescription l d =>
    cases accepted <;> cases he
    · exact .descriptionRejected t hc
    · exact .described t hc
  | takePending l d =>
    cases he
    exact .takePending t hc
  | flushing l d pending =>
    cases pending with
    | nil =>
      cases he
      exact .flushed t hc
    | cons c rest =>
      cases accepted <;> cases he
      · exact .flushRejected t hc
      · exact .flush t hc
  | addRemoteCandidate l c =>
    simp only [DcRtcTransport.linkNext] at he
    split at he <;> cases he <;> rename_i hr
    · exact .addDescribed t hc hr
    · convert DcStep.addBuffered t hc (by simpa using hr) using 1
      simp [DcRtcTransport.finishLink, DcRtcTransport.finish, DcRtcTransport.setCall,
        DcRtcTransport.setLink, DcRtcLink.buffer, DcRtcLink.release]
  | addDirect l c =>
    cases he
    exact .addDirect t hc
  | _ => cases he

theorem lookup_answer {src : PeerId} {sdp : String} (hc : s.calls t = some (.answer src sdp)) :
    DcStep parse s (.next t accepted)
      (s.lookup t s.remoteId fun l => .setRemoteDescription l ⟨sdp, .answer, src⟩) := by
  simp only [DcRtcTransport.lookup]
  split
  · exact .answerLost t hc ‹_›
  · exact .answerFound t _ hc ‹_›

theorem lookup_candidate {src : PeerId} {c : Candidate} (hc : s.calls t = some (.candidate src c)) :
    DcStep parse s (.next t accepted) (s.lookup t src fun l => .addRemoteCandidate l c) := by
  simp only [DcRtcTransport.lookup]
  split
  · exact .candidateLost t hc ‹_›
  · exact .candidateFound t _ hc ‹_›

theorem next_cases (he : s.next t accepted = some s') : DcStep parse s (.next t accepted) s' := by
  cases hc : s.calls t with
  | none => simp [DcRtcTransport.next, hc] at he
  | some c =>
    cases c with
    | offer src j =>
      simp only [DcRtcTransport.next, hc] at he
      split at he
      · cases he
        exact .offerRejected t hc ‹_›
      · rename_i hm
        split at he <;> cases he
        · exact .offerThrew t hc ‹_›
        · exact .offerPassed t _ hc (by omega) ‹_›
    | handleOffer src sdp =>
      simp only [DcRtcTransport.next, hc] at he
      cases he
      exact .handleOffer t hc
    | onDataChannel l d =>
      simp only [DcRtcTransport.next, hc] at he
      cases he
      exact .onDataChannel t hc
    | openOfferer =>
      simp only [DcRtcTransport.next, hc] at he
      cases he
      exact .openOfferer t hc
    | onOpen l =>
      simp only [DcRtcTransport.next, hc, Option.some.injEq] at he
      subst he
      convert DcStep.onOpen t hc using 1
      simp [DcRtcTransport.finishLink, DcRtcTransport.finish, DcRtcTransport.setCall,
        DcRtcTransport.setLink, DcRtcLink.release]
    | answer src sdp =>
      simp only [DcRtcTransport.next, hc] at he
      cases he
      exact lookup_answer hc
    | candidate src c =>
      simp only [DcRtcTransport.next, hc] at he
      cases he
      exact lookup_candidate hc
    | setHandler l h =>
      simp only [DcRtcTransport.next, hc, Option.some.injEq] at he
      subst he
      convert DcStep.setHandler t hc using 1
      split <;> rfl
    | onLink l => simp [DcRtcTransport.next, hc] at he
    | setRemoteDescription | takePending | flushing | addRemoteCandidate | addDirect =>
      simp only [DcRtcTransport.next, hc] at he
      exact linkNext_cases hc he

theorem channel_cases (he : s.channel t l = some s') : DcStep parse s (.channel t l) s' := by
  simp only [DcRtcTransport.channel] at he
  split at he
  · rename_i h
    obtain ⟨hl, -, hc, hr⟩ := h
    split at he <;> simp only [Option.some.injEq] at he <;> subst he
    · rename_i h
      convert DcStep.channel t l hl hc hr h.1 h.2.1 h.2.2 using 1
      split <;> rfl
    · exact .channelLost t l hl
  · cases he

theorem onLink_cases {keep : Bool} {h : LinkHandler} (he : s.onLink t keep h = some s') :
    DcStep parse s (.onLink t keep h) s' := by
  simp only [DcRtcTransport.onLink] at he
  split at he <;> cases he
  exact .onLink t keep h ‹_›

theorem stateChange_cases {st : PcState} (hl : l < s.created) (hc : (s.links l).change = none) :
    DcStep parse s (.stateChange l st) (s.setLink l ((s.links l).stateChange st)) := by
  simp only [DcRtcLink.stateChange]
  split
  · rename_i h
    exact .changed l st hl hc h.1 h.2
  · rename_i h
    exact .reported l st hl hc (by grind -linarith -order)

theorem changeNext_cases (he : s.changeNext l = some s') : DcStep parse s (.changeNext l) s' := by
  cases hc : (s.links l).change with
  | none => simp [DcRtcTransport.changeNext, hc] at he
  | some pc =>
    simp only [DcRtcTransport.changeNext, hc] at he
    cases pc with
    | ending st =>
      simp only [Option.some.injEq] at he
      subst he
      cases ha : s.alive with
      | false =>
        convert DcStep.goneDead l hc ha using 1
        simp [DcRtcTransport.gone, ha, DcRtcTransport.setLink]
      | true =>
        convert DcStep.gone l hc ha using 1
        simp [DcRtcTransport.gone, ha, DcRtcTransport.setLink]
    | refusing =>
      simp only [Option.some.injEq] at he
      subst he
      convert DcStep.refused l hc using 1
      split <;> simp_all [DcRtcTransport.acceptorAlive, DcRtcTransport.setLink, DcRtcTransport.emit]
    | notifying =>
      simp only at he
      split at he <;> simp only [Option.some.injEq] at he <;> subst he <;> rename_i h
      · convert DcStep.notified l hc h.1 h.2 using 1
        split <;> rfl
      · exact .unnotified l hc (by grind -linarith -order)
    | inHandler =>
      cases he
      exact .handled l hc

end Cases

theorem DcStep.of_step {parse : Parse} {s s' : DcRtcTransport τ} {a : DcAction τ}
    (he : s.step parse a = some s') : DcStep parse s a s' := by
  cases a with
  | next t accepted => exact next_cases he
  | channel t l => exact channel_cases he
  | onLink t keep h => exact onLink_cases he
  | changeNext l => exact changeNext_cases he
  | dropAcceptor =>
    cases he
    exact .dropAcceptor
  | joined t result =>
    simp only [DcRtcTransport.step] at he
    split at he <;> cases he
    rename_i h
    exact onJoined_cases h.1 h.2.2
  | onMessage t m =>
    simp only [DcRtcTransport.step] at he
    split at he <;> cases he
    rename_i h
    exact onMessage_cases h.2.2
  | onLeft ec =>
    simp only [DcRtcTransport.step] at he
    split at he <;> cases he
    rename_i h
    cases ec
    · exact .leftClean
    · exact .left h.1
  | stateChange l st =>
    simp only [DcRtcTransport.step] at he
    split at he <;> cases he
    rename_i h
    exact stateChange_cases h.1 h.2
  | disconnect l =>
    simp only [DcRtcTransport.step] at he
    split at he <;> cases he
    exact .disconnect l
  | dropLink l =>
    simp only [DcRtcTransport.step] at he
    split at he <;> cases he
    exact .dropLink l
  | destroy =>
    simp only [DcRtcTransport.step] at he
    split at he <;> cases he
    rename_i h
    exact .destroy h.1

/-! ## Runs -/

namespace DcRtcTransport

/-- `json::parse` on the payloads of the runs below. -/
def sampleParse : Parse
  | "\x7b\"type\":\"offer\",\"description\":\"v=0\"\x7d" =>
    some (.object [("type", .string "offer"), ("description", .string "v=0")])
  | "\x7b\"type\":\"answer\",\"description\":\"v=0\"\x7d" =>
    some (.object [("type", .string "answer"), ("description", .string "v=0")])
  | _ => none

def offerFrom (id : String) : SigMessage :=
  ⟨⟨id⟩, "\x7b\"type\":\"offer\",\"description\":\"v=0\"\x7d"⟩

def answerFrom (id : String) : SigMessage :=
  ⟨⟨id⟩, "\x7b\"type\":\"answer\",\"description\":\"v=0\"\x7d"⟩

/-- A transport called by one thread, which waits for offers. -/
abbrev answerer (max : Nat) : Lts (DcRtcTransport Unit) (DcAction Unit) :=
  lts Unit sampleParse ⟨""⟩ max

/-- A transport called by one thread, which makes an offer to `id`. -/
abbrev offerer (id : String) (max : Nat) : Lts (DcRtcTransport Unit) (DcAction Unit) :=
  lts Unit sampleParse ⟨id⟩ max

/-- `OnMessage` of an accepted offer. -/
def offered (id : String) : List (DcAction Unit) :=
  .onMessage () (offerFrom id) :: List.replicate 6 (.next () true)

/-- The data channel of the link opens; the acceptor keeps the link or not, and its
handler has an `onDisconnected`. -/
def opening (l : Nat) (keep : Bool) : List (DcAction Unit) :=
  [.channel () l, .onLink () keep ⟨true⟩, .next () true]

/-- The connection of the link reports a state, and its callback takes `n` steps. -/
def reporting (l : Nat) (st : PcState) (n : Nat) : List (DcAction Unit) :=
  .stateChange l st :: List.replicate n (.changeNext l)

end DcRtcTransport

end TX.Rtt
