import TxPkgAux.Impl.Rtt.JsRtcTransport
import TxPkgAux.Proof.Rtt.DcMalformed
import TxPkgAux.Proof.Rtt.SharedSigServer
import TxPkgAux.Proof.Rtt.WsClientStep

/-!
# Handlers of texts from the network

The transport in the browser and the frame handlers of the WebSocket client and server, on
any text, as `DcMalformed` has it for `DcRtcTransport`: `handlers_tolerate_iff` says which
texts the four handlers tolerate in which states.

The frame handlers look their fields up before they read them, so they ignore a text that
is not an object or lacks a field; they raise an exception where a field is there and is not
a string. What they do with the strings is code that may raise as well: that of the handler
of the client, and on the server, where the hub is shared, that of the user the text names.
-/

namespace TX.Rtt

/-! ## `JsRtcTransport` -/

namespace JsRtcTransport

/-- The exceptions that left `OnMessage` so far. -/
def threw (s : JsRtcTransport) : ℕ := s.log.count .threw

/-- The limit of inbound connections is reached. -/
def full (s : JsRtcTransport) : Prop :=
  s.maxInboundConnections = 0 ∨ s.inboundCount ≥ s.maxInboundConnections

/-- The lookup finds a context, and the browser has its peer connection. -/
def reaches (s : JsRtcTransport) (id : PeerId) : Bool := (s.peers id).any fun c => (s.contexts c).mapped

/-- The field is read: it is a string where a context is reached, and where none is, `value`
does not throw. -/
def readable (s : JsRtcTransport) (m : SigMessage) (j : Json) (key : String) : Prop :=
  if s.reaches m.src then (j.stringField key).isSome = true else (j.value key).isSome = true

/-- `OnMessage` tolerates the message. -/
def Tolerable (parse : Parse) (s : JsRtcTransport) (m : SigMessage) : Prop :=
  ∀ j, parse m.payload = some j → ∃ type, j.value "type" = some type ∧
    (type = "offer" → s.full ∨ (j.stringField "description").isSome = true) ∧
    (type = "answer" → s.isOfferer = true → s.readable m j "description") ∧
    (type = "candidate" → s.readable m j "candidate" ∧ s.readable m j "mid")

end JsRtcTransport

section Js

open JsRtcTransport

variable {parse : Parse} {s : JsRtcTransport} {m : SigMessage} {j : Json}

theorem emit_threw_js (e : Bool) (s : JsRtcTransport) : ¬ Tolerates threw e s (s.emit .threw) :=
  not_tolerates (by simp [threw, emit])

theorem value_isSome {key : String} (h : (j.stringField key).isSome = true) :
    (j.value key).isSome = true := by
  obtain ⟨v, hv⟩ := Option.isSome_iff_exists.mp h
  simp [Json.value_eq_some.mpr (.inl hv)]

theorem js_offer_iff (e : Bool) (he : e = (j.stringField "description").isSome) :
    Tolerates threw e s (s.onOffer m.src j) ↔ (s.full ∨ (j.stringField "description").isSome = true) := by
  by_cases hf : s.full
  · have hm : s.onOffer m.src j = s := if_pos hf
    simp [hm, tolerates_self, hf]
  · cases hd : j.value "description" with
    | none =>
      have hm : s.onOffer m.src j = s.emit .threw := by
        simp only [onOffer, hd]
        exact if_neg hf
      simp [hm, hf, emit_threw_js, Json.stringField_eq_none hd]
    | some sdp =>
      have hm : s.onOffer m.src j = s.handleOffer m.src sdp := by
        simp only [onOffer, hd]
        exact if_neg hf
      have hne : s.handleOffer m.src sdp ≠ s := fun h => by
        have := congrArg created h
        simp [handleOffer, store, emit] at this
      have ht : threw (s.handleOffer m.src sdp) = threw s ↔ True := by
        simp [handleOffer, store, emit, threw]
      simp [hm, hf, tolerates_iff hne ht, he]

theorem setRemoteAnswer_iff {e : Bool} {src : PeerId} {d : Description} {c : ℕ} (hp : s.peers src = some c) :
    Tolerates threw e s (s.setRemoteAnswer c d) ↔ (s.reaches src = true → e = true) := by
  simp only [setRemoteAnswer, reaches, hp, Option.any_some]
  by_cases hm : (s.contexts c).mapped = true
  · simp only [hm, if_true, true_imp_iff]
    rw [tolerates_iff (X := True), and_true]
    · intro h
      have := congrArg (fun s => s.log.length) h
      simp [emit, setContext] at this
    · simp [threw, emit, setContext]
  · simp [hm, tolerates_self]

theorem addIceCandidate_iff {e : Bool} {src : PeerId} {cand : Candidate} {c : ℕ} (hp : s.peers src = some c) :
    Tolerates threw e s (s.addIceCandidate c cand) ↔ (s.reaches src = true → e = true) := by
  simp only [addIceCandidate, reaches, hp, Option.any_some]
  by_cases hm : (s.contexts c).mapped = true
  · simp only [hm, if_true, true_imp_iff]
    by_cases hd : (s.contexts c).descSet = true
    · simp only [hd, if_true]
      rw [tolerates_iff (X := True), and_true]
      · intro h
        have := congrArg (fun s => s.log.length) h
        simp [emit] at this
      · simp [threw, emit]
    · simp only [hd, Bool.false_eq_true, if_false]
      rw [tolerates_iff (X := True), and_true]
      · intro h
        have := congrArg (fun s => (s.contexts c).pendingCandidates.length) h
        simp [setContext] at this
      · simp [threw, setContext]
  · simp [hm, tolerates_self]

theorem js_answer_iff (e : Bool) (he : e = (j.stringField "description").isSome) :
    Tolerates threw e s (s.onAnswer m.src j) ↔ (s.isOfferer = true → s.readable m j "description") := by
  by_cases ho : s.isOfferer = true
  · simp only [ho, true_imp_iff, onAnswer, if_true]
    cases hd : j.value "description" with
    | none => simp [emit_threw_js, readable, Json.stringField_eq_none hd, hd]
    | some sdp =>
      cases hp : s.peers m.src with
      | none => simp [tolerates_self, readable, reaches, hp, hd]
      | some c =>
        simp only [setRemoteAnswer_iff hp, readable, he]
        split <;> simp_all
  · simp [onAnswer, ho, tolerates_self]

theorem js_candidate_iff (e : Bool)
    (he : e = ((j.stringField "candidate").isSome && (j.stringField "mid").isSome)) :
    Tolerates threw e s (s.onCandidate m.src j) ↔
      s.readable m j "candidate" ∧ s.readable m j "mid" := by
  by_cases hv : (j.value "candidate").isSome = true ∧ (j.value "mid").isSome = true
  · obtain ⟨⟨cand, hcand⟩, mid, hmid⟩ := hv.imp Option.isSome_iff_exists.mp Option.isSome_iff_exists.mp
    simp only [onCandidate, hcand, hmid]
    cases hp : s.peers m.src with
    | none => simp [tolerates_self, readable, reaches, hp, hcand, hmid]
    | some c =>
      simp only [addIceCandidate_iff hp, readable, he]
      split <;> simp_all
  · have hm : s.onCandidate m.src j = s.emit .threw := by
      simp only [onCandidate]
      split
      · rename_i hcand hmid
        exact absurd ⟨by simp [hcand], by simp [hmid]⟩ hv
      · rfl
    rw [hm]
    refine iff_of_false (emit_threw_js _ s) fun h => hv ?_
    simp only [readable] at h
    split at h
    · exact h.imp value_isSome value_isSome
    · exact h

/-- `OnMessage` tolerates exactly the messages that are `Tolerable`. -/
theorem js_tolerates_iff (m : SigMessage) :
    Tolerates threw (DcRtcTransport.expected parse m) s (s.onMessage parse m) ↔ s.Tolerable parse m := by
  simp only [onMessage, Tolerable]
  cases hp : parse m.payload with
  | none => simp [tolerates_self]
  | some j =>
    simp only [Option.some.injEq, forall_eq']
    cases ht : j.value "type" with
    | none => simp [emit_threw_js]
    | some type =>
      have hx : type ≠ "" → DcRtcTransport.expected parse m = j.hasStrings (Json.signalFields type) :=
        fun hne => by simp [DcRtcTransport.expected, hp, Json.isSignal_eq ht hne]
      simp only [Option.some.injEq, exists_eq_left']
      by_cases h₁ : type = "offer"
      · subst h₁
        simpa using js_offer_iff _ (by simp [hx, Json.signalFields, Json.hasStrings])
      by_cases h₂ : type = "answer"
      · subst h₂
        simpa using js_answer_iff _ (by simp [hx, Json.signalFields, Json.hasStrings])
      by_cases h₃ : type = "candidate"
      · subst h₃
        simpa using js_candidate_iff _ (by simp [hx, Json.signalFields, Json.hasStrings])
      · simp [h₁, h₂, h₃, tolerates_self]

end Js

/-! ## Frame handlers -/

/-- The text is what the frame handlers expect. -/
def frameExpected (parse : Parse) (text : String) : Bool :=
  (parse text).any fun msg => msg.hasStrings ["id", "payload"]

/-- If the text is an object with both fields, they are strings. -/
def FrameTolerable (parse : Parse) (text : String) : Prop :=
  ∀ msg id payload, parse text = some msg → msg.find "id" = some id →
    msg.find "payload" = some payload → id.getString.isSome = true ∧ payload.getString.isSome = true

section Frames

variable {parse : Parse} {text : String}

theorem readFrame_ignored (h : readFrame parse text = .ignored) : FrameTolerable parse text := by
  intro msg id payload hp hi hl
  simp only [readFrame, hp, hi, hl] at h
  split at h <;> cases h

theorem readFrame_threw (h : readFrame parse text = .threw) : ¬ FrameTolerable parse text := by
  intro ht
  simp only [readFrame] at h
  split at h
  · cases h
  · split at h
    · rename_i hi hl
      obtain ⟨h₁, h₂⟩ := ht _ _ _ ‹_› hi hl
      obtain ⟨v₁, hv₁⟩ := Option.isSome_iff_exists.mp h₁
      obtain ⟨v₂, hv₂⟩ := Option.isSome_iff_exists.mp h₂
      simp [hv₁, hv₂] at h
    · cases h

theorem readFrame_eq_fields {id : PeerId} {payload : String} :
    readFrame parse text = .fields id payload ↔ ∃ msg, parse text = some msg ∧
      msg.stringField "id" = some id.value ∧ msg.stringField "payload" = some payload := by
  obtain ⟨id⟩ := id
  simp only [readFrame, Json.stringField]
  cases parse text with
  | none => simp
  | some msg =>
    cases hf : msg.find "id" with
    | none => simp [hf]
    | some f =>
      cases hg : msg.find "payload" with
      | none => simp [hf, hg]
      | some g => cases hv : f.getString <;> cases hw : g.getString <;> simp [hf, hg, hv, hw]

theorem readFrame_fields {id : PeerId} {payload : String} (h : readFrame parse text = .fields id payload) :
    FrameTolerable parse text ∧ frameExpected parse text = true := by
  obtain ⟨msg, hp, hi, hl⟩ := readFrame_eq_fields.mp h
  refine ⟨fun msg' f g hp' hf hg => ?_, ?_⟩
  · obtain rfl : msg = msg' := Option.some.inj (hp.symm.trans hp')
    simp only [Json.stringField, hf, hg, Option.bind_some] at hi hl
    simp [hi, hl]
  · simp [frameExpected, hp, Json.hasStrings, hi, hl]

/-- The fields of the text, if both are strings, satisfy `P`. -/
def FrameGives (parse : Parse) (text : String) (P : PeerId → String → Prop) : Prop :=
  ∀ msg id payload, parse text = some msg → msg.stringField "id" = some id →
    msg.stringField "payload" = some payload → P ⟨id⟩ payload

theorem frameGives_fields {P : PeerId → String → Prop} {id : PeerId} {payload : String}
    (h : readFrame parse text = .fields id payload) : FrameGives parse text P ↔ P id payload := by
  obtain ⟨msg, hp, hi, hl⟩ := readFrame_eq_fields.mp h
  constructor
  · exact fun hg => hg msg id.value payload hp hi hl
  · intro hP msg' id' payload' hp' hi' hl'
    have h' : readFrame parse text = .fields ⟨id'⟩ payload' := readFrame_eq_fields.mpr ⟨msg', hp', hi', hl'⟩
    cases h.symm.trans h'
    exact hP

theorem frameGives_of_ne {P : PeerId → String → Prop}
    (h : ∀ id payload, readFrame parse text ≠ .fields id payload) : FrameGives parse text P := by
  intro msg id payload hp hi hl
  exact absurd (readFrame_eq_fields.mpr ⟨msg, hp, hi, hl⟩) (h ⟨id⟩ payload)

end Frames

namespace SharedSigServer

variable {τ υ : Type}

/-- The exceptions that left `onMessage` so far. -/
def threw (s : SharedSigServer τ υ) : ℕ := s.log.countP fun e => e matches .threw _

/-- `OnMessage` of the user returns normally: for the client of an open connection, `dump`
and `ws->send` do. -/
def Accepts (F : FrameCallees υ) (s : SharedSigServer τ υ) (u : υ) (m : SigMessage) : Prop :=
  match s.connection u with
  | some k => s.socket k = .opened →
      ∃ text, F.dump (envelope m.src m.payload) = some text ∧ F.sends k text = true
  | none => F.returns u m = true

/-- No call holds the mutex of the user that the text names. -/
def Free (parse : Parse) (s : SharedSigServer τ υ) (text : String) : Prop :=
  FrameGives parse text fun dst _ => ∀ u, s.hub.peers dst = some u → (s.hub.users u).mutex = none

/-- `onMessage` tolerates the frame: the fields that are there are strings, and `OnMessage` of
the user they reach returns normally. -/
def Tolerable (parse : Parse) (F : FrameCallees υ) (s : SharedSigServer τ υ) (w : ℕ) (text : String) : Prop :=
  FrameTolerable parse text ∧ FrameGives parse text fun dst payload =>
    ∀ u, s.hub.reached dst = some u → s.Accepts F u ⟨s.connId w, payload⟩

end SharedSigServer

namespace DcWsSigClient

/-- The exceptions that left `onMessage` so far. -/
def threw (s : DcWsSigClient) : ℕ := s.log.count .threw

/-- `onMessage` of a text frame from its call to its end, with no other call in between;
`returns` tells whether the `OnMessage` of the handler returns normally. -/
def runOnMessage (parse : Parse) (returns : SigMessage → Bool) (s : DcWsSigClient) (text : String) :
    Option DcWsSigClient :=
  let s := s.onMessage parse text
  match s.deliver with
  | none => some s
  | some (m, _) =>
    s.deliverNext.bind fun s => s.deliverNext.bind fun s =>
      if s.deliver.isSome then s.deliverNext.map fun s => if returns m then s else s.emit .threw
      else some s

/-- `onMessage` tolerates the frame: the user is gone, or the fields that are there are
strings, and the handler returns normally. -/
def Tolerable (parse : Parse) (returns : SigMessage → Bool) (s : DcWsSigClient) (text : String) : Prop :=
  s.userAlive = true → FrameTolerable parse text ∧
    FrameGives parse text fun id payload => s.handlerFound = true → returns ⟨id, payload⟩ = true

end DcWsSigClient

section Server

variable {τ υ : Type} [DecidableEq τ] [DecidableEq υ] {parse : Parse} {F : FrameCallees υ}
  {s : SharedSigServer τ υ}

open SharedSigServer

omit [DecidableEq τ] [DecidableEq υ] in
/-- What may throw is `OnMessage` of the user. -/
theorem called_threw (w : ℕ) (u : υ) (m : SigMessage) :
    (s.called F w m (some u)).threw = s.threw ↔ s.Accepts F u m := by
  simp only [called, userOnMessage, forward, Accepts]
  cases s.connection u with
  | none => by_cases hr : F.returns u m = true <;> simp [hr, threw, emit]
  | some k =>
    by_cases ho : s.socket k = .opened
    · cases F.dump (envelope m.src m.payload) with
      | none => simp [ho, threw, emit]
      | some text => by_cases hs : F.sends k text = true <;> simp [ho, hs, threw, emit]
    · simp [ho]

omit [DecidableEq τ] in
theorem dispatched_threw (w : ℕ) (dst : PeerId) (m : SigMessage) :
    (s.dispatched F w dst m).threw = s.threw ↔
      ∀ u, s.hub.reached dst = some u → s.Accepts F u m := by
  have ht : (s.dispatched F w dst m).threw = (s.called F w m (s.hub.reached dst)).threw := rfl
  rw [ht]
  cases s.hub.reached dst with
  | none => simp [called]
  | some u => simp [called_threw]

theorem server_tolerates_iff {t : τ} {text : String} (hs : s.hub.stack t = []) (hm : s.Free parse text)
    (w : ℕ) :
    (∃ s', s.onMessage parse F t w (.text text) = some s' ∧
      Tolerates threw (frameExpected parse text) s s') ↔ s.Tolerable parse F w text := by
  simp only [SharedSigServer.onMessage, SharedSigServer.Tolerable]
  cases hr : readFrame parse text with
  | ignored =>
    refine iff_of_true ⟨s, rfl, tolerates_self⟩ ⟨readFrame_ignored hr, frameGives_of_ne ?_⟩
    simp [hr]
  | threw =>
    have hn : ¬ Tolerates threw (frameExpected parse text) s (s.emit (.threw w)) :=
      not_tolerates (by simp [threw, emit])
    simp [hn, readFrame_threw hr]
  | fields dst payload =>
    obtain ⟨ht, he⟩ := readFrame_fields hr
    have hm := (frameGives_fields hr).mp hm
    simp only [SharedSigServer.dispatch_eq hs hm, frameGives_fields hr]
    simp [Tolerates, dispatched_threw, ht, he]

end Server

theorem release_log (s : DcWsSigClient) : s.release.log = s.log := by
  obtain ⟨socket, -, he⟩ := release_eq s
  rw [he]

theorem release_deliver (s : DcWsSigClient) : s.release.deliver = s.deliver := by
  obtain ⟨socket, -, he⟩ := release_eq s
  rw [he]

/-- A frame whose fields are strings is delivered; what may throw is the handler. -/
theorem runOnMessage_fields {parse : Parse} (returns : SigMessage → Bool) {s : DcWsSigClient}
    {text payload : String} {id : PeerId} (hu : s.userAlive = true)
    (hr : readFrame parse text = .fields id payload) :
    ∃ s', s.runOnMessage parse returns text = some s' ∧
      (s'.threw = s.threw ↔ (s.handlerFound = true → returns ⟨id, payload⟩ = true)) := by
  have hfound : ∀ d log, ({ s with deliver := d, log } : DcWsSigClient).handlerFound = s.handlerFound :=
    fun _ _ => rfl
  simp only [DcWsSigClient.runOnMessage, DcWsSigClient.onMessage, hu, hr, if_true,
    DcWsSigClient.deliverNext, DcWsSigClient.emit, Option.bind_some, hfound]
  by_cases hh : s.handlerFound = true
  · simp only [hh, if_true, Option.isSome_some, Option.map_some, true_imp_iff]
    refine ⟨_, rfl, ?_⟩
    split <;> simp_all [DcWsSigClient.threw, release_log]
  · simp only [hh, if_false, release_deliver, Option.isSome_none, Bool.false_eq_true, false_imp_iff, iff_true]
    exact ⟨_, rfl, by simp [DcWsSigClient.threw, release_log]⟩

theorem client_tolerates_iff {parse : Parse} {returns : SigMessage → Bool} {s : DcWsSigClient}
    (hd : s.deliver = none) (text : String) :
    (∃ s', s.runOnMessage parse returns text = some s' ∧
      Tolerates DcWsSigClient.threw (frameExpected parse text) s s') ↔ s.Tolerable parse returns text := by
  have hquiet : s.deliver = none → s.onMessage parse text = s →
      s.runOnMessage parse returns text = some s := fun hd he => by
    simp [DcWsSigClient.runOnMessage, he, hd]
  by_cases hu : s.userAlive = true
  · simp only [DcWsSigClient.Tolerable, hu, true_imp_iff]
    cases hr : readFrame parse text with
    | ignored =>
      have hm : s.onMessage parse text = s := by simp [DcWsSigClient.onMessage, hr]
      refine iff_of_true ⟨s, hquiet hd hm, tolerates_self⟩ ⟨readFrame_ignored hr, frameGives_of_ne ?_⟩
      simp [hr]
    | threw =>
      have hm : s.runOnMessage parse returns text = some (s.emit .threw) := by
        simp [DcWsSigClient.runOnMessage, DcWsSigClient.onMessage, hu, hr, DcWsSigClient.emit, hd]
      refine iff_of_false ?_ fun h => readFrame_threw hr h.1
      rintro ⟨s', he, ht⟩
      obtain rfl : s.emit .threw = s' := Option.some.inj (hm.symm.trans he)
      exact not_tolerates (by simp [DcWsSigClient.threw, DcWsSigClient.emit]) ht
    | fields id payload =>
      obtain ⟨ht, he⟩ := readFrame_fields hr
      obtain ⟨s', hs', ht'⟩ := runOnMessage_fields returns hu hr
      rw [frameGives_fields hr, hs', he]
      simp [Tolerates, ht', ht]
  · have hm : s.onMessage parse text = s := by simp [DcWsSigClient.onMessage, hu]
    refine iff_of_true ⟨s, hquiet hd hm, tolerates_self⟩ fun h => absurd h hu

/-- The four handlers tolerate exactly the texts that are tolerable in the state they are
called in. -/
theorem handlers_tolerate_iff {τ υ : Type} [DecidableEq τ] [DecidableEq υ] (parse : Parse) :
    (∀ (A : Acceptance) (s : DcRtcTransport τ) (t : τ) (m : SigMessage), s.calls t = none →
      ((∃ s', DcRtcTransport.Returns A t (s.onMessage parse t m) s' ∧
        Tolerates DcRtcTransport.threw (DcRtcTransport.expected parse m) s s') ↔
          s.Tolerable parse A m)) ∧
    (∀ (s : JsRtcTransport) (m : SigMessage),
      Tolerates JsRtcTransport.threw (DcRtcTransport.expected parse m) s (s.onMessage parse m) ↔
        s.Tolerable parse m) ∧
    (∀ (F : FrameCallees υ) (s : SharedSigServer τ υ) (t : τ) (w : ℕ) (text : String),
      s.hub.stack t = [] → s.Free parse text →
      ((∃ s', s.onMessage parse F t w (.text text) = some s' ∧
        Tolerates SharedSigServer.threw (frameExpected parse text) s s') ↔
          s.Tolerable parse F w text)) ∧
    ∀ (returns : SigMessage → Bool) (s : DcWsSigClient) (text : String), s.deliver = none →
      ((∃ s', s.runOnMessage parse returns text = some s' ∧
        Tolerates DcWsSigClient.threw (frameExpected parse text) s s') ↔
          s.Tolerable parse returns text) := by
  refine ⟨?_, ?_, ?_, ?_⟩
  · exact fun A s t m hc => dc_tolerates_iff hc m
  · exact fun s m => js_tolerates_iff m
  · exact fun F s t w text hs hm => server_tolerates_iff hs hm w
  · exact fun returns s text hd => client_tolerates_iff hd text

/-! ## Runs -/

/-- `json::parse` on the texts of the runs below. -/
def malformedTexts : Parse
  | "[]" => some (.array [])
  | "\x7b\x7d" => some (.object [])
  | "\x7b\"id\":1,\"payload\":\"\"\x7d" => some (.object [("id", .number 1), ("payload", .string "")])
  | "\x7b\"id\":\"a\",\"payload\":\"[]\"\x7d" =>
    some (.object [("id", .string "a"), ("payload", .string "[]")])
  | _ => none

/-- A libdatachannel that takes everything. -/
def acceptAll : Acceptance where
  description _ _ := true
  candidate _ _ := true

/-- Transports that wait for offers, and a WebSocket client and server. -/
abbrev dcListening : Lts (DcRtcTransport Unit) (DcAction Unit) :=
  DcRtcTransport.lts Unit malformedTexts ⟨""⟩ 1

abbrev jsListening : Lts JsRtcTransport JsAction := JsRtcTransport.lts malformedTexts ⟨""⟩ 1

abbrev wsListening : Lts DcWsSigServer ServerAction := DcWsSigServer.lts malformedTexts fun _ => ""

abbrev wsJoining : Lts DcWsSigClient WsAction := DcWsSigClient.lts malformedTexts ⟨"a"⟩

/-- A server with a user in the process whose `OnMessage` raises an exception. -/
def raising : FrameCallees Bool where
  dump _ := some ""
  sends _ _ := true
  returns _ _ := false

/-- A server with one connection, on a hub that has users in the process only. -/
def inProcess (hub : SigHub Unit Bool) : SharedSigServer Unit Bool where
  hub := hub
  connection _ := none
  connId _ := ⟨"c"⟩
  socket _ := .opened

/-- The four handlers ignore the empty object. -/
theorem handlers_tolerate_empty :
    (∃ s', DcRtcTransport.Returns acceptAll ()
      (dcListening.init.onMessage malformedTexts () ⟨⟨"a"⟩, "\x7b\x7d"⟩) s' ∧
      Tolerates DcRtcTransport.threw false dcListening.init s') ∧
    Tolerates JsRtcTransport.threw false jsListening.init
      (jsListening.init.onMessage malformedTexts ⟨⟨"a"⟩, "\x7b\x7d"⟩) ∧
    (∃ s', wsListening.init.shared.onMessage malformedTexts (.total fun _ => "") () 0
      (.text "\x7b\x7d") = some s' ∧ Tolerates SharedSigServer.threw false wsListening.init.shared s') ∧
    ∃ s', wsJoining.init.runOnMessage malformedTexts (fun _ => true) "\x7b\x7d" = some s' ∧
      Tolerates DcWsSigClient.threw false wsJoining.init s' := by
  obtain ⟨h₁, h₂, h₃, h₄⟩ := handlers_tolerate_iff (τ := Unit) (υ := ℕ) malformedTexts
  have hp : malformedTexts "\x7b\x7d" = some (.object []) := rfl
  have ht : (Json.object []).value "type" = some "" := rfl
  refine ⟨?_, ?_, ?_, ?_⟩
  · refine (h₁ acceptAll dcListening.init () ⟨⟨"a"⟩, "\x7b\x7d"⟩ rfl).mpr fun j hj => ?_
    obtain rfl : Json.object [] = j := Option.some.inj (hp.symm.trans hj)
    exact ⟨"", ht, by simp⟩
  · refine (h₂ jsListening.init ⟨⟨"a"⟩, "\x7b\x7d"⟩).mpr fun j hj => ?_
    obtain rfl : Json.object [] = j := Option.some.inj (hp.symm.trans hj)
    exact ⟨"", ht, by simp⟩
  · have hn : ∀ id payload, readFrame malformedTexts "\x7b\x7d" ≠ .fields id payload := by
      simp [readFrame, hp, Json.find]
    refine (h₃ _ wsListening.init.shared () 0 _ rfl (frameGives_of_ne hn)).mpr ⟨?_, frameGives_of_ne hn⟩
    intro msg id payload hj hi
    obtain rfl : Json.object [] = msg := Option.some.inj (hp.symm.trans hj)
    cases hi
  · exact (h₄ (fun _ => true) wsJoining.init "\x7b\x7d" rfl).mpr (by simp [DcWsSigClient.lts,
      DcWsSigClient.Tolerable, DcWsSigClient.userAlive])

/-- An array raises an exception in the `OnMessage` of a transport, and an object whose
`id` is a number raises one in the frame handlers. A frame that hands the array to a user in
the process raises one in the server, too. -/
theorem handlers_throw :
    (∃ s, dcListening.Reach Lts.Any s ∧ s.handling = true ∧ s.calls () = none ∧
      ¬ ∃ s', DcRtcTransport.Returns acceptAll () (s.onMessage malformedTexts () ⟨⟨"a"⟩, "[]"⟩) s' ∧
        s'.threw = s.threw) ∧
    (∃ s, jsListening.Reach Lts.Any s ∧ s.handling = true ∧
      (s.onMessage malformedTexts ⟨⟨"a"⟩, "[]"⟩).threw ≠ s.threw) ∧
    (∃ s, wsListening.Reach Lts.Any s ∧ s.live 0 = true ∧
      ¬ ∃ s', s.shared.onMessage malformedTexts (.total fun _ => "") () 0
        (.text "\x7b\"id\":1,\"payload\":\"\"\x7d") = some s' ∧ s'.threw = s.shared.threw) ∧
    (∃ hub, (twoUsers "a" "b").Reach Lts.Any hub ∧ hub.stack () = [] ∧
      ¬ ∃ s', (inProcess hub).onMessage malformedTexts raising () 0
        (.text "\x7b\"id\":\"a\",\"payload\":\"[]\"\x7d") = some s' ∧ s'.threw = (inProcess hub).threw) ∧
    ∃ s, wsJoining.Reach Lts.Any s ∧ s.userAlive = true ∧ s.deliver = none ∧
      ¬ ∃ s', s.runOnMessage malformedTexts (fun _ => true)
        "\x7b\"id\":1,\"payload\":\"\"\x7d" = some s' ∧ s'.threw = s.threw := by
  refine ⟨?_, ?_, ?_, ?_, ?_⟩
  · obtain ⟨s, hs, hq⟩ := Lts.Reach.of_run dcListening Lts.Any [.joined () none]
      (fun s => s.handling = true ∧ (s.calls ()).isNone = true) (by decide +kernel)
    obtain ⟨hh, hc⟩ := of_decide_eq_true hq
    have hc := Option.isNone_iff_eq_none.mp hc
    refine ⟨s, hs, hh, hc, ?_⟩
    rintro ⟨s', hr, ht⟩
    have hm : s.onMessage malformedTexts () ⟨⟨"a"⟩, "[]"⟩ = s.emit .threw := rfl
    have hr' : DcRtcTransport.Returns acceptAll () (s.emit .threw) (s.emit .threw) := .done hc
    rw [hm] at hr
    obtain rfl := hr'.unique hr
    simp [DcRtcTransport.threw, DcRtcTransport.emit] at ht
  · obtain ⟨s, hs, hq⟩ := Lts.Reach.of_run jsListening Lts.Any [.joined none]
      (fun s => s.handling = true ∧ (s.onMessage malformedTexts ⟨⟨"a"⟩, "[]"⟩).threw ≠ s.threw)
      (by decide +kernel)
    exact ⟨s, hs, of_decide_eq_true hq⟩
  · obtain ⟨s, hs, hq⟩ := Lts.Reach.of_run wsListening Lts.Any [.onOpen (some "/a")]
      (fun s => s.live 0 = true ∧ ((s.shared.onMessage malformedTexts (.total fun _ => "") () 0
        (.text "\x7b\"id\":1,\"payload\":\"\"\x7d")).all fun s' => s'.threw ≠ s.shared.threw) = true)
      (by decide +kernel)
    obtain ⟨hl, ht⟩ := of_decide_eq_true hq
    refine ⟨s, hs, hl, ?_⟩
    rintro ⟨s', he, ht'⟩
    simp [he, ht'] at ht
  · obtain ⟨hub, hs, hq⟩ := Lts.Reach.of_run (twoUsers "a" "b") Lts.Any (registering false)
      (fun hub => hub.stack () = [] ∧ (((inProcess hub).onMessage malformedTexts raising () 0
        (.text "\x7b\"id\":\"a\",\"payload\":\"[]\"\x7d")).all fun s' =>
          s'.threw ≠ (inProcess hub).threw) = true)
      (by decide +kernel)
    obtain ⟨hi, ht⟩ := of_decide_eq_true hq
    refine ⟨hub, hs, hi, ?_⟩
    rintro ⟨s', he, ht'⟩
    simp [he, ht'] at ht
  · obtain ⟨s, hs, hq⟩ := Lts.Reach.of_run wsJoining Lts.Any [.opened, .onOpen]
      (fun s => s.userAlive = true ∧ s.deliver = none ∧ ((s.runOnMessage malformedTexts (fun _ => true)
        "\x7b\"id\":1,\"payload\":\"\"\x7d").all fun s' => s'.threw ≠ s.threw) = true)
      (by decide +kernel)
    obtain ⟨hu, hd, ht⟩ := of_decide_eq_true hq
    refine ⟨s, hs, hu, hd, ?_⟩
    rintro ⟨s', he, ht'⟩
    simp [he, ht'] at ht

end TX.Rtt
