import TxPkgAux.Impl.Rtt.JsWsFrames
import TxPkgAux.Proof.Rtt.WsSignaling

/-!
# The frames of `JsWsSigClient`

A string that goes through a C string is cut at its first U+0000. So a message from or to a
`JsWsSigClient` arrives as it was sent if and only if there is none in the ids and the payload
(`js_verbatim_iff`). `relay_forwarded` ties `relay` to the server.
-/

namespace TX.Rtt

/-- The two JSON libraries read what either of them wrote of an envelope. -/
structure JsonLibs.Codecs (J : JsonLibs) : Prop where
  dc : Codec J.parse J.dump
  up : Codec J.parse J.stringify
  down : Codec J.jsParse J.dump

/-- A frame of the server goes to the newest connection of the peer it is for. -/
theorem relay_forwarded {J : JsonLibs} {s : DcWsSigServer} {v w : ℕ} {text text' : String}
    (h : (DcWsSigServer.lts J.parse J.dump).Reach ClosedInOrder s) (hv : s.live v = true) (hw : s.Newest w)
    (ho : s.socket w = .opened) (hr : J.relay (s.connId v) text = some (s.connId w, text')) :
    ∃ s', s.step J.parse J.dump (.onMessage v (.text text)) = some s' ∧ s'.log = .sent w text' :: s.log := by
  have hi := Routed.reach h
  obtain ⟨hp, -⟩ := hi.newest hw (by simp [ho])
  unfold JsonLibs.relay at hr
  split at hr <;> cases hr
  rename_i payload hf
  exact ⟨_, Dispatches.step_eq hi.base (m := ⟨s.connId v, payload⟩) ⟨hv, rfl, hf⟩, (dispatched_log hp).2 ho⟩

section Transfer

variable {J : JsonLibs} (hJ : J.Codecs) (src dst : PeerId) (payload : String)
include hJ

theorem relay_dc : J.relay src (J.send .dc dst payload) = some (dst, J.dump (envelope src payload)) := by
  rw [JsonLibs.relay, JsonLibs.send, readFrame_envelope hJ.dc]

theorem relay_js : J.relay src (J.send .js dst payload) =
    some (⟨ofCStr (cStr dst.value)⟩, J.dump (envelope src (ofCStr (cStr payload)))) := by
  rw [JsonLibs.relay, JsonLibs.send, jsSend, readFrame_envelope hJ.up]

theorem receive_dc : J.receive .dc (J.dump (envelope src payload)) = some ⟨src, payload⟩ := by
  rw [JsonLibs.receive, readFrame_envelope hJ.dc]

theorem receive_js : J.receive .js (J.dump (envelope src payload)) =
    some ⟨⟨ofCStr (cStr src.value)⟩, ofCStr (cStr payload)⟩ := by
  rw [JsonLibs.receive, jsReceive, hJ.down src payload]
  rfl

end Transfer

/-- A message from or to a `JsWsSigClient` arrives as it was sent, whatever the other client
is, if and only if the ids and the payload have no U+0000. -/
theorem js_verbatim_iff {J : JsonLibs} (hJ : J.Codecs) (src dst : PeerId) (payload : String) :
    (∀ a b, a = .js ∨ b = .js → J.transfer a b src dst payload = some (dst, ⟨src, payload⟩)) ↔
    Char.ofNat 0 ∉ src.value.toList ∧ Char.ofNat 0 ∉ dst.value.toList ∧ Char.ofNat 0 ∉ payload.toList := by
  obtain ⟨src⟩ := src
  obtain ⟨dst⟩ := dst
  rw [← ofCStr_cStr_eq_iff, ← ofCStr_cStr_eq_iff, ← ofCStr_cStr_eq_iff]
  constructor
  · intro h
    have hdc := h .dc .js (.inr rfl)
    have hjs := h .js .dc (.inl rfl)
    rw [JsonLibs.transfer, relay_dc hJ, Option.bind_some, receive_js hJ] at hdc
    rw [JsonLibs.transfer, relay_js hJ, Option.bind_some, receive_dc hJ] at hjs
    simp only [Option.map_some, Option.some.injEq, Prod.mk.injEq, SigMessage.mk.injEq, PeerId.mk.injEq,
      true_and] at hdc hjs
    exact ⟨hdc.1, hjs.1, hdc.2⟩
  · rintro ⟨hsrc, hdst, hpay⟩ a b -
    cases a <;> cases b <;>
      simp [JsonLibs.transfer, relay_dc hJ, relay_js hJ, receive_dc hJ, receive_js hJ, hsrc, hdst, hpay]

/-- The libraries, on envelopes. -/
def envelopeLibs : JsonLibs where
  parse := WsSignaling.envelopeParse
  dump := WsSignaling.envelopeDump
  jsParse := WsSignaling.envelopeParse
  stringify := WsSignaling.envelopeDump

theorem envelopeLibs_codecs : envelopeLibs.Codecs :=
  ⟨WsSignaling.envelope_codec, WsSignaling.envelope_codec, WsSignaling.envelope_codec⟩

/-- A message with a quote in it, between two `JsWsSigClient`. -/
theorem js_verbatim_quote :
    envelopeLibs.transfer .js .js ⟨"a"⟩ ⟨"b"⟩ "say \"hi\"" = some (⟨"b"⟩, ⟨⟨"a"⟩, "say \"hi\""⟩) :=
  (js_verbatim_iff envelopeLibs_codecs ⟨"a"⟩ ⟨"b"⟩ "say \"hi\"").mpr (by decide) .js .js (.inl rfl)

/-- A payload with U+0000 in it, sent by a `JsWsSigClient`. -/
theorem js_cut : envelopeLibs.transfer .js .dc ⟨"a"⟩ ⟨"b"⟩ "m\x00n" = some (⟨"b"⟩, ⟨⟨"a"⟩, "m"⟩) ∧
    ¬ ∀ src dst payload a b, a = .js ∨ b = .js →
      envelopeLibs.transfer a b src dst payload = some (dst, ⟨src, payload⟩) := by
  have hcut : envelopeLibs.transfer .js .dc ⟨"a"⟩ ⟨"b"⟩ "m\x00n" = some (⟨"b"⟩, ⟨⟨"a"⟩, "m"⟩) := by
    rw [JsonLibs.transfer, relay_js envelopeLibs_codecs, Option.bind_some, receive_dc envelopeLibs_codecs,
      ofCStr_cStr, ofCStr_cStr]
    decide
  refine ⟨hcut, fun h => ?_⟩
  have := h ⟨"a"⟩ ⟨"b"⟩ "m\x00n" .js .dc (.inl rfl)
  rw [hcut] at this
  exact absurd this (by decide)

end TX.Rtt
