import TxPkgAux.Framework.CStrings
import TxPkgAux.Impl.Rtt.Signaling

/-!
# The frames of `JsWsSigClient`

`pkg/rtt/rtc/Rtt/Rtc/Js/JsWsSigClient.cpp`: strings go between C++ and the script as C strings.
`JsWsSigUser::Send` passes `c_str()`, which `UTF8ToString` reads; the script passes what
`stringToUTF8OnStack` writes, which `JsWsSigContext::OnMessage` reads. `transfer` is the way
of one message from a client through `DcWsSigServer` to a client.

The ids are those that the server registered: `ws->path()` is `/` and the id. They may differ
from what `Join` of a `JsWsSigClient` was given, as the browser percent-encodes some characters
in the path of a URL.
-/

namespace TX.Rtt

/-- `JsWsContext_Send`, called by `JsWsSigUser::Send`: the frame that is sent. -/
def jsSend (stringify : Dump) (dst : PeerId) (payload : String) : String :=
  stringify (envelope ⟨ofCStr (cStr dst.value)⟩ (ofCStr (cStr payload)))

/-- `msg.key || ""`: `none` where the field is neither a string nor absent, which no client
and no server sends. -/
def jsField (msg : Json) (key : String) : Option String :=
  match msg.find key with
  | none | some .null => some ""
  | some (.string s) => some s
  | some _ => none

/-- `onmessage` and `JsWsSigContext::OnMessage`: the message that the handler is given. -/
def jsReceive (parse : Parse) (text : String) : Option SigMessage :=
  match parse text with
  | none | some .null => none
  | some msg =>
    match jsField msg "id", jsField msg "payload" with
    | some id, some payload => some ⟨⟨ofCStr (cStr id)⟩, ofCStr (cStr payload)⟩
    | _, _ => none

/-- Which client a peer joined through: `DcWsSigClient` or `JsWsSigClient`. -/
inductive ClientKind where
  | dc | js
  deriving DecidableEq

/-- The readers and writers of JSON: of `nlohmann::json`, and of the script. -/
structure JsonLibs where
  parse : Parse
  dump : Dump
  jsParse : Parse
  stringify : Dump

namespace JsonLibs

variable (J : JsonLibs)

/-- The frame that a client sends. -/
def send : ClientKind → PeerId → String → String
  | .dc, dst, payload => J.dump (envelope dst payload)
  | .js, dst, payload => jsSend J.stringify dst payload

/-- The message that a client makes of a frame. -/
def receive : ClientKind → String → Option SigMessage
  | .dc, text =>
    match readFrame J.parse text with
    | .fields id payload => some ⟨id, payload⟩
    | .ignored | .threw => none
  | .js, text => jsReceive J.jsParse text

/-- What `DcWsSigServer` makes of a frame of the peer `src`: whom it is for, and the frame that
is sent to it. -/
def relay (src : PeerId) (text : String) : Option (PeerId × String) :=
  match readFrame J.parse text with
  | .fields dst payload => some (dst, J.dump (envelope src payload))
  | .ignored | .threw => none

/-- A message on its way: whom the server takes it to be for, and what arrives there. -/
def transfer (a b : ClientKind) (src dst : PeerId) (payload : String) : Option (PeerId × SigMessage) :=
  (J.relay src (J.send a dst payload)).bind fun r => (J.receive b r.2).map fun m => (r.1, m)

end JsonLibs

end TX.Rtt
