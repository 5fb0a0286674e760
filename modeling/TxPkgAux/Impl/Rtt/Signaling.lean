import Mathlib.Tactic.Common

/-!
# Signaling messages

`pkg/rtt/Rtt/{PeerId,Error}.h`, `SigMessage` of `pkg/rtt/Rtt/Rtc/ISigClient.h`, the part
of `nlohmann::json` that the transports read a payload with, and the text frames that
`DcWsSigClient` and `DcWsSigServer` exchange.
-/

namespace TX.Rtt

/-- `PeerId`. -/
structure PeerId where
  value : String
  deriving DecidableEq

/-- `SigMessage`. `src` is its field `from`, as everywhere below; `dst` is `to`. -/
structure SigMessage where
  src : PeerId
  payload : String
  deriving DecidableEq

/-- `Rtt::Error`. -/
inductive Error where
  | connectionRefused | timeout | addressInvalid | transportClosed | unknown
  deriving DecidableEq

/-- A parsed payload. -/
inductive Json where
  | null
  | boolean (b : Bool)
  | number (n : Int)
  | string (s : String)
  | array (elements : List Json)
  | object (fields : List (String × Json))

namespace Json

/-- `j.value(key, std::string{})`: `none` where it throws, that is if `j` is not an
object or the field is not a string. -/
def value : Json → String → Option String
  | object fields, key =>
    match fields.lookup key with
    | none => some ""
    | some (string s) => some s
    | some _ => none
  | _, _ => none

/-- `j.find(key)`, which is the end if `j` is not an object. -/
def find : Json → String → Option Json
  | object fields, key => fields.lookup key
  | _, _ => none

/-- `j.get<std::string>()`: `none` where it throws, that is if `j` is not a string. -/
def getString : Json → Option String
  | string s => some s
  | _ => none

end Json

/-- `json::parse` without exceptions: `none` is a discarded value. -/
abbrev Parse := String → Option Json

/-- `json::dump`. -/
abbrev Dump := Json → String

/-- The envelope that the WebSocket client and server send: `id` is the receiver on the
way to the server, and the sender on the way back. -/
def envelope (id : PeerId) (payload : String) : Json :=
  .object [("id", .string id.value), ("payload", .string payload)]

/-- What the `onMessage` of the WebSocket client and server make of a text frame. -/
inductive TextFrame where
  /-- Not JSON, or without one of the fields. -/
  | ignored
  /-- A field is not a string: `get` throws. -/
  | threw
  | fields (id : PeerId) (payload : String)
  deriving DecidableEq

def readFrame (parse : Parse) (text : String) : TextFrame :=
  match parse text with
  | none => .ignored
  | some msg =>
    match msg.find "id", msg.find "payload" with
    | some id, some payload =>
      match id.getString, payload.getString with
      | some id, some payload => .fields ⟨id⟩ payload
      | _, _ => .threw
    | _, _ => .ignored

end TX.Rtt
