import MeshTelemetry.Json.Document
import MeshTelemetry.Message.Rejection

/-! The checks on a raw message before anything in it is interpreted: bounds on
topic and payload, then a JSON object that names its sender. -/

set_option autoImplicit false

namespace MeshTelemetry

abbrev Envelope := Json.Members

namespace Envelope

/-- Space, tab, line feed, form feed and carriage return. -/
def isBlankByte (b : UInt8) : Bool :=
  b == 0x20 || b == 0x09 || b == 0x0A || b == 0x0C || b == 0x0D

def looksLikeJson (payload : ByteArray) : Bool :=
  match payload.data.toList.find? (fun b => !isBlankByte b) with
  | some b => b == 0x7B || b == 0x5B
  | none => false

def decodePayload (payload : ByteArray) : Option Json := Json.decode? (Text.symbols payload)

def ofValue : Json → Except Rejection Envelope
  | .object members =>
    match Json.member? members "from" with
    | some _ => .ok members
    | none => .error .missingSender
  | _ => .error .notAnObject

def ofMessage (topic : String) (payload : ByteArray) : Except Rejection Envelope :=
  if topic.isEmpty then .error .emptyTopic
  else if maxTopicBytes < topic.utf8ByteSize then .error (.topicTooLong topic.utf8ByteSize)
  else if topic.toList.contains '\x00' then .error .topicContainsNul
  else if payload.size = 0 then .error .emptyPayload
  else if maxPayloadBytes < payload.size then .error (.payloadTooLarge payload.size)
  else if !looksLikeJson payload then .error .notJsonLike
  else
    match decodePayload payload with
    | none => .error .malformedJson
    | some v => ofValue v

end Envelope
end MeshTelemetry
