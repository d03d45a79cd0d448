/-! Why an input is refused. A refusal is the sender's fault and never stops the
exporter. -/

set_option autoImplicit false

namespace MeshTelemetry

def maxTopicBytes : Nat := 256

def maxPayloadBytes : Nat := 1024 * 1024

inductive Rejection
  | emptyTopic
  | topicTooLong (bytes : Nat)
  | topicContainsNul
  | emptyPayload
  | payloadTooLarge (bytes : Nat)
  | notJsonLike
  | malformedJson
  | notAnObject
  | missingSender
  | invalidSender (text : String)
  | zeroSender
  | noTargets
deriving DecidableEq

def Rejection.message : Rejection → String
  | emptyTopic => "empty topic"
  | topicTooLong n => s!"topic too long ({n} bytes, max {maxTopicBytes})"
  | topicContainsNul => "topic contains a NUL byte"
  | emptyPayload => "empty payload"
  | payloadTooLarge n => s!"payload too large ({n} bytes, max {maxPayloadBytes})"
  | notJsonLike => "payload is not JSON-like"
  | malformedJson => "malformed JSON"
  | notAnObject => "payload is not a JSON object"
  | missingSender => "missing 'from' field"
  | invalidSender text => "invalid 'from' field: " ++ text
  | zeroSender => "sender id 0 is reserved for unknown senders"
  | noTargets => "direct alert without target nodes"

end MeshTelemetry
