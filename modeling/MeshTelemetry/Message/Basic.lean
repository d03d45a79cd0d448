import MeshTelemetry.Json.Printer
import MeshTelemetry.Message.Envelope
import MeshTelemetry.Message.Readings

/-! A message as the mesh means it: who sent it, what kind it is, what it carries. -/

set_option autoImplicit false

namespace MeshTelemetry

inductive Subject
  | device
  | environment
  | power
deriving DecidableEq

def Subject.name : Subject → String
  | device => "device"
  | environment => "environment"
  | power => "power"

namespace Subject

def environmentKeys : List String := ["temperature", "relative_humidity", "barometric_pressure"]

def powerKeys : List String :=
  ["ch1_voltage", "ch1_current", "ch2_voltage", "ch2_current", "ch3_voltage", "ch3_current"]

/-- An environment key decides before a power key; with neither it is the device. -/
def ofPayload (ms : Json.Members) : Subject :=
  let has := fun key => (Json.member? ms key).isSome
  if environmentKeys.any has then environment
  else if powerKeys.any has then power
  else device

end Subject

inductive MessageKind
  | telemetry
  | nodeInfo
  | other (name : String)
deriving DecidableEq

namespace MessageKind

def name : MessageKind → String
  | telemetry => "telemetry"
  | nodeInfo => "nodeinfo"
  | other name => name

def ofName (name : String) : MessageKind :=
  if name = "telemetry" then telemetry
  else if name = "nodeinfo" then nodeInfo
  else other name

end MessageKind

structure Payload where
  readings : Readings := {}
  longName : Option String := none
  shortName : Option String := none
  hardware : Option String := none
  role : Option String := none
deriving DecidableEq

structure Message where
  sender : UInt32
  kind : MessageKind
  subject : Subject
  payload : Payload
  /-- Signal readings beside the payload; they count before those inside it. -/
  rssi : Option Binary64
  snr : Option Binary64
  timestamp : Int
deriving DecidableEq

def nodeId (number : UInt32) : String := toString number.toNat

namespace Payload

/-- A code as text: numbers lose their fraction, a text counts unless empty. -/
def code? (ms : Json.Members) (key : String) : Option String :=
  match Json.member? ms key with
  | some (.number n) =>
    match n.signed64? with
    | some i => some (toString i)
    | none => if n.toFloat.isFinite then some (toString n.toFloat.toSigned64) else none
  | some (.string s) => if s.isEmpty then none else some s
  | _ => none

def ofMembers (ms : Json.Members) : Payload where
  readings := Readings.ofPayload ms
  longName := (Json.member? ms "longname").bind Json.asString?
  shortName := (Json.member? ms "shortname").bind Json.asString?
  hardware := code? ms "hardware"
  role := code? ms "role"

end Payload

namespace Message

/-- A sender's number has 32 bits, and zero stands for no sender. -/
def senderOfNat (n : Nat) : Except Rejection UInt32 :=
  if UInt32.size ≤ n then .error (.invalidSender (toString n))
  else if n = 0 then .error .zeroSender
  else .ok (UInt32.ofNat n)

def senderOfNumber (n : Json.Number) : Except Rejection UInt32 :=
  match n.unsigned64? with
  | some u => senderOfNat u
  | none =>
    let x := n.toFloat
    if x.isWhole ∧ 0 ≤ x.signedUnits then senderOfNat x.toUnsigned64
    else .error (.invalidSender n.text)

def senderOf (e : Envelope) : Except Rejection UInt32 :=
  match Json.member? e "from" with
  | none => .error .missingSender
  | some (.number n) => senderOfNumber n
  | some v => .error (.invalidSender v.compact)

def timestampOf (now : Int) (e : Envelope) : Int :=
  (((Json.member? e "timestamp").bind Json.asSigned64?).filter (0 < ·)).getD now

def payloadOf (e : Envelope) : Json.Members :=
  ((Json.member? e "payload").bind Json.asObject?).getD []

def ofEnvelope (now : Int) (e : Envelope) : Except Rejection Message :=
  match senderOf e with
  | .error r => .error r
  | .ok sender =>
    let payload := payloadOf e
    .ok {
      sender
      kind := MessageKind.ofName (((Json.member? e "type").bind Json.asString?).getD "")
      subject := Subject.ofPayload payload
      payload := Payload.ofMembers payload
      rssi := Readings.number? e "rssi"
      snr := Readings.number? e "snr"
      timestamp := timestampOf now e }

end Message
end MeshTelemetry
