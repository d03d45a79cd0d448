import MeshTelemetry.Alert.Basic
import MeshTelemetry.Bus.Packet
import MeshTelemetry.Json.Printer
import MeshTelemetry.Numeric.Radix

/-! The messages that carry an alert into the mesh. -/

set_option autoImplicit false

namespace MeshTelemetry

/-- The channel of the mesh under a root topic, as one node speaks on it. -/
def channelTopic (root channel : String) (sender : UInt32) : String :=
  root ++ "/2/json/" ++ channel ++ "/!" ++ String.ofList (Radix.padded 16 8 sender.toNat)

structure Downlink where
  kind : String
  text : String
  sender : UInt32
  recipient : UInt32
deriving DecidableEq

namespace Downlink

def toJson (d : Downlink) : Json :=
  .object [
    ("type", .string d.kind),
    ("payload", .string d.text),
    ("from", .ofNat d.sender.toNat),
    ("to", .ofNat d.recipient.toNat)]

def toPacket (topic : String) (d : Downlink) : Packet := ⟨topic, d.toJson.compact.toUTF8⟩

structure Draft where
  kind : Option String := none
  text : Option String := none
  sender : Option UInt32 := none
  recipient : Option UInt32 := none

def fields : List String := ["type", "payload", "from", "to"]

def readPart (key : String) (d : Json.Document) (draft : Draft) :
    Except Json.ReadError Draft := do
  match key with
  | "type" => pure { draft with kind := some (← d.readString) }
  | "payload" => pure { draft with text := some (← d.readString) }
  | "from" => pure { draft with sender := some (← d.readUInt32) }
  | _ => pure { draft with recipient := some (← d.readUInt32) }

def read (d : Json.Document) : Except Json.ReadError Downlink := do
  let draft ← d.readRecord fields {} readPart
  pure {
    kind := ← Json.Document.required draft.kind
    text := ← Json.Document.required draft.text
    sender := ← Json.Document.required draft.sender
    recipient := ← Json.Document.required draft.recipient }

def ofPacket (p : Packet) : Except Json.ReadError Downlink :=
  Json.readText read (Text.symbols p.payload)

end Downlink
end MeshTelemetry
