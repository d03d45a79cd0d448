import MeshTelemetry.Json.Reading
import MeshTelemetry.Text.Blank

/-! Alerts for the mesh: what an operator has to be told, and where to. -/

set_option autoImplicit false

namespace MeshTelemetry

inductive DeliveryMode
  | broadcast
  | direct
deriving DecidableEq

namespace DeliveryMode

def name : DeliveryMode → String
  | broadcast => "broadcast"
  | direct => "direct"

/-- The mode that a label asks for. A blank one asks for none, and every word but
one for direct delivery. -/
def ofLabel? (s : String) : Option DeliveryMode :=
  let word := Text.trim s
  if word.isEmpty then none
  else if Text.sameIgnoringCase word broadcast.name then some broadcast
  else some direct

def ofName (s : String) : Except Json.ReadError DeliveryMode :=
  if s = broadcast.name then .ok broadcast
  else if s = direct.name then .ok direct
  else .error .mismatched

/-- Read a mode: its name, or an object with the name as its only key beside null. -/
def read : Json.Document → Except Json.ReadError DeliveryMode
  | .string (some s) => ofName s
  | .object [(some key, .null)] true => ofName key
  | d => d.mismatch

end DeliveryMode

structure Alert where
  severity : String
  message : String
  channel : Option String := none
  mode : Option DeliveryMode := none
  targets : List UInt32 := []
  timestamp : Int
deriving DecidableEq

namespace Alert

structure Draft where
  severity : Option String := none
  message : Option String := none
  channel : Option String := none
  mode : Option DeliveryMode := none
  targets : List UInt32 := []
  timestamp : Option Int := none

def fields : List String :=
  ["severity", "message", "channel", "mode", "target_nodes", "timestamp"]

def readPart (key : String) (d : Json.Document) (draft : Draft) :
    Except Json.ReadError Draft := do
  match key with
  | "severity" => pure { draft with severity := some (← d.readString) }
  | "message" => pure { draft with message := some (← d.readString) }
  | "channel" => pure { draft with channel := ← d.readOption Json.Document.readString }
  | "mode" => pure { draft with mode := ← d.readOption DeliveryMode.read }
  | "target_nodes" => pure { draft with targets := ← d.readList Json.Document.readUInt32 }
  | _ => pure { draft with timestamp := some (← d.readSigned64) }

def read (d : Json.Document) : Except Json.ReadError Alert := do
  let draft ← d.readRecord fields {} readPart
  pure {
    severity := ← Json.Document.required draft.severity
    message := ← Json.Document.required draft.message
    channel := draft.channel
    mode := draft.mode
    targets := draft.targets
    timestamp := ← Json.Document.required draft.timestamp }

end Alert
end MeshTelemetry
