import MeshTelemetry.Message.Basic

/-! What is recorded of a message. Telemetry keeps its readings, node info keeps
who the node says it is; other kinds leave no record. -/

set_option autoImplicit false

namespace MeshTelemetry

structure TelemetryRecord where
  node : String
  subject : Subject
  timestamp : Int
  readings : Readings
deriving DecidableEq

structure Identity where
  longName : String
  shortName : String
  hardware : String
  role : String
deriving DecidableEq

structure NodeInfoRecord where
  node : String
  identity : Identity
  timestamp : Int
deriving DecidableEq

inductive Record
  | telemetry (r : TelemetryRecord)
  | nodeInfo (r : NodeInfoRecord)
deriving DecidableEq

namespace Record

def node : Record → String
  | telemetry r => r.node
  | nodeInfo r => r.node

def kind : Record → MessageKind
  | telemetry _ => .telemetry
  | nodeInfo _ => .nodeInfo

end Record

def unknownCode : String := "unknown"

namespace Message

def readings (m : Message) : Readings :=
  let inner := m.payload.readings.rounded
  { inner with rssi := m.rssi.or inner.rssi, snr := m.snr.or inner.snr }

def identity (m : Message) : Identity where
  longName := m.payload.longName.getD ""
  shortName := m.payload.shortName.getD ""
  hardware := m.payload.hardware.getD unknownCode
  role := m.payload.role.getD unknownCode

def record? (m : Message) : Option Record :=
  match m.kind with
  | .telemetry => some (.telemetry ⟨nodeId m.sender, m.subject, m.timestamp, m.readings⟩)
  | .nodeInfo => some (.nodeInfo ⟨nodeId m.sender, m.identity, m.timestamp⟩)
  | .other _ => none

end Message
end MeshTelemetry
