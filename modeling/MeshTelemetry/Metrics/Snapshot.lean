import MeshTelemetry.Json.Printer
import MeshTelemetry.Json.Reading
import MeshTelemetry.Metrics.Store

/-! Snapshots: the gauges and identities of a store, grouped by node, and their
replay into a store. Counters are not part of a snapshot. -/

set_option autoImplicit false

namespace MeshTelemetry

structure NodeSnapshot where
  node : String
  timestamp : Int
  metrics : KeyMap Binary64
  labels : KeyMap String
deriving DecidableEq

structure Snapshot where
  version : String
  timestamp : Int
  nodes : List NodeSnapshot
deriving DecidableEq

def snapshotVersion : String := "1.0"

namespace Store

def nodes (s : Store) : List String :=
  (KeyMap.ofList ((s.gauges.keys.map fun k => (k.2, ())) ++
    (s.info.values.map fun l => (l.node, ())))).keys

def infoOf (s : Store) (node : String) : List InfoLabels :=
  s.infoSeries.filter fun l => l.node = node

def metricsOf (s : Store) (node : String) : KeyMap Binary64 :=
  KeyMap.ofList ((Gauge.all.filterMap fun g => (s.gauge? g node).map fun x => (g.metricName, x)) ++
    (s.infoOf node).map fun _ => (infoName, Binary64.ofNat 1))

def labelsOf (s : Store) (node : String) : KeyMap String :=
  KeyMap.ofList ((s.infoOf node).flatMap fun l => l.sorted.filter fun e => e.1 ≠ "node_id")

/-- A node's entry; without a time of its own it has the snapshot's. -/
def nodeSnapshot (s : Store) (now : Int) (node : String) : NodeSnapshot where
  node
  timestamp := ((s.gauge? .lastSeen node).map Binary64.toSigned64).getD now
  metrics := s.metricsOf node
  labels := s.labelsOf node

def snapshot (s : Store) (now : Int) : Snapshot where
  version := snapshotVersion
  timestamp := now
  nodes := s.nodes.map (s.nodeSnapshot now)

def identityOfLabels (labels : KeyMap String) : Identity where
  longName := (labels.get? "long_name").getD ""
  shortName := (labels.get? "short_name").getD ""
  hardware := (labels.get? "hardware").getD unknownCode
  role := (labels.get? "role").getD unknownCode

def isRestorable (metric : String) : Bool :=
  (Gauge.ofMetricName? metric).isSome || metric == infoName

/-- Replay one metric of a node; an unknown one changes nothing. -/
def restoreMetric (n : NodeSnapshot) (s : Store) (entry : String × Binary64) : Store :=
  match Gauge.ofMetricName? entry.1 with
  | some g => s.setGauge g n.node entry.2
  | none =>
    if entry.1 = infoName then s.setIdentity n.node (identityOfLabels n.labels) else s

def isRestored (n : NodeSnapshot) : Bool :=
  !n.node.isEmpty && n.metrics.keys.any isRestorable

/-- Replay one node; a node without a name is passed over. -/
def restoreNode (s : Store) (n : NodeSnapshot) : Store :=
  if n.node.isEmpty then s else n.metrics.entries.foldl (restoreMetric n) s

def restore (s : Store) (snapshot : Snapshot) : Store × List String :=
  (snapshot.nodes.foldl restoreNode s, (snapshot.nodes.filter isRestored).map NodeSnapshot.node)

end Store

/-! Snapshots as JSON -/

namespace NodeSnapshot

def toJson (n : NodeSnapshot) : Json :=
  .object [
    ("node_id", .string n.node),
    ("timestamp", .number (.int n.timestamp)),
    ("metrics", .object (n.metrics.entries.map fun e => (e.1, .number (.float e.2)))),
    ("labels", .object (n.labels.entries.map fun e => (e.1, .string e.2)))]

structure Draft where
  node : Option String := none
  timestamp : Option Int := none
  metrics : KeyMap Binary64 := ∅
  labels : KeyMap String := ∅

def fields : List String := ["node_id", "timestamp", "metrics", "labels"]

def readPart (key : String) (d : Json.Document) (draft : Draft) :
    Except Json.ReadError Draft := do
  match key with
  | "node_id" => pure { draft with node := some (← d.readString) }
  | "timestamp" => pure { draft with timestamp := some (← d.readSigned64) }
  | "metrics" => pure { draft with metrics := .ofList (← d.readEntries Json.Document.readFloat) }
  | _ => pure { draft with labels := .ofList (← d.readEntries Json.Document.readString) }

def read (d : Json.Document) : Except Json.ReadError NodeSnapshot := do
  let draft ← d.readRecord fields {} readPart
  pure {
    node := ← Json.Document.required draft.node
    timestamp := ← Json.Document.required draft.timestamp
    metrics := draft.metrics
    labels := draft.labels }

end NodeSnapshot

namespace Snapshot

def toJson (s : Snapshot) : Json :=
  .object [
    ("version", .string s.version),
    ("timestamp", .number (.int s.timestamp)),
    ("nodes", .array (s.nodes.map NodeSnapshot.toJson))]

structure Draft where
  version : Option String := none
  timestamp : Option Int := none
  nodes : List NodeSnapshot := []

def fields : List String := ["version", "timestamp", "nodes"]

def readPart (key : String) (d : Json.Document) (draft : Draft) :
    Except Json.ReadError Draft := do
  match key with
  | "version" => pure { draft with version := some (← d.readString) }
  | "timestamp" => pure { draft with timestamp := some (← d.readSigned64) }
  | _ => pure { draft with nodes := ← d.readList NodeSnapshot.read }

def read (d : Json.Document) : Except Json.ReadError Snapshot := do
  let draft ← d.readRecord fields {} readPart
  pure {
    version := ← Json.Document.required draft.version
    timestamp := ← Json.Document.required draft.timestamp
    nodes := draft.nodes }

def toText (s : Snapshot) : String := s.toJson.pretty

def ofText (text : String) : Except Json.ReadError Snapshot :=
  Json.readText read (Text.symbolsOf text)

end Snapshot
end MeshTelemetry
