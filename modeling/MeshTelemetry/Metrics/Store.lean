import MeshTelemetry.Data.Table
import MeshTelemetry.Message.Record

/-! The metric store: gauges of each node, counters of messages, and a series for
each node's identity. A labelled series is known by its label values run
together; two label sets that run together alike are one series, and the set that
made it stays on it. Counts of messages are natural numbers; none reaches the 2^64 at
which a counter of 64 bits starts over. -/

set_option autoImplicit false

namespace MeshTelemetry

/-- The labels of an identity series. Its value is always one. -/
structure InfoLabels where
  node : String
  identity : Identity
deriving DecidableEq

def InfoLabels.key (l : InfoLabels) : String :=
  l.node ++ l.identity.longName ++ l.identity.shortName ++ l.identity.hardware ++ l.identity.role

def InfoLabels.sorted (l : InfoLabels) : List (String × String) :=
  [("hardware", l.identity.hardware), ("long_name", l.identity.longName), ("node_id", l.node),
   ("role", l.identity.role), ("short_name", l.identity.shortName)]

structure CountLabels where
  node : String
  kind : String
deriving DecidableEq

def CountLabels.key (l : CountLabels) : String := l.node ++ l.kind

structure Store where
  gauges : Table (Gauge × String) Binary64 := ∅
  messages : Table String (CountLabels × Nat) := ∅
  info : Table String InfoLabels := ∅
  /-- The identity each node gave last. -/
  identities : Table String Identity := ∅
deriving DecidableEq

namespace Store

/-! Writing -/

def setGauge (s : Store) (g : Gauge) (node : String) (value : Binary64) : Store :=
  { s with gauges := s.gauges.insert (g, node) value }

def setReading (s : Store) (g : Gauge) (node : String) : Option Binary64 → Store
  | some value => s.setGauge g node value
  | none => s

def setReadings (s : Store) (node : String) (r : Readings) : Store :=
  Gauge.all.foldl (fun s g => s.setReading g node (r.get? g)) s

def countMessage (s : Store) (labels : CountLabels) : Store :=
  match s.messages.get? labels.key with
  | some (made, n) => { s with messages := s.messages.insert labels.key (made, n + 1) }
  | none => { s with messages := s.messages.insert labels.key (labels, 1) }

def touch (s : Store) (node : String) (timestamp : Int) (kind : MessageKind) : Store :=
  (s.setGauge .lastSeen node (Binary64.ofInt timestamp)).countMessage ⟨node, kind.name⟩

def recordTelemetry (s : Store) (r : TelemetryRecord) : Store :=
  (s.setReadings r.node r.readings).touch r.node r.timestamp .telemetry

/-- Take away the series of a node's former identity, if this one differs. -/
def dropFormerIdentity (s : Store) (node : String) (identity : Identity) : Store :=
  match s.identities.get? node with
  | some former =>
    if former = identity then s
    else { s with info := s.info.erase (InfoLabels.key ⟨node, former⟩) }
  | none => s

/-- Show an identity; a series that is there already keeps its labels. -/
def showIdentity (s : Store) (labels : InfoLabels) : Store :=
  if s.info.contains labels.key then s
  else { s with info := s.info.insert labels.key labels }

def setIdentity (s : Store) (node : String) (identity : Identity) : Store :=
  let s := (s.dropFormerIdentity node identity).showIdentity ⟨node, identity⟩
  { s with identities := s.identities.insert node identity }

def recordNodeInfo (s : Store) (r : NodeInfoRecord) : Store :=
  (s.setIdentity r.node r.identity).touch r.node r.timestamp .nodeInfo

def record (s : Store) : Record → Store
  | .telemetry r => s.recordTelemetry r
  | .nodeInfo r => s.recordNodeInfo r

def removeGauge (node : String) (state : Store × Nat) (g : Gauge) : Store × Nat :=
  if state.1.gauges.contains (g, node) then
    ({ state.1 with gauges := state.1.gauges.erase (g, node) }, state.2 + 1)
  else state

def expireNode (s : Store) (node : String) : Store × Nat :=
  (Gauge.all.filter Gauge.expires).foldl (removeGauge node) (s, 0)

/-! Reading -/

def gauge? (s : Store) (g : Gauge) (node : String) : Option Binary64 := s.gauges.get? (g, node)

def gaugeNodes (s : Store) (g : Gauge) : List String :=
  (s.gauges.keys.filter fun k => k.1 = g).map Prod.snd

def infoName : String := "meshtastic_node_info"

def messagesName : String := "meshtastic_messages_total"

def labelsBefore : (a b : List String) → Bool
  | [], _ => true
  | _ :: _, [] => false
  | a :: as, b :: bs => decide (a < b) || (a == b && labelsBefore as bs)

def infoSeries (s : Store) : List InfoLabels :=
  s.info.values.mergeSort fun a b =>
    labelsBefore (a.sorted.map Prod.snd) (b.sorted.map Prod.snd)

def messageSeries (s : Store) : List (CountLabels × Nat) :=
  s.messages.values.mergeSort fun a b =>
    labelsBefore [a.1.node, a.1.kind] [b.1.node, b.1.kind]

/-- The value of a series of a metric with this node label. A counter is no gauge
and reads as zero. -/
def value? (s : Store) (metric node : String) : Option Binary64 :=
  match Gauge.ofMetricName? metric with
  | some g => s.gauge? g node
  | none =>
    if metric = infoName then
      if s.info.values.any (fun l => l.node == node) then some (Binary64.ofNat 1) else none
    else if metric = messagesName then
      if s.messages.values.any (fun c => c.1.node == node) then some (Binary64.ofNat 0) else none
    else none

def messageCount (s : Store) (node kind : String) : Nat :=
  match s.messages.values.find? fun c => c.1.node == node && c.1.kind == kind with
  | some c => c.2
  | none => 0

end Store
end MeshTelemetry
