import MeshTelemetry.Metrics.Store

/-! The text in which metrics are scraped: for each metric that has series, its
help and type, then a line for each series. Metrics come in the order of their
names, series in the order of their label values, labels in the order of theirs. -/

set_option autoImplicit false

namespace MeshTelemetry

namespace Exposition

structure Sample where
  labels : List (String × String)
  value : String

structure Family where
  name : String
  help : String
  type : String
  samples : List Sample

def escape : Char → List Char
  | '\\' => ['\\', '\\']
  | '\n' => ['\\', 'n']
  | '"' => ['\\', '"']
  | c => [c]

def labelText (label : String × String) : String :=
  label.1 ++ "=\"" ++ String.ofList (label.2.toList.flatMap escape) ++ "\""

def Sample.text (name : String) (s : Sample) : String :=
  name ++ "\x7b" ++ ",".intercalate (s.labels.map labelText) ++ "\x7d " ++ s.value ++ "\n"

def Family.text (f : Family) : String :=
  "# HELP " ++ f.name ++ " " ++ f.help ++ "\n# TYPE " ++ f.name ++ " " ++ f.type ++ "\n" ++
    String.join (f.samples.map (Sample.text f.name))

/-- A metric without series is not shown. -/
def text (families : List Family) : String :=
  String.join ((families.filter fun f => !f.samples.isEmpty).map Family.text)

end Exposition

namespace Store

open Exposition

def gaugeFamily (s : Store) (g : Gauge) : Family where
  name := g.metricName
  help := g.help
  type := "gauge"
  samples := ((s.gaugeNodes g).mergeSort fun a b => decide (a ≤ b)).filterMap fun node =>
    (s.gauge? g node).map fun x => ⟨[("node_id", node)], NumberLayout.metric.text x⟩

def messagesFamily (s : Store) : Family where
  name := messagesName
  help := "Messages processed per node and type"
  type := "counter"
  samples := s.messageSeries.map fun c =>
    ⟨[("node_id", c.1.node), ("type", c.1.kind)], toString c.2⟩

def infoFamily (s : Store) : Family where
  name := infoName
  help := "Node identity, value is always 1"
  type := "gauge"
  samples := s.infoSeries.map fun l => ⟨l.sorted, "1"⟩

def families (s : Store) : List Family :=
  (s.messagesFamily :: s.infoFamily :: Gauge.all.map s.gaugeFamily).mergeSort
    fun a b => decide (a.name ≤ b.name)

def exposition (s : Store) : String := Exposition.text s.families

end Store
end MeshTelemetry
