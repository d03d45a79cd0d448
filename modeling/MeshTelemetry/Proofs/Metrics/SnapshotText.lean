import MeshTelemetry.Metrics.Snapshot
import MeshTelemetry.Proofs.Data.KeyMap
import MeshTelemetry.Proofs.Json.Reading

/-! The text of a snapshot. It reads back as the same snapshot, each metric as its text
gives it, if all metrics are finite. One that is not is written as null, which is no
number to read, and then the whole text gives no snapshot. -/

set_option autoImplicit false

namespace MeshTelemetry

open Json (document rereadFloat)

namespace NodeSnapshot

/-- Whether the times of an entry are integers that a reader takes. -/
def IsTimed (n : NodeSnapshot) : Prop :=
  leastSigned64 ≤ n.timestamp ∧ n.timestamp ≤ greatestSigned64

def IsFinite (n : NodeSnapshot) : Prop := ∀ e ∈ n.metrics.entries, e.2.isFinite = true

def reread (n : NodeSnapshot) : NodeSnapshot :=
  { n with metrics := .ofList (n.metrics.entries.map fun e => (e.1, rereadFloat e.2)) }

theorem get?_metrics_reread (n : NodeSnapshot) (name : String) :
    n.reread.metrics.get? name = (n.metrics.get? name).map rereadFloat :=
  KeyMap.get?_ofList_map n.metrics rereadFloat name

theorem mem_keys_reread (n : NodeSnapshot) (name : String) :
    name ∈ n.reread.metrics.keys ↔ name ∈ n.metrics.keys := by
  rw [KeyMap.mem_keys_iff, KeyMap.mem_keys_iff, get?_metrics_reread]
  simp only [Option.map_eq_some_iff]
  exact ⟨fun ⟨_, x, hx, _⟩ => ⟨x, hx⟩, fun ⟨x, hx⟩ => ⟨_, x, hx, rfl⟩⟩

def metricsJson (n : NodeSnapshot) : Json :=
  .object (n.metrics.entries.map fun e => (e.1, .number (.float e.2)))

def labelsJson (n : NodeSnapshot) : Json := .object (n.labels.entries.map fun e => (e.1, .string e.2))

theorem read_metricsJson {n : NodeSnapshot} (h : n.IsFinite) :
    (document n.metricsJson).readEntries Json.Document.readFloat =
      .ok (n.metrics.entries.map fun e => (e.1, rereadFloat e.2)) :=
  Json.readEntries_ok (fun x => .number (.float x)) rereadFloat
    fun e he => Json.readFloat_document (h e he)

theorem read_metricsJson_error {n : NodeSnapshot} (h : ¬ n.IsFinite) :
    (document n.metricsJson).readEntries Json.Document.readFloat = .error .mismatched := by
  apply Json.readEntries_error fun x => .number (.float x)
  · intro e _
    cases he : e.2.isFinite with
    | true => exact .inr ⟨_, Json.readFloat_document he⟩
    | false => exact .inl (Json.readFloat_document_of_not_isFinite he)
  · obtain ⟨e, he⟩ := Classical.not_forall.mp h
    obtain ⟨hmem, hinfinite⟩ := Classical.not_imp.mp he
    exact ⟨e, hmem, Json.readFloat_document_of_not_isFinite (Bool.not_eq_true _ ▸ hinfinite)⟩

theorem read_labelsJson (n : NodeSnapshot) :
    (document n.labelsJson).readEntries Json.Document.readString = .ok n.labels.entries := by
  have hentries : (document n.labelsJson).readEntries Json.Document.readString =
      .ok (n.labels.entries.map fun e => (e.1, e.2)) :=
    Json.readEntries_ok .string (fun s => s) fun e _ => Json.readString_document e.2
  rw [hentries, List.map_id']

theorem document_toJson (n : NodeSnapshot) : document n.toJson = .object [
    (some "node_id", document (.string n.node)),
    (some "timestamp", document (.number (.int n.timestamp))),
    (some "metrics", document n.metricsJson),
    (some "labels", document n.labelsJson)] true := by
  rw [toJson, Json.document_object]
  rfl

theorem read_document {n : NodeSnapshot} (htimed : n.IsTimed) (h : n.IsFinite) :
    read (document n.toJson) = .ok n.reread := by
  have hnode := Json.readString_document n.node
  have htime := Json.readSigned64_document htimed.1 htimed.2
  have hmetrics := read_metricsJson h
  have hlabels := read_labelsJson n
  rw [document_toJson, read]
  simp [Json.Document.readRecord, Json.Document.readField, fields, readPart, hnode, htime,
    hmetrics, hlabels, Json.Document.required, KeyMap.ofList_entries, reread, bind, Except.bind,
    pure, Except.pure]

theorem read_document_error {n : NodeSnapshot} (htimed : n.IsTimed) (h : ¬ n.IsFinite) :
    read (document n.toJson) = .error .mismatched := by
  have hnode := Json.readString_document n.node
  have htime := Json.readSigned64_document htimed.1 htimed.2
  have hmetrics := read_metricsJson_error h
  rw [document_toJson, read]
  simp [Json.Document.readRecord, Json.Document.readField, fields, readPart, hnode, htime,
    hmetrics, bind, Except.bind, pure, Except.pure]

end NodeSnapshot

namespace Snapshot

structure IsTimed (s : Snapshot) : Prop where
  whole : leastSigned64 ≤ s.timestamp ∧ s.timestamp ≤ greatestSigned64
  nodes : ∀ n ∈ s.nodes, n.IsTimed

def IsFinite (s : Snapshot) : Prop := ∀ n ∈ s.nodes, n.IsFinite

def reread (s : Snapshot) : Snapshot := { s with nodes := s.nodes.map NodeSnapshot.reread }

def nodesJson (s : Snapshot) : Json := .array (s.nodes.map NodeSnapshot.toJson)

theorem document_toJson (s : Snapshot) : document s.toJson = .object [
    (some "version", document (.string s.version)),
    (some "timestamp", document (.number (.int s.timestamp))),
    (some "nodes", document s.nodesJson)] true := by
  rw [toJson, Json.document_object]
  rfl

theorem ofText_toText {s : Snapshot} (htimed : s.IsTimed) (h : s.IsFinite) :
    ofText s.toText = .ok s.reread := by
  have hversion := Json.readString_document s.version
  have htime := Json.readSigned64_document htimed.whole.1 htimed.whole.2
  have hnodes : (document s.nodesJson).readList NodeSnapshot.read =
      .ok (s.nodes.map NodeSnapshot.reread) :=
    Json.readList_ok NodeSnapshot.toJson NodeSnapshot.reread
      fun n hn => NodeSnapshot.read_document (htimed.nodes n hn) (h n hn)
  rw [ofText, toText, Json.readText_pretty, document_toJson, read]
  simp [Json.Document.readRecord, Json.Document.readField, fields, readPart, hversion, htime,
    hnodes, Json.Document.required, reread, bind, Except.bind, pure, Except.pure]

theorem ofText_toText_error {s : Snapshot} (htimed : s.IsTimed) (h : ¬ s.IsFinite) :
    ofText s.toText = .error .mismatched := by
  have hversion := Json.readString_document s.version
  have htime := Json.readSigned64_document htimed.whole.1 htimed.whole.2
  have hnodes : (document s.nodesJson).readList NodeSnapshot.read = .error .mismatched := by
    apply Json.readList_error NodeSnapshot.toJson
    · intro n hn
      rcases Classical.em n.IsFinite with hfinite | hinfinite
      · exact .inr ⟨_, NodeSnapshot.read_document (htimed.nodes n hn) hfinite⟩
      · exact .inl (NodeSnapshot.read_document_error (htimed.nodes n hn) hinfinite)
    · obtain ⟨n, hn⟩ := Classical.not_forall.mp h
      obtain ⟨hmem, hinfinite⟩ := Classical.not_imp.mp hn
      exact ⟨n, hmem, NodeSnapshot.read_document_error (htimed.nodes n hmem) hinfinite⟩
  rw [ofText, toText, Json.readText_pretty, document_toJson, read]
  simp [Json.Document.readRecord, Json.Document.readField, fields, readPart, hversion, htime,
    hnodes, bind, Except.bind, pure, Except.pure]

end Snapshot
end MeshTelemetry
