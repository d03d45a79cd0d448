import MeshTelemetry.Proofs.Metrics.LatestIdentity
import MeshTelemetry.Proofs.Text.ByteOrder

/-! A snapshot and direct reads agree. After every run the nodes of a snapshot are those with a
gauge or an identity, each once and in the order of their bytes, and a node's entry holds under
every name what a read of that name gives, its identity's labels, and when it was last heard. -/

set_option autoImplicit false

namespace MeshTelemetry.Store

def IsCovered (metric : String) : Prop := (∃ g : Gauge, metric = g.metricName) ∨ metric = infoName

def Shows (s : Store) (node : String) : Prop :=
  (∃ g x, s.gauge? g node = some x) ∨ ∃ l ∈ s.infoSeries, l.node = node

/-- What the entry of a node holds beside the values of its series. -/
structure Describes (s : Store) (taken : Int) (n : NodeSnapshot) : Prop where
  covered : ∀ metric ∈ n.metrics.keys, IsCovered metric
  uncounted : messagesName ∉ n.metrics.keys
  labelled : ∀ l ∈ s.infoSeries, l.node = n.node →
    n.labels.entries = [("hardware", l.identity.hardware), ("long_name", l.identity.longName),
      ("role", l.identity.role), ("short_name", l.identity.shortName)]
  unlabelled : (∀ l ∈ s.infoSeries, l.node ≠ n.node) → n.labels.entries = []
  heard : ∀ x, s.gauge? .lastSeen n.node = some x → n.timestamp = x.toSigned64
  unheard : s.gauge? .lastSeen n.node = none → n.timestamp = taken

variable {s : Store}

/-! Values -/

theorem value?_metricName (s : Store) (g : Gauge) (node : String) :
    s.value? g.metricName node = s.gauge? g node := by
  rw [value?, Gauge.ofMetricName?_metricName]

theorem value?_infoName (s : Store) (node : String) (x : Binary64) :
    s.value? infoName node = some x ↔
      x = Binary64.ofNat 1 ∧ ∃ l ∈ s.infoSeries, l.node = node := by
  have hgauge : Gauge.ofMetricName? infoName = none :=
    (Gauge.ofMetricName?_eq_none_iff _).mpr fun g => g.metricName_ne_infoName.symm
  have hshown : (s.info.values.any fun l => l.node == node) = true ↔
      ∃ l ∈ s.infoSeries, l.node = node := by
    rw [List.any_eq_true]
    refine exists_congr fun l => and_congr ?_ beq_iff_eq
    rw [mem_infoSeries, Table.mem_values_iff]
  rw [value?, hgauge]
  dsimp only
  rw [if_pos rfl, ← hshown]
  split
  · rename_i hany
    rw [Option.some.injEq, eq_comm]
    exact (and_iff_left hany).symm
  · rename_i hnone
    exact ⟨nofun, fun h => absurd h.2 hnone⟩

theorem value?_eq_get?_metricsOf (s : Store) {metric : String} (h : IsCovered metric)
    (node : String) : s.value? metric node = (s.metricsOf node).get? metric := by
  obtain ⟨g, rfl⟩ | rfl := h
  · rw [value?_metricName, get?_metricsOf_gauge]
  · apply Option.ext
    intro x
    rw [value?_infoName, get?_metricsOf]
    constructor
    · exact fun h => .inr ⟨rfl, h⟩
    · rintro (⟨g, hname, _⟩ | ⟨_, h⟩)
      · exact absurd hname.symm g.metricName_ne_infoName
      · exact h

theorem shows_of_get?_metricsOf {metric node : String} {x : Binary64}
    (h : (s.metricsOf node).get? metric = some x) : s.Shows node := by
  rcases (get?_metricsOf s node metric x).mp h with ⟨g, _, hx⟩ | ⟨_, _, hl⟩
  · exact .inl ⟨g, x, hx⟩
  · exact .inr hl

theorem isCovered_of_mem_metricsOf {metric node : String}
    (h : metric ∈ (s.metricsOf node).keys) : IsCovered metric := by
  obtain ⟨x, hx⟩ := (KeyMap.mem_keys_iff _ _).mp h
  rcases (get?_metricsOf s node metric x).mp hx with ⟨g, hname, _⟩ | ⟨hname, _⟩
  · exact .inl ⟨g, hname⟩
  · exact .inr hname

theorem not_isCovered_messagesName : ¬ IsCovered messagesName := by
  rintro (⟨g, hname⟩ | hname)
  · cases g <;> exact absurd hname (by decide +kernel)
  · exact absurd hname (by decide +kernel)

/-! Labels -/

theorem entries_labelsOf_of_infoOf {l : InfoLabels} (h : s.infoOf l.node = [l]) :
    (s.labelsOf l.node).entries = [("hardware", l.identity.hardware),
      ("long_name", l.identity.longName), ("role", l.identity.role),
      ("short_name", l.identity.shortName)] := by
  let labels : KeyMap String :=
    ⟨[("hardware", l.identity.hardware), ("long_name", l.identity.longName),
      ("role", l.identity.role), ("short_name", l.identity.shortName)], by
      simp only [List.pairwise_cons, List.forall_mem_cons, List.not_mem_nil, false_imp_iff,
        implies_true, List.Pairwise.nil, and_true]
      decide⟩
  have hsorted : l.sorted.filter (fun e => e.1 ≠ "node_id") = labels.entries := rfl
  rw [labelsOf, h, List.flatMap_singleton, hsorted, KeyMap.ofList_entries]

theorem infoOf_eq_nil {node : String} (h : ∀ l ∈ s.infoSeries, l.node ≠ node) :
    s.infoOf node = [] := by
  rw [infoOf, List.filter_eq_nil_iff]
  intro l hl
  simpa using h l hl

theorem Consistent.infoOf_singleton (h : s.Consistent) {l : InfoLabels} (hl : l ∈ s.infoSeries) :
    s.infoOf l.node = [l] := by
  have hmem := (mem_infoOf s l.node l).mpr ⟨hl, rfl⟩
  rcases h.infoOf_eq l.node with hnil | ⟨i, _, hone⟩
  · rw [hnil] at hmem
    cases hmem
  · rw [hone, List.mem_singleton] at hmem
    rw [hone, hmem]

/-! Entries -/

theorem Consistent.describes (h : s.Consistent) (now : Int) (node : String) :
    s.Describes now (s.nodeSnapshot now node) where
  covered := fun _ hmetric => isCovered_of_mem_metricsOf hmetric
  uncounted := fun hcounter => not_isCovered_messagesName (isCovered_of_mem_metricsOf hcounter)
  labelled := by
    intro l hl hnode
    cases hnode
    exact entries_labelsOf_of_infoOf (h.infoOf_singleton hl)
  unlabelled := by
    intro hnone
    have hnone : s.infoOf node = [] := infoOf_eq_nil hnone
    show (s.labelsOf node).entries = []
    rw [labelsOf, hnone]
    rfl
  heard := by
    intro x hx
    have hx : s.gauge? .lastSeen node = some x := hx
    show ((s.gauge? .lastSeen node).map Binary64.toSigned64).getD now = _
    rw [hx, Option.map_some, Option.getD_some]
  unheard := by
    intro hnone
    have hnone : s.gauge? .lastSeen node = none := hnone
    show ((s.gauge? .lastSeen node).map Binary64.toSigned64).getD now = _
    rw [hnone, Option.map_none, Option.getD_none]

theorem nodes_snapshot (s : Store) (now : Int) :
    (s.snapshot now).nodes.map NodeSnapshot.node = s.nodes := by
  rw [snapshot, List.map_map]
  exact List.map_id _

/-- After every run, the nodes of a snapshot are those with a gauge or an identity, in the
order of their bytes and each once. A series is read with a value exactly if its node's entry
holds that value under its name; no entry holds a counter, and each has the labels of its
node's identity and the time its node was last heard. -/
theorem snapshot_agrees (ops : List Operation) (now : Int) :
    let s := performAll {} ops
    let snapshot := s.snapshot now
    (snapshot.nodes.map NodeSnapshot.node).Pairwise
        (fun a b => a.toUTF8.data.toList < b.toUTF8.data.toList) ∧
      (∀ node, node ∈ snapshot.nodes.map NodeSnapshot.node ↔ s.Shows node) ∧
      (∀ metric, IsCovered metric → ∀ node x, s.value? metric node = some x ↔
        ∃ n ∈ snapshot.nodes, n.node = node ∧ n.metrics.get? metric = some x) ∧
      ∀ n ∈ snapshot.nodes, s.Describes snapshot.timestamp n := by
  intro s snapshot
  have hconsistent : s.Consistent := Consistent.empty.performAll ops
  refine ⟨?_, ?_, ?_, ?_⟩
  · rw [nodes_snapshot]
    exact (KeyMap.pairwise_keys _).imp Text.toUTF8_lt
  · intro node
    rw [nodes_snapshot]
    exact mem_nodes_iff s node
  · intro metric hmetric node x
    rw [value?_eq_get?_metricsOf s hmetric]
    constructor
    · intro hx
      have hnode : node ∈ s.nodes := (mem_nodes_iff s node).mpr (shows_of_get?_metricsOf hx)
      exact ⟨_, List.mem_map_of_mem hnode, rfl, hx⟩
    · rintro ⟨n, hn, rfl, hx⟩
      obtain ⟨node, _, rfl⟩ := List.mem_map.mp hn
      exact hx
  · intro n hn
    obtain ⟨node, _, rfl⟩ := List.mem_map.mp hn
    exact hconsistent.describes now node

/-- Node 10 was heard and fell silent, so of it only the signal and the identity are left; node 9
was restored with a voltage and was never heard. -/
def partlySilent : List Operation :=
  [.record (.telemetry ⟨"10", .device, 50, { rssi := some (Binary64.ofNat 3) }⟩),
   .record (.nodeInfo ⟨"10", ⟨"Ten", "T", "1", "2"⟩, 60⟩),
   .expire "10",
   .restore ⟨"1.0", 70, [⟨"9", 70, .ofList [("meshtastic_voltage_volts", Binary64.ofNat 4)], ∅⟩]⟩]

theorem snapshot_agrees_partlySilent :
    let snapshot := (performAll {} partlySilent).snapshot 90
    IsCovered infoName ∧
      ∃ n ∈ snapshot.nodes, n.node = "10" ∧
        n.metrics.get? infoName = some (Binary64.ofNat 1) ∧ n.timestamp = 90 ∧
        n.labels.entries =
          [("hardware", "1"), ("long_name", "Ten"), ("role", "2"), ("short_name", "T")] := by
  intro snapshot
  obtain ⟨_, _, reads, describes⟩ := snapshot_agrees partlySilent 90
  have hcovered : IsCovered infoName := .inr rfl
  have hread : (performAll {} partlySilent).value? infoName "10" = some (Binary64.ofNat 1) := by
    decide +kernel
  obtain ⟨n, hn, hnode, hx⟩ := (reads infoName hcovered "10" _).mp hread
  have hdescribes := describes n hn
  have hunheard : (performAll {} partlySilent).gauge? .lastSeen n.node = none := by
    rw [hnode]
    decide +kernel
  have hseries : ⟨"10", ⟨"Ten", "T", "1", "2"⟩⟩ ∈ (performAll {} partlySilent).infoSeries := by
    rw [mem_infoSeries]
    exact ⟨"10TenT12", by decide +kernel⟩
  exact ⟨hcovered, n, hn, hnode, hx, hdescribes.unheard hunheard,
    hdescribes.labelled _ hseries hnode.symm⟩

end MeshTelemetry.Store
