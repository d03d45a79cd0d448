import MeshTelemetry.Proofs.Metrics.Operations
import MeshTelemetry.Proofs.Metrics.Restoring

/-! What a snapshot shows of a store: an entry for each node that has a gauge or an
identity, in it each gauge under its name, the identity mark, and the labels of the
identity. -/

set_option autoImplicit false

namespace MeshTelemetry.Store

theorem mem_nodes_iff (s : Store) (m : String) :
    m ∈ s.nodes ↔ (∃ g x, s.gauge? g m = some x) ∨ ∃ l ∈ s.infoSeries, l.node = m := by
  rw [nodes, KeyMap.mem_keys_ofList]
  simp only [List.mem_append, List.mem_map, Prod.mk.injEq, and_true, exists_or, exists_const]
  refine or_congr ?_ ?_
  · constructor
    · rintro ⟨⟨g, n⟩, hmem, rfl⟩
      obtain ⟨x, hx⟩ := (Table.mem_keys_iff _ _).mp hmem
      exact ⟨g, x, hx⟩
    · rintro ⟨g, x, hx⟩
      exact ⟨(g, m), (Table.mem_keys_iff _ _).mpr ⟨x, hx⟩, rfl⟩
  · refine exists_congr fun l => and_congr_left' ?_
    rw [mem_infoSeries, Table.mem_values_iff]

theorem nodup_nodes (s : Store) : s.nodes.Nodup := KeyMap.nodup_keys _

theorem mem_infoOf (s : Store) (m : String) (l : InfoLabels) :
    l ∈ s.infoOf m ↔ l ∈ s.infoSeries ∧ l.node = m := by
  rw [infoOf, List.mem_filter, decide_eq_true_iff]

theorem mem_metrics (s : Store) (m name : String) (x : Binary64) :
    (name, x) ∈ (Gauge.all.filterMap fun g => (s.gauge? g m).map fun y => (g.metricName, y)) ++
        (s.infoOf m).map (fun _ => (infoName, Binary64.ofNat 1)) ↔
      (∃ g : Gauge, name = g.metricName ∧ s.gauge? g m = some x) ∨
        (name = infoName ∧ x = Binary64.ofNat 1 ∧ ∃ l ∈ s.infoSeries, l.node = m) := by
  rw [List.mem_append, List.mem_filterMap, List.mem_map]
  refine or_congr ?_ ?_
  · constructor
    · rintro ⟨g, _, hg⟩
      obtain ⟨y, hy, heq⟩ := Option.map_eq_some_iff.mp hg
      cases heq
      exact ⟨g, rfl, hy⟩
    · rintro ⟨g, rfl, hx⟩
      exact ⟨g, g.mem_all, by rw [hx, Option.map_some]⟩
  · constructor
    · rintro ⟨l, hl, heq⟩
      cases heq
      exact ⟨rfl, rfl, l, (mem_infoOf s m l).mp hl⟩
    · rintro ⟨rfl, rfl, l, hl⟩
      exact ⟨l, (mem_infoOf s m l).mpr hl, rfl⟩

theorem get?_metricsOf (s : Store) (m name : String) (x : Binary64) :
    (s.metricsOf m).get? name = some x ↔
      (∃ g : Gauge, name = g.metricName ∧ s.gauge? g m = some x) ∨
        (name = infoName ∧ x = Binary64.ofNat 1 ∧ ∃ l ∈ s.infoSeries, l.node = m) := by
  rw [metricsOf, KeyMap.get?_ofList_eq_some_iff, mem_metrics]
  intro y hy hx
  rcases (mem_metrics s m name y).mp hy with ⟨g, hg, hgy⟩ | ⟨hname, hy, _⟩ <;>
    rcases (mem_metrics s m name x).mp hx with ⟨g', hg', hgx⟩ | ⟨hname', hx, _⟩
  · have hsame : g = g' := Gauge.metricName_injective (hg.symm.trans hg')
    subst hsame
    exact Option.some.inj (hgy.symm.trans hgx)
  · exact absurd (hg.symm.trans hname') g.metricName_ne_infoName
  · exact absurd (hg'.symm.trans hname) g'.metricName_ne_infoName
  · rw [hx, hy]

theorem get?_metricsOf_gauge (s : Store) (m : String) (g : Gauge) :
    (s.metricsOf m).get? g.metricName = s.gauge? g m := by
  apply Option.ext
  intro x
  rw [get?_metricsOf]
  constructor
  · rintro (⟨h, hname, hx⟩ | ⟨hname, _⟩)
    · rw [Gauge.metricName_injective hname]
      exact hx
    · exact absurd hname g.metricName_ne_infoName
  · intro hx
    exact .inl ⟨g, rfl, hx⟩

theorem infoName_mem_metricsOf (s : Store) (m : String) :
    infoName ∈ (s.metricsOf m).keys ↔ ∃ l ∈ s.infoSeries, l.node = m := by
  rw [KeyMap.mem_keys_iff]
  constructor
  · rintro ⟨x, hx⟩
    rcases (get?_metricsOf s m infoName x).mp hx with ⟨g, hname, _⟩ | ⟨_, _, hl⟩
    · exact absurd hname.symm g.metricName_ne_infoName
    · exact hl
  · intro hl
    exact ⟨Binary64.ofNat 1, (get?_metricsOf ..).mpr (.inr ⟨rfl, rfl, hl⟩)⟩

theorem isRestored_nodeSnapshot {s : Store} (named : s.Named) (now : Int) {m : String}
    (hm : m ∈ s.nodes) : isRestored (s.nodeSnapshot now m) = true := by
  have hshown := (mem_nodes_iff s m).mp hm
  have hnode : m ≠ "" := by
    rcases hshown with ⟨g, x, hx⟩ | ⟨l, hl, rfl⟩
    · exact named.gauge g m x hx
    · exact named.info l hl
  have hmetric : (s.metricsOf m).keys.any isRestorable = true := by
    rw [List.any_eq_true]
    rcases hshown with ⟨g, x, hx⟩ | hl
    · refine ⟨g.metricName, (KeyMap.mem_keys_iff _ _).mpr ⟨x, ?_⟩, ?_⟩
      · rw [get?_metricsOf_gauge, hx]
      · rw [isRestorable, Gauge.ofMetricName?_metricName]
        rfl
    · refine ⟨infoName, (infoName_mem_metricsOf s m).mpr hl, ?_⟩
      rw [isRestorable, beq_self_eq_true, Bool.or_true]
  rw [isRestored, Bool.and_eq_true]
  exact ⟨by simpa [nodeSnapshot] using hnode, hmetric⟩

namespace Consistent

variable {s : Store}

theorem infoSeries_unique (h : s.Consistent) {l l' : InfoLabels} (hl : l ∈ s.infoSeries)
    (hl' : l' ∈ s.infoSeries) (hnode : l.node = l'.node) : l = l' := by
  have hlatest := h.infoLatest _ l ((h.mem_infoSeries l).mp hl)
  have hlatest' := h.infoLatest _ l' ((h.mem_infoSeries l').mp hl')
  rw [hnode, hlatest'] at hlatest
  cases l
  cases l'
  cases hnode
  cases hlatest
  rfl

theorem identityOfLabels_labelsOf (h : s.Consistent) {l : InfoLabels} (hl : l ∈ s.infoSeries) :
    identityOfLabels (s.labelsOf l.node) = l.identity := by
  have hlabel : ∀ name value : String, (name, value) ∈ l.sorted.filter (fun e => e.1 ≠ "node_id") →
      (∀ value', (name, value') ∈ l.sorted.filter (fun e => e.1 ≠ "node_id") → value' = value) →
      (s.labelsOf l.node).get? name = some value := by
    intro name value hmem hunique
    rw [labelsOf, KeyMap.get?_ofList_eq_some_iff]
    · exact List.mem_flatMap.mpr ⟨l, (mem_infoOf s l.node l).mpr ⟨hl, rfl⟩, hmem⟩
    · intro value' hvalue' _
      obtain ⟨l', hl', hmem'⟩ := List.mem_flatMap.mp hvalue'
      obtain ⟨hl', hnode⟩ := (mem_infoOf s l.node l').mp hl'
      rw [h.infoSeries_unique hl' hl hnode] at hmem'
      exact hunique value' hmem'
  have hlong := hlabel "long_name" l.identity.longName (by simp [InfoLabels.sorted])
    (by simp [InfoLabels.sorted])
  have hshort := hlabel "short_name" l.identity.shortName (by simp [InfoLabels.sorted])
    (by simp [InfoLabels.sorted])
  have hhardware := hlabel "hardware" l.identity.hardware (by simp [InfoLabels.sorted])
    (by simp [InfoLabels.sorted])
  have hrole := hlabel "role" l.identity.role (by simp [InfoLabels.sorted])
    (by simp [InfoLabels.sorted])
  rw [identityOfLabels, hlong, hshort, hhardware, hrole]
  rfl

end Consistent

end MeshTelemetry.Store
