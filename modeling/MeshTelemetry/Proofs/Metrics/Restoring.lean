import MeshTelemetry.Proofs.Metrics.Views

/-! What restoring one node of a snapshot does to the four tables. Names tell the
metrics apart, so of all entries a gauge takes the one under its own name, and the
identity is set at most once. -/

set_option autoImplicit false

namespace MeshTelemetry

theorem Gauge.ofMetricName?_metricName (g : Gauge) : ofMetricName? g.metricName = some g := by
  cases g <;> decide +kernel

theorem Gauge.metricName_injective {g h : Gauge} (heq : g.metricName = h.metricName) : g = h := by
  have hread := congrArg ofMetricName? heq
  rw [ofMetricName?_metricName, ofMetricName?_metricName] at hread
  exact Option.some.inj hread

theorem Gauge.metricName_ne_infoName (g : Gauge) : g.metricName ≠ Store.infoName := by
  cases g <;> decide +kernel

theorem Gauge.ofMetricName?_eq_some_iff (name : String) (g : Gauge) :
    Gauge.ofMetricName? name = some g ↔ name = g.metricName := by
  constructor
  · intro h
    have hname := List.find?_some h
    exact (beq_iff_eq.mp hname).symm
  · rintro rfl
    exact ofMetricName?_metricName g

theorem Gauge.ofMetricName?_eq_none_iff (name : String) :
    Gauge.ofMetricName? name = none ↔ ∀ g : Gauge, name ≠ g.metricName := by
  rw [Option.eq_none_iff_forall_ne_some]
  exact forall_congr' fun g => not_congr (ofMetricName?_eq_some_iff name g)

namespace Store

theorem gauge?_restoreMetric (n : NodeSnapshot) (s : Store) (e : String × Binary64) (g : Gauge)
    (m : String) :
    (restoreMetric n s e).gauge? g m =
      if n.node = m ∧ e.1 = g.metricName then some e.2 else s.gauge? g m := by
  unfold restoreMetric
  split
  · rename_i h hname
    rw [Gauge.ofMetricName?_eq_some_iff] at hname
    rw [gauge?_setGauge, hname]
    by_cases hg : h = g
    · simp [hg]
    · have hnames : h.metricName ≠ g.metricName := fun he => hg (Gauge.metricName_injective he)
      simp [hg, hnames]
  · rename_i hname
    rw [Gauge.ofMetricName?_eq_none_iff] at hname
    have hother : ¬ (n.node = m ∧ e.1 = g.metricName) := fun h => hname g h.2
    rw [if_neg hother]
    split
    · exact gauge?_setIdentity ..
    · rfl

theorem messages_restoreMetric (n : NodeSnapshot) (s : Store) (e : String × Binary64) :
    (restoreMetric n s e).messages = s.messages := by
  unfold restoreMetric
  split
  · rfl
  · split
    · exact messages_setIdentity ..
    · rfl

/-- The identity of a node is all that its info mark restores. -/
theorem info_restoreMetric (n : NodeSnapshot) (s : Store) (e : String × Binary64) :
    (restoreMetric n s e).info =
        (if e.1 = infoName then s.setIdentity n.node (identityOfLabels n.labels) else s).info ∧
      (restoreMetric n s e).identities =
        (if e.1 = infoName then s.setIdentity n.node (identityOfLabels n.labels) else s).identities := by
  unfold restoreMetric
  split
  · rename_i g hname
    rw [Gauge.ofMetricName?_eq_some_iff] at hname
    have hinfo : e.1 ≠ infoName := hname ▸ Gauge.metricName_ne_infoName g
    rw [if_neg hinfo]
    exact ⟨rfl, rfl⟩
  · exact ⟨rfl, rfl⟩

theorem setIdentity_congr {s t : Store} (info : s.info = t.info)
    (identities : s.identities = t.identities) (node : String) (identity : Identity) :
    (s.setIdentity node identity).info = (t.setIdentity node identity).info ∧
      (s.setIdentity node identity).identities = (t.setIdentity node identity).identities := by
  refine ⟨?_, by rw [identities_setIdentity, identities_setIdentity, identities]⟩
  have hdrop : (s.dropFormerIdentity node identity).info =
      (t.dropFormerIdentity node identity).info := by
    unfold dropFormerIdentity
    rw [identities]
    split
    · split
      · exact info
      · exact congrArg (Table.erase · _) info
    · exact info
  show ((s.dropFormerIdentity node identity).showIdentity _).info =
    ((t.dropFormerIdentity node identity).showIdentity _).info
  unfold showIdentity
  rw [hdrop]
  split
  · exact hdrop
  · rfl

theorem gauge?_foldl_restoreMetric (n : NodeSnapshot) {es : List (String × Binary64)}
    (sorted : es.Pairwise fun a b => a.1 < b.1) (s : Store) (g : Gauge) (m : String) :
    (es.foldl (restoreMetric n) s).gauge? g m =
      if n.node = m then (es.lookup g.metricName).or (s.gauge? g m) else s.gauge? g m := by
  induction es generalizing s with
  | nil => simp
  | cons e es ih =>
    obtain ⟨hlt, hes⟩ := List.pairwise_cons.mp sorted
    rw [List.foldl_cons, ih hes, gauge?_restoreMetric, Table.lookup_cons]
    by_cases hm : n.node = m
    · by_cases hname : e.1 = g.metricName
      · have hlater : es.lookup g.metricName = none := by
          rw [Option.eq_none_iff_forall_ne_some]
          intro a ha
          exact String.ne_of_lt (hlt _ (Table.mem_of_lookup ha)) hname
        simp [hm, hname, hlater]
      · simp [hm, hname]
    · simp [hm]

theorem messages_foldl_restoreMetric (n : NodeSnapshot) (es : List (String × Binary64))
    (s : Store) : (es.foldl (restoreMetric n) s).messages = s.messages := by
  induction es generalizing s with
  | nil => rfl
  | cons e es ih => exact (ih _).trans (messages_restoreMetric n s e)

theorem info_foldl_restoreMetric (n : NodeSnapshot) {es : List (String × Binary64)}
    (sorted : es.Pairwise fun a b => a.1 < b.1) (s : Store) :
    let t := if infoName ∈ es.map Prod.fst
      then s.setIdentity n.node (identityOfLabels n.labels) else s
    (es.foldl (restoreMetric n) s).info = t.info ∧
      (es.foldl (restoreMetric n) s).identities = t.identities := by
  induction es generalizing s with
  | nil => exact ⟨rfl, rfl⟩
  | cons e es ih =>
    obtain ⟨hlt, hes⟩ := List.pairwise_cons.mp sorted
    obtain ⟨hinfo, hidentities⟩ := info_restoreMetric n s e
    obtain ⟨hinfo', hidentities'⟩ := ih hes (restoreMetric n s e)
    rw [List.foldl_cons, hinfo', hidentities']
    by_cases hname : e.1 = infoName
    · have hlater : infoName ∉ es.map Prod.fst := by
        intro hmem
        obtain ⟨x, hx, hxname⟩ := List.mem_map.mp hmem
        exact String.ne_of_lt (hlt x hx) (hname.trans hxname.symm)
      rw [if_neg hlater, if_pos (by simp [hname]), hinfo, hidentities, if_pos hname]
      exact ⟨rfl, rfl⟩
    · rw [if_neg hname] at hinfo hidentities
      by_cases hmem : infoName ∈ es.map Prod.fst
      · rw [if_pos hmem, if_pos (by simp only [List.map_cons, List.mem_cons, hmem, or_true])]
        exact setIdentity_congr hinfo hidentities n.node (identityOfLabels n.labels)
      · rw [if_neg hmem, if_neg (by simp only [List.map_cons, List.mem_cons, hmem, or_false]; exact fun h => hname h.symm)]
        exact ⟨hinfo, hidentities⟩

theorem gauge?_restoreNode (s : Store) {n : NodeSnapshot} (named : n.node ≠ "") (g : Gauge)
    (m : String) :
    (s.restoreNode n).gauge? g m =
      if n.node = m then (n.metrics.get? g.metricName).or (s.gauge? g m) else s.gauge? g m := by
  have hnode : ¬ n.node.isEmpty = true := by simpa using named
  rw [restoreNode, if_neg hnode, gauge?_foldl_restoreMetric n n.metrics.sorted]
  rfl

theorem messages_restoreNode (s : Store) (n : NodeSnapshot) :
    (s.restoreNode n).messages = s.messages := by
  unfold restoreNode
  split
  · rfl
  · exact messages_foldl_restoreMetric n _ s

theorem info_restoreNode (s : Store) {n : NodeSnapshot} (named : n.node ≠ "") :
    let t := if infoName ∈ n.metrics.keys
      then s.setIdentity n.node (identityOfLabels n.labels) else s
    (s.restoreNode n).info = t.info ∧ (s.restoreNode n).identities = t.identities := by
  have hnode : ¬ n.node.isEmpty = true := by simpa using named
  rw [restoreNode, if_neg hnode]
  exact info_foldl_restoreMetric n n.metrics.sorted s

theorem restore_fst (s : Store) (snapshot : Snapshot) :
    (s.restore snapshot).1 = snapshot.nodes.foldl restoreNode s := rfl

theorem messages_restore (s : Store) (snapshot : Snapshot) :
    (s.restore snapshot).1.messages = s.messages := by
  rw [restore_fst]
  induction snapshot.nodes generalizing s with
  | nil => rfl
  | cons n ns ih => exact (ih _).trans (messages_restoreNode s n)

end Store
end MeshTelemetry
