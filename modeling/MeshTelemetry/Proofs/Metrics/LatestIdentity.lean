import MeshTelemetry.Proofs.Metrics.SnapshotViews

/-! Which identity a node shows. A run gives identities to nodes, in records and in
restored snapshots, and a node shows the one given to it last or none. A node that has
just given one shows none only if another node's series stands where its labels run
together. -/

set_option autoImplicit false

namespace MeshTelemetry

/-- The identity that an entry of a snapshot gives, and the node it gives it to. -/
def NodeSnapshot.given? (n : NodeSnapshot) : Option (String × Identity) :=
  if n.node ≠ "" ∧ Store.infoName ∈ n.metrics.keys then
    some (n.node, Store.identityOfLabels n.labels)
  else none

namespace Store

def Operation.given : Operation → List (String × Identity)
  | .record (.telemetry _) => []
  | .record (.nodeInfo r) => [(r.node, r.identity)]
  | .expire _ => []
  | .restore snapshot => snapshot.nodes.filterMap NodeSnapshot.given?

def latestGiven? (ops : List Operation) (node : String) : Option Identity :=
  (ops.flatMap Operation.given).reverse.lookup node

/-! The hidden table keeps what was given last. -/

theorem lookup_singleton (k m : String) (i : Identity) :
    [(k, i)].lookup m = if k = m then some i else none := by
  by_cases hm : k = m
  · rw [if_pos hm, hm, List.lookup_cons_self]
  · rw [if_neg hm, List.lookup_cons, beq_false_of_ne (Ne.symm hm)]
    rfl

theorem identities_restoreNode (s : Store) (n : NodeSnapshot) (m : String) :
    (s.restoreNode n).identities.get? m =
      (n.given?.toList.lookup m).or (s.identities.get? m) := by
  by_cases hnamed : n.node = ""
  · have hgiven : n.given? = none := if_neg fun h => h.1 hnamed
    rw [hgiven, restoreNode, hnamed]
    rfl
  · rw [(info_restoreNode s hnamed).2]
    by_cases hmark : infoName ∈ n.metrics.keys
    · have hgiven : n.given? = some (n.node, identityOfLabels n.labels) := if_pos ⟨hnamed, hmark⟩
      rw [if_pos hmark, hgiven, identities_setIdentity, Table.get?_insert, Option.toList_some,
        lookup_singleton]
      split <;> rfl
    · have hgiven : n.given? = none := if_neg fun h => hmark h.2
      rw [if_neg hmark, hgiven]
      rfl

theorem identities_foldl_restoreNode (ns : List NodeSnapshot) (s : Store) (m : String) :
    (ns.foldl restoreNode s).identities.get? m =
      ((ns.filterMap NodeSnapshot.given?).reverse.lookup m).or (s.identities.get? m) := by
  induction ns generalizing s with
  | nil => rfl
  | cons n ns ih =>
    rw [List.foldl_cons, ih, identities_restoreNode, ← Option.or_assoc]
    cases hgiven : n.given? with
    | none => rw [List.filterMap_cons_none hgiven, Option.toList_none, List.lookup_nil, Option.or_none]
    | some given =>
      rw [List.filterMap_cons_some hgiven, List.reverse_cons, List.lookup_append,
        Option.toList_some]

theorem identities_perform (s : Store) (op : Operation) (m : String) :
    (s.perform op).identities.get? m =
      (op.given.reverse.lookup m).or (s.identities.get? m) := by
  cases op with
  | record r =>
    cases r with
    | telemetry r => rw [perform, record, identities_recordTelemetry]; rfl
    | nodeInfo r =>
      rw [perform, record, identities_recordNodeInfo, Table.get?_insert, Operation.given,
        List.reverse_singleton, lookup_singleton]
      split <;> rfl
  | expire node => rw [perform, identities_expireNode]; rfl
  | restore snapshot => exact identities_foldl_restoreNode snapshot.nodes s m

theorem identities_performAll (s : Store) (ops : List Operation) (m : String) :
    (s.performAll ops).identities.get? m = (latestGiven? ops m).or (s.identities.get? m) := by
  unfold latestGiven?
  induction ops generalizing s with
  | nil => rfl
  | cons op ops ih =>
    rw [performAll_cons, ih, identities_perform, List.flatMap_cons, List.reverse_append,
      List.lookup_append, Option.or_assoc]

/-! What a node shows -/

namespace Consistent

variable {s : Store}

theorem nodup_infoSeries (h : s.Consistent) : s.infoSeries.Nodup := by
  have hvalues : s.info.values.Nodup := by
    apply List.pairwise_map.mpr
    apply (List.pairwise_map.mp s.info.nodup).imp_of_mem
    rintro ⟨k, l⟩ ⟨k', l'⟩ hk hk' hkeys hsame
    have hkey := h.infoKey k l ((Table.get?_eq_some_iff ..).mpr hk)
    have hkey' := h.infoKey k' l' ((Table.get?_eq_some_iff ..).mpr hk')
    exact hkeys (hkey.symm.trans ((congrArg InfoLabels.key hsame).trans hkey'))
  exact (List.mergeSort_perm ..).nodup_iff.mpr hvalues

/-- A node shows no identity or the one that the hidden table keeps for it. -/
theorem infoOf_eq (h : s.Consistent) (m : String) :
    s.infoOf m = [] ∨ ∃ i, s.identities.get? m = some i ∧ s.infoOf m = [⟨m, i⟩] := by
  have hnodup : (s.infoOf m).Nodup := h.nodup_infoSeries.filter _
  have hmem := mem_infoOf s m
  cases hshown : s.infoOf m with
  | nil => exact .inl rfl
  | cons l ls =>
    rw [hshown] at hnodup hmem
    obtain ⟨hl, rfl⟩ := (hmem l).mp (List.mem_cons_self ..)
    have hone : ls = [] := by
      cases ls with
      | nil => rfl
      | cons l' ls =>
        obtain ⟨hl', hnode⟩ := (hmem l').mp (List.mem_cons_of_mem _ (List.mem_cons_self ..))
        have hsame := h.infoSeries_unique hl hl' hnode.symm
        exact absurd (hsame ▸ List.mem_cons_self ..) (List.nodup_cons.mp hnodup).1
    exact .inr ⟨l.identity, h.infoLatest _ l ((h.mem_infoSeries l).mp hl), by rw [hone]⟩

theorem infoOf_setIdentity (h : s.Consistent) (m : String) (i : Identity) :
    (s.setIdentity m i).infoOf m = [⟨m, i⟩] ∨
      ∃ l ∈ (s.setIdentity m i).infoSeries, l.node ≠ m ∧ l.key = InfoLabels.key ⟨m, i⟩ := by
  have hafter : (s.setIdentity m i).Consistent := h.setIdentity m i
  have htaken : ∃ l, (s.setIdentity m i).info.get? (InfoLabels.key ⟨m, i⟩) = some l := by
    rw [info_setIdentity, if_pos rfl]
    exact ⟨_, Option.or_some⟩
  obtain ⟨l, hl⟩ := htaken
  have hkey : l.key = InfoLabels.key ⟨m, i⟩ := hafter.infoKey _ l hl
  have hmem : l ∈ (s.setIdentity m i).infoSeries := (Store.mem_infoSeries _ l).mpr ⟨_, hl⟩
  by_cases hnode : l.node = m
  · left
    have hlatest : (s.setIdentity m i).identities.get? m = some i := by
      rw [identities_setIdentity, Table.get?_insert, if_pos rfl]
    rcases hafter.infoOf_eq m with hnone | ⟨i', hi', hone⟩
    · have hshown := (mem_infoOf _ m l).mpr ⟨hmem, hnode⟩
      rw [hnone] at hshown
      cases hshown
    · rw [hlatest] at hi'
      cases hi'
      exact hone
  · exact .inr ⟨l, hmem, hnode, hkey⟩

end Consistent

/-- After every run a node shows one identity at most, the one given to it last. A record
of its identity shows it, unless the labels run together like a series of another node. -/
theorem infoOf_performAll (ops : List Operation) (node : String) :
    let s := performAll {} ops
    (s.infoOf node = [] ∨
      ∃ identity, latestGiven? ops node = some identity ∧ s.infoOf node = [⟨node, identity⟩]) ∧
    ∀ (identity : Identity) (timestamp : Int),
      let s' := s.recordNodeInfo ⟨node, identity, timestamp⟩
      s'.infoOf node = [⟨node, identity⟩] ∨
        ∃ l ∈ s'.infoSeries, l.node ≠ node ∧ l.key = InfoLabels.key ⟨node, identity⟩ := by
  intro s
  have hconsistent : s.Consistent := Consistent.empty.performAll ops
  constructor
  · rcases hconsistent.infoOf_eq node with hnone | ⟨identity, hidentity, hone⟩
    · exact .inl hnone
    · rw [identities_performAll, Table.get?_empty, Option.or_none] at hidentity
      exact .inr ⟨identity, hidentity, hone⟩
  · intro identity timestamp s'
    have hseries : s'.infoSeries = (s.setIdentity node identity).infoSeries := by
      rw [infoSeries, info_recordNodeInfo]
      rfl
    rw [infoOf, hseries]
    exact hconsistent.infoOf_setIdentity node identity

end Store
end MeshTelemetry
