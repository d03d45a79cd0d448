import MeshTelemetry.Proofs.Metrics.SnapshotViews

/-! A snapshot restored into an empty store rebuilds the store. Nodes come back one
after another, and what has come back so far is what the store shows of them. No
two series of a store share a key, so no node finds its key taken, although the
labels of different nodes may have run together alike before. -/

set_option autoImplicit false

namespace MeshTelemetry.Store

/-- A store that shows of some nodes what another shows of them, and nothing else. -/
structure Rebuilt (s : Store) (nodes : List String) (t : Store) : Prop where
  gauge : ∀ g m, t.gauge? g m = if m ∈ nodes then s.gauge? g m else none
  info : ∀ k l, t.info.get? k = some l ↔ s.info.get? k = some l ∧ l.node ∈ nodes
  identities : ∀ m i, t.identities.get? m = some i → m ∈ nodes
  messages : t.messages = ∅

namespace Rebuilt

variable {s t : Store} {nodes : List String} {m : String}

theorem empty (s : Store) : Rebuilt s [] {} where
  gauge := by
    intro g m
    rw [if_neg List.not_mem_nil]
    rfl
  info := by
    intro k l
    constructor
    · intro h
      cases h
    · intro h
      exact absurd h.2 List.not_mem_nil
  identities := by intro m i h; cases h
  messages := rfl

theorem info_restoreNode (h : Rebuilt s nodes t) (consistent : s.Consistent) (now : Int)
    (named : m ≠ "") (new : m ∉ nodes) (k : String) (l : InfoLabels) :
    (t.restoreNode (s.nodeSnapshot now m)).info.get? k = some l ↔
      s.info.get? k = some l ∧ l.node ∈ nodes ++ [m] := by
  rw [(Store.info_restoreNode t (n := s.nodeSnapshot now m) named).1, List.mem_append,
    List.mem_singleton]
  split
  · rename_i hmark
    obtain ⟨own, hown, rfl⟩ := (infoName_mem_metricsOf s m).mp hmark
    have hformer : t.formerKey? own.node own.identity = none := by
      cases hold : t.identities.get? own.node with
      | none => rw [formerKey?, hold]; rfl
      | some i => exact absurd (h.identities own.node i hold) new
    have hidentity : identityOfLabels (s.nodeSnapshot now own.node).labels = own.identity :=
      consistent.identityOfLabels_labelsOf hown
    have hshown := (consistent.mem_infoSeries own).mp hown
    rw [hidentity]
    show (t.setIdentity own.node own.identity).info.get? k = some l ↔ _
    rw [info_setIdentity, hformer, if_neg (Option.some_ne_none k).symm, Option.or_eq_some_iff]
    constructor
    · rintro (hold | ⟨_, hnew⟩)
      · obtain ⟨hs, hl⟩ := (h.info k l).mp hold
        exact ⟨hs, .inl hl⟩
      · split at hnew
        · rename_i hk
          cases hnew
          exact ⟨hk ▸ hshown, .inr rfl⟩
        · cases hnew
    · rintro ⟨hs, hl | hl⟩
      · exact .inl ((h.info k l).mpr ⟨hs, hl⟩)
      · have hmem : l ∈ s.infoSeries := (Store.mem_infoSeries s l).mpr ⟨k, hs⟩
        cases consistent.infoSeries_unique hmem hown hl
        refine .inr ⟨?_, if_pos (consistent.infoKey k l hs)⟩
        rw [Option.eq_none_iff_forall_ne_some]
        intro l' hl'
        obtain ⟨hs', hnode⟩ := (h.info k l').mp hl'
        cases hs'.symm.trans hs
        exact new hnode
  · rename_i hmark
    rw [h.info]
    constructor
    · rintro ⟨hs, hl⟩
      exact ⟨hs, .inl hl⟩
    · rintro ⟨hs, hl | hl⟩
      · exact ⟨hs, hl⟩
      · exact absurd ((infoName_mem_metricsOf s m).mpr
          ⟨l, (Store.mem_infoSeries s l).mpr ⟨k, hs⟩, hl⟩) hmark

theorem restoreNode (h : Rebuilt s nodes t) (consistent : s.Consistent) (now : Int)
    (named : m ≠ "") (new : m ∉ nodes) :
    Rebuilt s (nodes ++ [m]) (t.restoreNode (s.nodeSnapshot now m)) where
  gauge := by
    intro g m'
    rw [gauge?_restoreNode t (n := s.nodeSnapshot now m) named, h.gauge]
    simp only [List.mem_append, List.mem_singleton]
    by_cases hm : m = m'
    · subst hm
      rw [if_pos (show (s.nodeSnapshot now m).node = m from rfl), if_neg new, Option.or_none,
        if_pos (.inr rfl)]
      exact get?_metricsOf_gauge s m g
    · rw [if_neg (show (s.nodeSnapshot now m).node ≠ m' from hm)]
      simp [Ne.symm hm]
  info := h.info_restoreNode consistent now named new
  identities := by
    intro m' i hi
    rw [(Store.info_restoreNode t (n := s.nodeSnapshot now m) named).2] at hi
    rw [List.mem_append, List.mem_singleton]
    split at hi
    · rw [identities_setIdentity, Table.get?_insert] at hi
      split at hi
      · rename_i hm
        exact .inr hm.symm
      · exact .inl (h.identities m' i hi)
    · exact .inl (h.identities m' i hi)
  messages := (messages_restoreNode t _).trans h.messages

theorem restoreNodes (consistent : s.Consistent) (now : Int) (ms nodes : List String)
    (nodup : (nodes ++ ms).Nodup) (named : ∀ m ∈ ms, m ≠ "") (t : Store)
    (h : Rebuilt s nodes t) :
    Rebuilt s (nodes ++ ms) ((ms.map (s.nodeSnapshot now)).foldl Store.restoreNode t) := by
  induction ms generalizing nodes t with
  | nil =>
    rw [List.append_nil]
    exact h
  | cons m ms ih =>
    have hnew : m ∉ nodes := by
      intro hmem
      exact (List.nodup_append.mp nodup).2.2 m hmem m (List.mem_cons_self ..) rfl
    have hstep := h.restoreNode consistent now (named m (List.mem_cons_self ..)) hnew
    rw [List.append_cons] at nodup ⊢
    exact ih (nodes ++ [m]) nodup (fun m' hm' => named m' (List.mem_cons_of_mem _ hm')) _ hstep

end Rebuilt

theorem rebuilt_restore_snapshot {s : Store} (consistent : s.Consistent) (named : s.Named)
    (now : Int) : Rebuilt s s.nodes (Store.restore {} (s.snapshot now)).1 := by
  have hnodes : ∀ m ∈ s.nodes, m ≠ "" := by
    intro m hm
    rcases (mem_nodes_iff s m).mp hm with ⟨g, x, hx⟩ | ⟨l, hl, rfl⟩
    · exact named.gauge g m x hx
    · exact named.info l hl
  exact Rebuilt.restoreNodes consistent now s.nodes [] (nodup_nodes s) hnodes {} (Rebuilt.empty s)

theorem restored_nodes_snapshot {s : Store} (named : s.Named) (t : Store) (now : Int) :
    (t.restore (s.snapshot now)).2 = (s.snapshot now).nodes.map NodeSnapshot.node := by
  rw [restore]
  apply congrArg (List.map NodeSnapshot.node)
  rw [List.filter_eq_self]
  intro n hn
  obtain ⟨m, hm, rfl⟩ := List.mem_map.mp hn
  exact isRestored_nodeSnapshot named now hm

/-- The snapshot of a store, restored into an empty one, gives every gauge and every
identity series of the store and no counter, and names the nodes it restored. -/
theorem restore_snapshot (ops : List Operation) (named : ∀ op ∈ ops, op.IsNamed) (now : Int) :
    let s := performAll {} ops
    let restored := restore {} (s.snapshot now)
    (∀ g m, restored.1.gauge? g m = s.gauge? g m) ∧
      (∀ k, restored.1.info.get? k = s.info.get? k) ∧
      restored.1.messageSeries = [] ∧
      restored.2 = (s.snapshot now).nodes.map NodeSnapshot.node := by
  intro s restored
  have hconsistent : s.Consistent := Consistent.empty.performAll ops
  have hnamed : s.Named := Named.empty.performAll named
  have hrebuilt : Rebuilt s s.nodes restored.1 := rebuilt_restore_snapshot hconsistent hnamed now
  refine ⟨?_, ?_, ?_, restored_nodes_snapshot hnamed {} now⟩
  · intro g m
    rw [hrebuilt.gauge]
    split
    · rfl
    · rename_i hm
      rw [eq_comm, Option.eq_none_iff_forall_ne_some]
      intro x hx
      exact hm ((mem_nodes_iff s m).mpr (.inl ⟨g, x, hx⟩))
  · intro k
    apply Option.ext
    intro l
    rw [hrebuilt.info]
    constructor
    · exact And.left
    · intro hl
      have hmem : l ∈ s.infoSeries := (mem_infoSeries s l).mpr ⟨k, hl⟩
      exact ⟨hl, (mem_nodes_iff s l.node).mpr (.inr ⟨l, hmem, rfl⟩)⟩
  · rw [messageSeries, hrebuilt.messages]
    exact List.mergeSort_nil

/-- Node 1 is named 23 and node 12 is named 3, so the two share a series; then node 1
falls silent. -/
def sharedIdentities : List Operation :=
  [.record (.nodeInfo ⟨"1", ⟨"23", "", "unknown", "unknown"⟩, 5⟩),
   .record (.nodeInfo ⟨"12", ⟨"3", "", "unknown", "unknown"⟩, 6⟩),
   .expire "1"]

theorem restore_snapshot_sharedIdentities :
    let restored := restore {} ((performAll {} sharedIdentities).snapshot 9)
    (∀ op ∈ sharedIdentities, op.IsNamed) ∧
      restored.1.gauge? .lastSeen "1" = none ∧
      restored.1.gauge? .lastSeen "12" = some (Binary64.ofInt 6) ∧
      restored.1.info.get? "123unknownunknown" =
        some ⟨"1", ⟨"23", "", "unknown", "unknown"⟩⟩ ∧
      restored.1.messageSeries = [] ∧
      restored.2 = ["1", "12"] := by
  intro restored
  have hnamed : ∀ op ∈ sharedIdentities, op.IsNamed := by
    simp [sharedIdentities, Operation.IsNamed, Record.node]
  obtain ⟨hgauge, hinfo, hmessages, hnodes⟩ := restore_snapshot sharedIdentities hnamed 9
  refine ⟨hnamed, ?_, ?_, ?_, hmessages, ?_⟩
  · exact (hgauge .lastSeen "1").trans (by decide +kernel)
  · exact (hgauge .lastSeen "12").trans (by decide +kernel)
  · exact (hinfo "123unknownunknown").trans (by decide +kernel)
  · exact hnodes.trans (by decide +kernel)

end MeshTelemetry.Store
