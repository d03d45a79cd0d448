import MeshTelemetry.Proofs.Metrics.Restoration
import MeshTelemetry.Proofs.Metrics.SnapshotText

/-! A snapshot restored from its text. Each gauge comes back as its text is read, and
identities come back as they were: restoring the snapshot and restoring what its text
gives go through the same steps, node after node, and differ in the values of gauges. -/

set_option autoImplicit false

namespace MeshTelemetry

open Json (rereadFloat)

namespace Store

/-- A store whose gauges hold what the text of another's gauges gives, the rest being
the same. -/
structure Reread (s t : Store) : Prop where
  gauge : ∀ g m, t.gauge? g m = (s.gauge? g m).map rereadFloat
  info : t.info = s.info
  identities : t.identities = s.identities
  messages : t.messages = s.messages

namespace Reread

variable {s t : Store}

theorem empty : Reread {} {} := ⟨fun _ _ => rfl, rfl, rfl, rfl⟩

theorem restoreNode (h : Reread s t) (n : NodeSnapshot) :
    Reread (s.restoreNode n) (t.restoreNode n.reread) := by
  by_cases named : n.node = ""
  · have hname : n.reread.node = "" := named
    rw [Store.restoreNode, Store.restoreNode, named, hname]
    exact h
  · have hname : n.reread.node ≠ "" := named
    obtain ⟨hinfo, hidentities⟩ := info_restoreNode s named
    obtain ⟨hinfo', hidentities'⟩ := info_restoreNode t hname
    have hidentity := setIdentity_congr h.info h.identities n.node (identityOfLabels n.labels)
    simp only [NodeSnapshot.mem_keys_reread] at hinfo' hidentities'
    refine ⟨?_, ?_, ?_, ?_⟩
    · intro g m
      rw [gauge?_restoreNode s named, gauge?_restoreNode t hname, NodeSnapshot.get?_metrics_reread,
        h.gauge]
      show (if n.node = m then _ else _) = _
      split
      · rw [Option.map_or]
      · rfl
    · rw [hinfo, hinfo']
      split
      · exact hidentity.1
      · exact h.info
    · rw [hidentities, hidentities']
      split
      · exact hidentity.2
      · exact h.identities
    · rw [messages_restoreNode, messages_restoreNode, h.messages]

theorem restore (h : Reread s t) (snapshot : Snapshot) :
    Reread (s.restore snapshot).1 (t.restore snapshot.reread).1 := by
  rw [Store.restore, Store.restore, Snapshot.reread]
  simp only
  generalize snapshot.nodes = ns
  induction ns generalizing s t with
  | nil => exact h
  | cons n ns ih => exact ih (h.restoreNode n)

end Reread

variable {s : Store}

theorem Rebuilt.gauge?_eq {t : Store} (h : Rebuilt s s.nodes t) (g : Gauge) (m : String) :
    t.gauge? g m = s.gauge? g m := by
  rw [h.gauge]
  split
  · rfl
  · rename_i hm
    rw [eq_comm, Option.eq_none_iff_forall_ne_some]
    intro x hx
    exact hm ((mem_nodes_iff s m).mpr (.inl ⟨g, x, hx⟩))

theorem Rebuilt.info_eq {t : Store} (h : Rebuilt s s.nodes t) (k : String) :
    t.info.get? k = s.info.get? k := by
  apply Option.ext
  intro l
  rw [h.info, and_iff_left_iff_imp]
  intro hl
  exact (mem_nodes_iff s l.node).mpr (.inr ⟨l, (mem_infoSeries s l).mpr ⟨k, hl⟩, rfl⟩)

theorem restore_reread_snapshot (consistent : s.Consistent) (named : s.Named) (now : Int) :
    let t := (Store.restore {} (s.snapshot now).reread).1
    (∀ g m, t.gauge? g m = (s.gauge? g m).map rereadFloat) ∧
      (∀ k, t.info.get? k = s.info.get? k) ∧ t.messages = ∅ := by
  intro t
  have hrebuilt := rebuilt_restore_snapshot consistent named now
  have hreread : Reread _ t := Reread.empty.restore (s.snapshot now)
  refine ⟨?_, ?_, hreread.messages.trans hrebuilt.messages⟩
  · intro g m
    rw [hreread.gauge, hrebuilt.gauge?_eq]
  · intro k
    rw [hreread.info, hrebuilt.info_eq]

end Store
end MeshTelemetry
