import MeshTelemetry.Proofs.Exporter.Isolation
import MeshTelemetry.Proofs.Exporter.Sweeping
import MeshTelemetry.Proofs.Metrics.Restoring

/-! No ephemeral gauge escapes expiry. The store and the activity are tables of their own,
linked by one invariant: a node that shows an ephemeral gauge is tracked. A loaded file
keeps it because every node that gets a gauge from it is among the restored ones, which
are marked as heard. So a sweep that finds all nodes silent leaves no ephemeral gauge. -/

set_option autoImplicit false

namespace MeshTelemetry

theorem Table.size_eq_zero {κ α : Type} [DecidableEq κ] {t : Table κ α}
    (h : ∀ k, t.get? k = none) : t.size = 0 := by
  rw [size, List.length_eq_zero_iff, List.eq_nil_iff_forall_not_mem]
  rintro ⟨k, a⟩ hmem
  have hfound := (get?_eq_some_iff t k a).mpr hmem
  rw [h] at hfound
  cases hfound

/-! What is restored is told. -/

namespace Store

theorem isRestored_of_metric {n : NodeSnapshot} {g : Gauge} {x : Binary64} (named : n.node ≠ "")
    (h : n.metrics.get? g.metricName = some x) : isRestored n = true := by
  have hkey : g.metricName ∈ n.metrics.keys := (KeyMap.mem_keys_iff ..).mpr ⟨x, h⟩
  have hrestorable : isRestorable g.metricName = true := by
    rw [isRestorable, Gauge.ofMetricName?_metricName]
    rfl
  rw [isRestored, Bool.and_eq_true, List.any_eq_true]
  exact ⟨by simpa using named, g.metricName, hkey, hrestorable⟩

theorem gauge?_restoreNode_cases {s : Store} {n : NodeSnapshot} {g : Gauge} {m : String}
    {x : Binary64} (h : (s.restoreNode n).gauge? g m = some x) :
    s.gauge? g m = some x ∨ n.node = m ∧ isRestored n = true := by
  by_cases named : n.node = ""
  · rw [restoreNode, named] at h
    exact .inl h
  · rw [gauge?_restoreNode s named] at h
    split at h
    · rename_i hm
      rcases Option.or_eq_some_iff.mp h with hnew | ⟨_, hold⟩
      · exact .inr ⟨hm, isRestored_of_metric named hnew⟩
      · exact .inl hold
    · exact .inl h

theorem gauge?_restore_cases {s : Store} {snapshot : Snapshot} {g : Gauge} {m : String}
    {x : Binary64} (h : (s.restore snapshot).1.gauge? g m = some x) :
    s.gauge? g m = some x ∨ m ∈ (s.restore snapshot).2 := by
  rw [restore] at h ⊢
  simp only at h ⊢
  generalize snapshot.nodes = ns at h ⊢
  induction ns generalizing s with
  | nil => exact .inl h
  | cons n ns ih =>
    rw [List.mem_map]
    rcases ih h with hshown | hlater
    · rcases gauge?_restoreNode_cases hshown with hold | ⟨rfl, hrestored⟩
      · exact .inl hold
      · exact .inr ⟨n, List.mem_filter.mpr ⟨List.mem_cons_self .., hrestored⟩, rfl⟩
    · obtain ⟨n', hn', rfl⟩ := List.mem_map.mp hlater
      obtain ⟨hmem, hrestored⟩ := List.mem_filter.mp hn'
      exact .inr ⟨n', List.mem_filter.mpr ⟨List.mem_cons_of_mem _ hmem, hrestored⟩, rfl⟩

end Store

namespace Exporter

/-! Marks -/

theorem contains_touch (e : Exporter) (node m : String) (instant : Int) :
    (e.touch node instant).activity.contains m = true ↔
      node = m ∨ e.activity.contains m = true := by
  rw [touch, Activity.touch, Activity.contains, Table.contains, Table.get?_insert,
    Activity.contains, Table.contains]
  by_cases hm : node = m
  · simp [hm]
  · simp [hm]

theorem contains_foldl_touch (nodes : List String) (instant : Int) (e : Exporter) (m : String) :
    (nodes.foldl (fun e node => e.touch node instant) e).activity.contains m = true ↔
      m ∈ nodes ∨ e.activity.contains m = true := by
  induction nodes generalizing e with
  | nil => simp
  | cons node nodes ih =>
    rw [List.foldl_cons, ih, contains_touch, List.mem_cons, ← or_assoc, or_comm (a := m ∈ nodes),
      eq_comm]

theorem load_cases {e e' : Exporter} {files : FileSystem} {path : String} {instant : Int} {n : Nat}
    (h : e.load files path instant = .ok (e', n)) :
    e' = e ∨ ∃ snapshot, e' = (e.store.restore snapshot).2.foldl
      (fun e node => e.touch node instant) { e with store := (e.store.restore snapshot).1 } := by
  unfold load Persistence.load at h
  split at h
  · cases h
  · rename_i store restored hload
    cases h
    split at hload
    · cases hload
    · cases hload
      exact .inl rfl
    · rename_i snapshot _
      cases hload
      exact .inr ⟨snapshot, rfl⟩

/-! The invariant -/

/-- Every node that shows an ephemeral gauge is tracked. -/
def Tracked (e : Exporter) : Prop :=
  ∀ g m x, g.expires = true → e.store.gauge? g m = some x → e.activity.contains m = true

namespace Tracked

variable {e : Exporter}

theorem start (filters : List String) : Tracked { filters } := by
  intro g m x _ hx
  cases hx

theorem record (h : e.Tracked) (instant : Int) (r : Record) : (e.record instant r).Tracked := by
  intro g m x hg hx
  rw [Exporter.record, contains_touch]
  by_cases hm : r.node = m
  · exact .inl hm
  · have hold : e.store.gauge? g m = some x :=
      (Store.gauge?_record_of_ne e.store r g (Ne.symm hm)).symm.trans hx
    exact .inr (h g m x hg hold)

theorem sweep (h : e.Tracked) (ttl : Nat) (now : Int) : (e.sweep ttl now).1.Tracked := by
  have hexpired := expired_sweep e ttl now
  intro g m x hg hx
  rw [hexpired.gauge] at hx
  split at hx
  · cases hx
  · rename_i hkept
    have hm : m ∉ (e.sweep ttl now).2 := fun hm => hkept ⟨hg, hm⟩
    rw [Activity.contains, Table.contains, hexpired.seen, if_neg hm]
    exact h g m x hg hx

theorem load (h : e.Tracked) {e' : Exporter} {files : FileSystem} {path : String} {instant : Int}
    {n : Nat} (hload : e.load files path instant = .ok (e', n)) : e'.Tracked := by
  rcases load_cases hload with rfl | ⟨snapshot, rfl⟩
  · exact h
  · intro g m x hg hx
    rw [store_foldl_touch] at hx
    rw [contains_foldl_touch]
    rcases Store.gauge?_restore_cases hx with hold | hrestored
    · exact .inr (h g m x hg hold)
    · exact .inl hrestored

theorem call (h : e.Tracked) (c : Call) : (e.call c).Tracked := by
  cases c with
  | handle now topic payload =>
    rcases handle_cases e now topic payload with ⟨r, _, hr⟩ | ⟨_, hsame⟩
    · rw [Exporter.call, hr]
      exact h.record now.instant r
    · rw [Exporter.call, hsame]
      exact h
  | sweep ttl now => exact h.sweep ttl now
  | load files path instant =>
    rw [Exporter.call]
    split
    · rename_i e' n hload
      exact h.load hload
    · exact h

theorem callAll (filters : List String) (calls : List Call) :
    (Exporter.callAll { filters } calls).Tracked :=
  callAll_keeps (start filters) fun _ c _ h => h.call c

end Tracked

/-- In every exporter that can be reached, a node that shows an ephemeral gauge is tracked.
So a sweep that comes more than the span after all that was heard takes every ephemeral
gauge and forgets every node; signal gauges, identities and counters stay. -/
theorem sweep_clears (filters : List String) (calls : List Call) :
    let e := callAll { filters } calls
    (∀ g m x, g.expires = true → e.store.gauge? g m = some x → e.activity.contains m = true) ∧
    ∀ (ttl : Nat) (now : Int), 0 < ttl →
      (∀ m seen, e.activity.seen.get? m = some seen → seen + ttl < now) →
      let e' := (e.sweep ttl now).1
      (∀ g m, g.expires = true → e'.store.gauge? g m = none) ∧
      e'.activity.size = 0 ∧
      (∀ g m, g.expires = false → e'.store.gauge? g m = e.store.gauge? g m) ∧
      e'.store.info = e.store.info ∧ e'.store.messages = e.store.messages := by
  intro e
  have htracked : e.Tracked := Tracked.callAll filters calls
  refine ⟨htracked, ?_⟩
  intro ttl now httl hlate e'
  have hexpired : Expired (e.sweep ttl now).2 e e' := expired_sweep e ttl now
  have hgone : ∀ m, e.activity.contains m = true → m ∈ (e.sweep ttl now).2 := by
    intro m hm
    obtain ⟨seen, hseen⟩ := (Table.contains_iff ..).mp hm
    exact (mem_sweep_iff e ttl now m).mpr ⟨httl, seen, hseen, hlate m seen hseen⟩
  refine ⟨?_, ?_, ?_, hexpired.info, hexpired.messages⟩
  · intro g m hg
    rw [hexpired.gauge]
    split
    · rfl
    · rename_i hkept
      rw [Option.eq_none_iff_forall_ne_some]
      intro x hx
      exact hkept ⟨hg, hgone m (htracked g m x hg hx)⟩
  · apply Table.size_eq_zero
    intro m
    rw [hexpired.seen]
    split
    · rfl
    · rename_i hkept
      exact Table.get?_eq_none_of_not_contains fun hm => hkept (hgone m hm)
  · intro g m hg
    rw [hexpired.gauge, if_neg]
    rintro ⟨hg', _⟩
    rw [hg] at hg'
    cases hg'

def oldSnapshot : FileSystem :=
  FileSystem.setFile {} ["state.json"]
    ("\x7b\"version\":\"\",\"timestamp\":0,\"nodes\":[" ++
      "\x7b\"node_id\":\"7\",\"timestamp\":0,\"metrics\":\x7b\"other\":1," ++
      "\"meshtastic_voltage_volts\":4,\"meshtastic_rssi_dbm\":-90\x7d\x7d]\x7d").toUTF8

/-- What a fresh exporter makes of it: node 7 with its two gauges, heard at the load. -/
def restoredExporter : Exporter where
  store := (({} : Store).setGauge .rssi "7" (Binary64.ofInt (-90))).setGauge
    .voltage "7" (Binary64.ofNat 4)
  activity := ({} : Activity).touch "7" 5

theorem load_oldSnapshot :
    callAll {} [.load oldSnapshot "state.json" 5] = restoredExporter := by
  decide +kernel

/-- The restored voltage goes with the first late sweep, and the restored signal stays. -/
theorem sweep_clears_restored :
    let e := callAll {} [.load oldSnapshot "state.json" 5]
    e.store.gauge? .voltage "7" = some (Binary64.ofNat 4) ∧ e.activity.contains "7" = true ∧
      (e.sweep 10 16).1.store.gauge? .voltage "7" = none ∧
      (e.sweep 10 16).1.store.gauge? .rssi "7" = some (Binary64.ofInt (-90)) ∧
      (e.sweep 10 16).1.activity.size = 0 := by
  obtain ⟨htracked, hsweep⟩ := sweep_clears [] [.load oldSnapshot "state.json" 5]
  rw [load_oldSnapshot] at htracked hsweep ⊢
  have hvoltage : restoredExporter.store.gauge? .voltage "7" = some (Binary64.ofNat 4) := by
    decide +kernel
  have hrssi : restoredExporter.store.gauge? .rssi "7" = some (Binary64.ofInt (-90)) := by
    decide +kernel
  have hlate : ∀ m seen, restoredExporter.activity.seen.get? m = some seen →
      seen + (10 : Nat) < 16 := by
    intro m seen hseen
    rw [Table.get?_eq_some_iff] at hseen
    cases List.mem_singleton.mp hseen
    decide
  obtain ⟨hgone, hnone, hkept, _⟩ := hsweep 10 16 (by decide) hlate
  exact ⟨hvoltage, htracked .voltage "7" _ rfl hvoltage, hgone .voltage "7" rfl,
    (hkept .rssi "7" rfl).trans hrssi, hnone⟩

end Exporter
end MeshTelemetry
