import MeshTelemetry.Proofs.Exporter.Saving
import MeshTelemetry.Proofs.Json.Rereading
import MeshTelemetry.Proofs.Metrics.Rereading

/-! A restart: an exporter is saved and a fresh one loads the file. Identities come back
as they were. Each gauge comes back as its text is read: times and rounded readings keep
their values, while a reading of many digits can come back as a neighbouring number. -/

set_option autoImplicit false

namespace MeshTelemetry.Exporter

theorem load_of_read {files : FileSystem} {path : String} {snapshot : Snapshot}
    (h : Persistence.read files path = .ok (some snapshot)) (e : Exporter) (instant : Int) :
    ∃ e', e.load files path instant = .ok (e', (e.store.restore snapshot).2.length) ∧
      e'.store = (e.store.restore snapshot).1 := by
  rw [load, Persistence.load, h]
  exact ⟨_, rfl, store_foldl_touch ..⟩

/-- What a restart brings back of an exporter whose gauges are finite: every node, every
identity, and every gauge as its text is read, which leaves steady ones unchanged. -/
theorem gauges_restarted (filters filters' : List String) (calls : List Call)
    (fs fs' : FileSystem) (path : String) (now instant : Int)
    (hpath : Text.isBlankText path = false) (hlow : leastSigned64 ≤ now)
    (hhigh : now ≤ greatestSigned64)
    (finite : (callAll { filters } calls).store.HasFiniteGauges)
    (saved : (callAll { filters } calls).save fs path now = (fs', .ok ())) :
    let store := (callAll { filters } calls).store
    ∃ e', load { filters := filters' } fs' path instant =
        .ok (e', (store.snapshot now).nodes.length) ∧
      (∀ g m, e'.store.gauge? g m = (store.gauge? g m).map Json.rereadFloat) ∧
      (∀ g m x, store.gauge? g m = some x → Json.IsSteady x → e'.store.gauge? g m = some x) ∧
      ∀ k, e'.store.info.get? k = store.info.get? k := by
  intro store
  have hsnapshot : (store.snapshot now).IsFinite := (store.isFinite_snapshot_iff now).mpr finite
  have hread := Persistence.read_of_save hpath saved
  rw [Snapshot.ofText_toText (store.isTimed_snapshot hlow hhigh) hsnapshot] at hread
  obtain ⟨e', hload, hstore⟩ := load_of_read hread { filters := filters' } instant
  have hnamed := named_callAll filters calls
  obtain ⟨hgauge, hinfo, _⟩ :=
    Store.restore_reread_snapshot (consistent_callAll filters calls) hnamed now
  rw [← hstore] at hgauge hinfo
  rw [Store.length_restored_reread hnamed] at hload
  refine ⟨e', hload, hgauge, ?_, hinfo⟩
  intro g m x hx steady
  rw [hgauge, hx, Option.map_some, Json.rereadFloat_of_isSteady (finite g m x hx) steady]

def unevenBattery : List Call :=
  [.handle ⟨7, 0⟩ "t" ("\x7b\"from\":1,\"type\":\"telemetry\",\"payload\":\x7b" ++
    "\"battery_level\":97.72263261486514\x7d\x7d").toUTF8]

def unevenRecord : Record :=
  .telemetry ⟨"1", .device, 7, { batteryLevel := some ⟨0x40586e3f9cddf799⟩ }⟩

theorem callAll_unevenBattery : callAll {} unevenBattery = record {} 0 unevenRecord := by
  decide +kernel

theorem hasFiniteGauges_unevenBattery : (callAll {} unevenBattery).store.HasFiniteGauges := by
  intro g m x hx
  rw [callAll_unevenBattery] at hx
  have hshown := (Store.gauge?_recordTelemetry {} _ g m).symm.trans hx
  split at hshown
  · split at hshown
    · rw [← Option.some.inj hshown]
      exact Binary64.isFinite_ofInt (by decide)
    · cases g <;> cases hshown
      decide
  · cases hshown

/-- The restart moves the battery level to the number below, and keeps when the node was
heard. -/
theorem gauges_restarted_unevenBattery :
    ∃ fs' e' n, (callAll {} unevenBattery).save {} "state.json" 0 = (fs', .ok ()) ∧
      load {} fs' "state.json" 0 = .ok (e', n) ∧
      (callAll {} unevenBattery).store.gauge? .batteryLevel "1" = some ⟨0x40586e3f9cddf799⟩ ∧
      e'.store.gauge? .batteryLevel "1" = some ⟨0x40586e3f9cddf798⟩ ∧
      e'.store.gauge? .lastSeen "1" = some (Binary64.ofInt 7) := by
  have hdone : ((callAll {} unevenBattery).save {} "state.json" 0).2.toOption = some () := by
    rw [callAll_unevenBattery]
    decide +kernel
  have hsaved : (callAll {} unevenBattery).save {} "state.json" 0 = (_, .ok ()) :=
    Prod.ext rfl (eq_ok_of_toOption hdone)
  obtain ⟨e', hload, hgauge, hsteady, _⟩ := gauges_restarted [] [] unevenBattery {} _ "state.json"
    0 0 (by decide) (by decide) (by decide) hasFiniteGauges_unevenBattery hsaved
  have hbattery : (callAll {} unevenBattery).store.gauge? .batteryLevel "1" =
      some ⟨0x40586e3f9cddf799⟩ := by
    rw [callAll_unevenBattery]
    decide +kernel
  have hseen : (callAll {} unevenBattery).store.gauge? .lastSeen "1" =
      some (Binary64.ofInt 7) := by
    rw [callAll_unevenBattery]
    decide +kernel
  have hmoved : Json.rereadFloat ⟨0x40586e3f9cddf799⟩ = ⟨0x40586e3f9cddf798⟩ := by decide +kernel
  refine ⟨_, e', _, hsaved, hload, hbattery, ?_, ?_⟩
  · rw [hgauge, hbattery, Option.map_some, hmoved]
  · exact hsteady .lastSeen "1" _ hseen (.integer (by decide))

end MeshTelemetry.Exporter
