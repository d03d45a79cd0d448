import MeshTelemetry.Proofs.Exporter.Calls
import MeshTelemetry.Proofs.Metrics.FiniteGauges
import MeshTelemetry.Proofs.Metrics.Persistence
import MeshTelemetry.Proofs.Metrics.SnapshotViews

/-! A saved exporter and what loading it gives. The file can be loaded exactly if every
gauge is finite, and then all nodes of the snapshot are restored. One gauge that is not
finite makes the whole file unreadable, and rounding a finite reading can make one so. -/

set_option autoImplicit false

namespace MeshTelemetry

theorem Binary64.toSigned64_bounds (x : Binary64) :
    leastSigned64 ≤ x.toSigned64 ∧ x.toSigned64 ≤ greatestSigned64 := by
  have horder : leastSigned64 ≤ 0 ∧ 0 ≤ greatestSigned64 := by decide
  unfold toSigned64 clampTo
  split
  · exact horder
  · split
    · omega
    · split <;> omega

theorem NodeSnapshot.isRestored_reread (n : NodeSnapshot) :
    Store.isRestored n.reread = Store.isRestored n := by
  have hany : n.reread.metrics.keys.any Store.isRestorable = n.metrics.keys.any Store.isRestorable := by
    rw [Bool.eq_iff_iff, List.any_eq_true, List.any_eq_true]
    exact exists_congr fun k => and_congr_left' (n.mem_keys_reread k)
  rw [Store.isRestored, hany]
  rfl

namespace Store

variable {s : Store}

theorem isTimed_snapshot (s : Store) {now : Int} (hlow : leastSigned64 ≤ now)
    (hhigh : now ≤ greatestSigned64) : (s.snapshot now).IsTimed where
  whole := ⟨hlow, hhigh⟩
  nodes := by
    intro n hn
    obtain ⟨m, _, rfl⟩ := List.mem_map.mp hn
    rw [NodeSnapshot.IsTimed, nodeSnapshot]
    cases s.gauge? .lastSeen m with
    | none => exact ⟨hlow, hhigh⟩
    | some x => exact x.toSigned64_bounds

theorem isFinite_nodeSnapshot_iff (s : Store) (now : Int) (m : String) :
    (s.nodeSnapshot now m).IsFinite ↔ ∀ g x, s.gauge? g m = some x → x.isFinite = true := by
  constructor
  · intro h g x hx
    have hmetric : (s.metricsOf m).get? g.metricName = some x := by
      rw [get?_metricsOf_gauge, hx]
    exact h (g.metricName, x) ((KeyMap.get?_eq_some_iff ..).mp hmetric)
  · rintro h ⟨name, x⟩ hmem
    have hmetric : (s.metricsOf m).get? name = some x := (KeyMap.get?_eq_some_iff ..).mpr hmem
    rcases (get?_metricsOf s m name x).mp hmetric with ⟨g, _, hx⟩ | ⟨_, rfl, _⟩
    · exact h g x hx
    · exact Binary64.isFinite_ofNat (by decide)

theorem isFinite_snapshot_iff (s : Store) (now : Int) :
    (s.snapshot now).IsFinite ↔ s.HasFiniteGauges := by
  constructor
  · intro h g m x hx
    have hm : m ∈ s.nodes := (mem_nodes_iff s m).mpr (.inl ⟨g, x, hx⟩)
    have hnode := h (s.nodeSnapshot now m) (List.mem_map.mpr ⟨m, hm, rfl⟩)
    exact (isFinite_nodeSnapshot_iff s now m).mp hnode g x hx
  · intro h n hn
    obtain ⟨m, _, rfl⟩ := List.mem_map.mp hn
    rw [isFinite_nodeSnapshot_iff]
    intro g x
    exact h g m x

theorem length_restored_reread (named : s.Named) (t : Store) (now : Int) :
    (t.restore (s.snapshot now).reread).2.length = (s.snapshot now).nodes.length := by
  have hall : (s.snapshot now).reread.nodes.filter isRestored = (s.snapshot now).reread.nodes := by
    rw [List.filter_eq_self]
    intro n hn
    obtain ⟨shown, hshown, rfl⟩ := List.mem_map.mp hn
    obtain ⟨m, hm, rfl⟩ := List.mem_map.mp hshown
    rw [NodeSnapshot.isRestored_reread]
    exact isRestored_nodeSnapshot named now hm
  rw [restore, hall, List.length_map, Snapshot.reread, List.length_map]

end Store

namespace Exporter

theorem named_callAll (filters : List String) (calls : List Call) :
    (callAll { filters } calls).store.Named := by
  obtain ⟨ops, hnamed, hstore⟩ := store_callAll { filters } calls
  rw [hstore]
  exact Store.Named.empty.performAll hnamed

def Call.IsTimed : Call → Prop
  | .handle now _ _ => leastSigned64 ≤ now.unix ∧ now.unix ≤ greatestSigned64
  | _ => True

theorem holdsReadings_record {e : Exporter} {now : Moment} {topic : String} {payload : ByteArray}
    {r : Record} (timed : leastSigned64 ≤ now.unix ∧ now.unix ≤ greatestSigned64)
    (hjudge : judge e.filters now.unix topic payload = .ok (.recorded r))
    (h : e.store.HoldsReadings) : (e.store.record r).HoldsReadings := by
  obtain ⟨envelope, message, _, hmessage, hrecord⟩ := message_of_judge hjudge
  have htime := Binary64.isFinite_ofInt_of_signed64
    (Message.timestamp_bounds_of_ofEnvelope timed hmessage)
  unfold Message.record? at hrecord
  split at hrecord
  · cases hrecord
    exact h.recordTelemetry htime fun g x hx => Message.canHold_of_ofEnvelope hmessage hx
  · cases hrecord
    exact h.recordNodeInfo htime
  · cases hrecord

theorem holdsReadings_call {e : Exporter} {c : Call} (timed : c.IsTimed)
    (h : e.store.HoldsReadings) : (e.call c).store.HoldsReadings := by
  cases c with
  | handle now topic payload =>
    rcases handle_cases e now topic payload with ⟨r, hjudge, hr⟩ | ⟨_, hsame⟩
    · rw [call, hr]
      exact holdsReadings_record timed hjudge h
    · rw [call, hsame]
      exact h
  | sweep ttl now =>
    obtain ⟨nodes, hnodes⟩ := store_expireAll e (e.candidates ttl now)
    have hstore : (e.call (.sweep ttl now)).store = e.store.performAll (nodes.map .expire) := hnodes
    rw [hstore]
    apply Store.performAll_keeps h
    intro t op hop ht
    obtain ⟨node, _, rfl⟩ := List.mem_map.mp hop
    exact ht.expireNode node
  | load files path instant =>
    rw [call]
    split
    · rename_i e' n hload
      rcases store_load hload with hsame | ⟨snapshot, hread, hrestored⟩
      · rw [hsame]
        exact h
      · rw [hrestored]
        exact h.restore (Persistence.isFinite_of_read hread)
    · exact h

/-- In every exporter that can be reached, what is not finite was rounded from a finite
reading. -/
theorem holdsReadings_callAll (filters : List String) {calls : List Call}
    (timed : ∀ c ∈ calls, c.IsTimed) : (callAll { filters } calls).store.HoldsReadings :=
  callAll_keeps (P := fun e => e.store.HoldsReadings) Store.HoldsReadings.empty
    fun _ c hc h => holdsReadings_call (timed c hc) h

/-- What a fresh exporter makes of a saved file: all nodes of the snapshot, or no JSON of
the right shape if the rounding of a finite reading that was stored is not finite. -/
theorem load_of_save (filters filters' : List String) (calls : List Call)
    (timed : ∀ c ∈ calls, c.IsTimed) (fs fs' : FileSystem) (path : String) (now instant : Int)
    (hpath : Text.isBlankText path = false) (hlow : leastSigned64 ≤ now)
    (hhigh : now ≤ greatestSigned64)
    (saved : (callAll { filters } calls).save fs path now = (fs', .ok ())) :
    let store := (callAll { filters } calls).store
    (¬ store.HoldsOverflow ∧ ∃ e', load { filters := filters' } fs' path instant =
        .ok (e', (store.snapshot now).nodes.length)) ∨
      (store.HoldsOverflow ∧ load { filters := filters' } fs' path instant = .error .json) := by
  intro store
  have hread := Persistence.read_of_save hpath saved
  have htimed := store.isTimed_snapshot hlow hhigh
  have hfinite := (store.isFinite_snapshot_iff now).trans
    (holdsReadings_callAll filters timed).hasFiniteGauges_iff
  rcases Classical.em store.HoldsOverflow with hoverflow | hnone
  · refine .inr ⟨hoverflow, ?_⟩
    have hsnapshot : ¬ (store.snapshot now).IsFinite := fun h => hfinite.mp h hoverflow
    rw [Snapshot.ofText_toText_error htimed hsnapshot] at hread
    rw [load, Persistence.load, hread]
  · refine .inl ⟨hnone, ?_⟩
    rw [Snapshot.ofText_toText htimed (hfinite.mpr hnone)] at hread
    have hcount := Store.length_restored_reread (named_callAll filters calls) {} now
    rw [load, Persistence.load, hread, ← hcount]
    exact ⟨_, rfl⟩

def highVoltage : List Call :=
  [.handle ⟨0, 0⟩ "t" ("\x7b\"from\":1,\"type\":\"telemetry\",\"payload\":\x7b\"voltage\":" ++
    "1e308\x7d\x7d").toUTF8]

/-- The voltage is stored, the store is saved, and the file cannot be loaded again. -/
theorem highVoltage_not_loaded :
    ∃ fs', (callAll {} highVoltage).save {} "state.json" 0 = (fs', .ok ()) ∧
      (callAll {} highVoltage).store.HoldsOverflow ∧
      load {} fs' "state.json" 0 = .error .json := by
  have hdone : ((callAll {} highVoltage).save {} "state.json" 0).2.toOption = some () := by
    decide +kernel
  have htimed : ∀ c ∈ highVoltage, c.IsTimed := by
    intro c hc
    rw [List.mem_singleton.mp hc]
    exact ⟨by decide, by decide⟩
  have hoverflow : (callAll {} highVoltage).store.HoldsOverflow := by
    refine ⟨.voltage, "1", Binary64.tenPow 308, rfl, ?_, ?_, ?_⟩
    · decide +kernel
    · decide +kernel
    · decide +kernel
  obtain ⟨fs', hsaved⟩ : ∃ fs', (callAll {} highVoltage).save {} "state.json" 0 = (fs', .ok ()) :=
    ⟨_, Prod.ext rfl (eq_ok_of_toOption hdone)⟩
  refine ⟨fs', hsaved, hoverflow, ?_⟩
  rcases load_of_save [] [] highVoltage htimed {} fs' "state.json" 0 0 (by decide) (by decide)
    (by decide) hsaved with ⟨hnone, _⟩ | ⟨_, hload⟩
  · exact absurd hoverflow hnone
  · exact hload

end Exporter
end MeshTelemetry
