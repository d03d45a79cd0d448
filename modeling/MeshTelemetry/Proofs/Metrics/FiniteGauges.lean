import MeshTelemetry.Metrics.Persistence
import MeshTelemetry.Proofs.Json.Finiteness
import MeshTelemetry.Proofs.Metrics.Restoring
import MeshTelemetry.Proofs.Metrics.SnapshotText

/-! Finite values of a gauge. A snapshot that was read has finite metrics only, so what
is restored stays finite, and a gauge stays finite as long as what is recorded of it is. -/

set_option autoImplicit false

namespace MeshTelemetry

open Json (Document)

/-! Snapshots that were read -/

theorem NodeSnapshot.isFinite_of_read {d : Document} {n : NodeSnapshot} (hd : d.IsFinite)
    (h : read d = .ok n) : n.IsFinite := by
  obtain ⟨draft, hdraft, h⟩ := Json.bind_eq_ok_iff.mp h
  obtain ⟨node, _, h⟩ := Json.bind_eq_ok_iff.mp h
  obtain ⟨timestamp, _, h⟩ := Json.bind_eq_ok_iff.mp h
  cases h
  apply Document.readRecord_keeps (P := fun b : Draft => ∀ e ∈ b.metrics.entries, e.2.isFinite = true)
    _ hdraft (List.forall_mem_nil _)
  intro key p b b' hp hread hb
  unfold readPart at hread
  split at hread
  · obtain ⟨_, _, hread⟩ := Json.bind_eq_ok_iff.mp hread
    cases hread
    exact hb
  · obtain ⟨_, _, hread⟩ := Json.bind_eq_ok_iff.mp hread
    cases hread
    exact hb
  · obtain ⟨es, hes, hread⟩ := Json.bind_eq_ok_iff.mp hread
    cases hread
    intro e he
    obtain ⟨q, hq, hvalue⟩ := Document.mem_readEntries hes e (KeyMap.mem_of_mem_ofList he)
    obtain ⟨v, rfl, hv⟩ := Document.readFloat_eq_ok hvalue
    rw [← hv]
    exact ((hd.part hp).part hq).number
  · obtain ⟨_, _, hread⟩ := Json.bind_eq_ok_iff.mp hread
    cases hread
    exact hb

theorem Snapshot.isFinite_of_read {d : Document} {s : Snapshot} (hd : d.IsFinite)
    (h : read d = .ok s) : s.IsFinite := by
  obtain ⟨draft, hdraft, h⟩ := Json.bind_eq_ok_iff.mp h
  obtain ⟨version, _, h⟩ := Json.bind_eq_ok_iff.mp h
  obtain ⟨timestamp, _, h⟩ := Json.bind_eq_ok_iff.mp h
  cases h
  apply Document.readRecord_keeps (P := fun b : Draft => ∀ n ∈ b.nodes, n.IsFinite)
    _ hdraft (List.forall_mem_nil _)
  intro key p b b' hp hread hb
  unfold readPart at hread
  split at hread
  · obtain ⟨_, _, hread⟩ := Json.bind_eq_ok_iff.mp hread
    cases hread
    exact hb
  · obtain ⟨_, _, hread⟩ := Json.bind_eq_ok_iff.mp hread
    cases hread
    exact hb
  · obtain ⟨ns, hns, hread⟩ := Json.bind_eq_ok_iff.mp hread
    cases hread
    intro n hn
    obtain ⟨q, hq, hnode⟩ := Document.mem_readList hns n hn
    exact NodeSnapshot.isFinite_of_read ((hd.part hp).part hq) hnode

theorem Snapshot.isFinite_of_ofText {text : String} {s : Snapshot} (h : ofText text = .ok s) :
    s.IsFinite := by
  unfold ofText Json.readText at h
  simp only at h
  obtain ⟨a, ha, h⟩ := Json.bind_eq_ok_iff.mp h
  split at h
  · cases h
    exact isFinite_of_read (Document.isFinite_parse _) ha
  · cases h

theorem Persistence.isFinite_of_read {fs : FileSystem} {path : String} {s : Snapshot}
    (h : read fs path = .ok (some s)) : s.IsFinite := by
  unfold read at h
  simp only at h
  split at h
  · cases h
  · obtain ⟨there, _, h⟩ := Json.bind_eq_ok_iff.mp h
    split at h
    · cases h
    · obtain ⟨text, _, h⟩ := Json.bind_eq_ok_iff.mp h
      split at h
      · cases h
      · cases hsnapshot : Snapshot.ofText text with
        | error e =>
          rw [hsnapshot] at h
          cases h
        | ok snapshot =>
          rw [hsnapshot] at h
          cases h
          exact Snapshot.isFinite_of_ofText hsnapshot

/-! Readings -/

def Gauge.isRounded : Gauge → Bool
  | batteryLevel | uptime | rssi | snr | lastSeen => false
  | _ => true

/-- What a gauge can hold: a finite value or, where readings are rounded, the rounding of
a finite one. -/
def Gauge.CanHold (g : Gauge) (x : Binary64) : Prop :=
  x.isFinite = true ∨ g.isRounded = true ∧ ∃ y : Binary64, y.isFinite = true ∧ x = y.round2

theorem Readings.get?_rounded (r : Readings) (g : Gauge) :
    r.rounded.get? g = if g.isRounded then (r.get? g).map Binary64.round2 else r.get? g := by
  cases g <;> rfl

theorem Readings.isFinite_number? {ms : Json.Members} {key : String} {x : Binary64}
    (h : number? ms key = some x) : x.isFinite = true := by
  obtain ⟨v, _, hv⟩ := Option.bind_eq_some_iff.mp h
  exact (Option.filter_eq_some_iff.mp hv).2

theorem Readings.isFinite_get?_ofPayload {ms : Json.Members} {g : Gauge} {x : Binary64}
    (h : (ofPayload ms).get? g = some x) : x.isFinite = true := by
  cases g with
  | lastSeen => cases h
  | _ => exact isFinite_number? h

theorem Readings.canHold_of_ofPayload {ms : Json.Members} {g : Gauge} {x : Binary64}
    (h : (ofPayload ms).rounded.get? g = some x) : g.CanHold x := by
  rw [get?_rounded] at h
  split at h
  · rename_i hrounded
    obtain ⟨y, hy, hx⟩ := Option.map_eq_some_iff.mp h
    exact .inr ⟨hrounded, y, isFinite_get?_ofPayload hy, hx.symm⟩
  · exact .inl (isFinite_get?_ofPayload h)

theorem Message.canHold_of_ofEnvelope {now : Int} {e : Envelope} {m : Message} {g : Gauge}
    {x : Binary64} (hm : ofEnvelope now e = .ok m) (hx : m.readings.get? g = some x) :
    g.CanHold x := by
  unfold ofEnvelope at hm
  split at hm
  · cases hm
  · cases hm
    cases g with
    | rssi | snr =>
      rcases Option.or_eq_some_iff.mp hx with hbeside | ⟨_, hinside⟩
      · exact .inl (Readings.isFinite_number? hbeside)
      · exact Readings.canHold_of_ofPayload hinside
    | lastSeen => cases hx
    | _ => exact Readings.canHold_of_ofPayload hx

/-! Times -/

theorem Binary64.isFinite_ofInt_of_signed64 {i : Int}
    (h : leastSigned64 ≤ i ∧ i ≤ greatestSigned64) : (ofInt i).isFinite = true := by
  rw [leastSigned64, greatestSigned64] at h
  apply isFinite_ofInt
  omega

theorem Message.timestampOf_bounds {now : Int} (e : Envelope)
    (hnow : leastSigned64 ≤ now ∧ now ≤ greatestSigned64) :
    leastSigned64 ≤ timestampOf now e ∧ timestampOf now e ≤ greatestSigned64 := by
  unfold timestampOf
  cases hsent : ((Json.member? e "timestamp").bind Json.asSigned64?).filter (0 < ·) with
  | none => exact hnow
  | some i =>
    obtain ⟨v, _, hv⟩ := Option.bind_eq_some_iff.mp (Option.filter_eq_some_iff.mp hsent).1
    obtain ⟨n, _, hn⟩ := Option.bind_eq_some_iff.mp hv
    cases n with
    | float x => cases hn
    | int j =>
      rw [Json.Number.signed64?] at hn
      split at hn
      · rename_i hbounds
        cases hn
        exact hbounds
      · cases hn

theorem Message.timestamp_bounds_of_ofEnvelope {now : Int} {e : Envelope} {m : Message}
    (hnow : leastSigned64 ≤ now ∧ now ≤ greatestSigned64) (hm : ofEnvelope now e = .ok m) :
    leastSigned64 ≤ m.timestamp ∧ m.timestamp ≤ greatestSigned64 := by
  unfold ofEnvelope at hm
  split at hm
  · cases hm
  · cases hm
    exact timestampOf_bounds e hnow

/-! Stores -/

namespace Store

variable {s : Store}

def HoldsReadings (s : Store) : Prop := ∀ g m x, s.gauge? g m = some x → g.CanHold x

namespace HoldsReadings

theorem empty : HoldsReadings {} := by
  intro g m x hx
  cases hx

theorem recordTelemetry (h : s.HoldsReadings) {r : TelemetryRecord}
    (htime : (Binary64.ofInt r.timestamp).isFinite = true)
    (hreading : ∀ g x, r.readings.get? g = some x → g.CanHold x) :
    (s.recordTelemetry r).HoldsReadings := by
  intro g m x hx
  rw [gauge?_recordTelemetry] at hx
  split at hx
  · split at hx
    · rw [← Option.some.inj hx]
      exact .inl htime
    · rcases Option.or_eq_some_iff.mp hx with hnew | ⟨_, hold⟩
      · exact hreading g x hnew
      · exact h g m x hold
  · exact h g m x hx

theorem recordNodeInfo (h : s.HoldsReadings) {r : NodeInfoRecord}
    (htime : (Binary64.ofInt r.timestamp).isFinite = true) : (s.recordNodeInfo r).HoldsReadings := by
  intro g m x hx
  rw [gauge?_recordNodeInfo] at hx
  split at hx
  · rw [← Option.some.inj hx]
    exact .inl htime
  · exact h g m x hx

theorem expireNode (h : s.HoldsReadings) (node : String) : (s.expireNode node).1.HoldsReadings := by
  intro g m x hx
  rw [gauge?_expireNode] at hx
  split at hx
  · cases hx
  · exact h g m x hx

theorem restoreNode (h : s.HoldsReadings) {n : NodeSnapshot} (hn : n.IsFinite) :
    (s.restoreNode n).HoldsReadings := by
  by_cases hnamed : n.node = ""
  · rw [Store.restoreNode, hnamed]
    exact h
  · intro g m x hx
    rw [gauge?_restoreNode s hnamed] at hx
    split at hx
    · rcases Option.or_eq_some_iff.mp hx with hnew | ⟨_, hold⟩
      · exact .inl (hn _ ((KeyMap.get?_eq_some_iff ..).mp hnew))
      · exact h g m x hold
    · exact h g m x hx

theorem restore (h : s.HoldsReadings) {snapshot : Snapshot} (hsnapshot : snapshot.IsFinite) :
    (s.restore snapshot).1.HoldsReadings := by
  rw [Store.restore]
  unfold Snapshot.IsFinite at hsnapshot
  generalize snapshot.nodes = ns at hsnapshot ⊢
  induction ns generalizing s with
  | nil => exact h
  | cons n ns ih =>
    obtain ⟨hn, hns⟩ := List.forall_mem_cons.mp hsnapshot
    exact ih (h.restoreNode hn) hns

end HoldsReadings

def HasFiniteGauges (s : Store) : Prop := ∀ g m x, s.gauge? g m = some x → x.isFinite = true

/-- Whether some gauge holds a finite reading that is not finite any more once rounded. -/
def HoldsOverflow (s : Store) : Prop :=
  ∃ g m, ∃ y : Binary64, g.isRounded = true ∧ y.isFinite = true ∧ y.round2.isFinite = false ∧
    s.gauge? g m = some y.round2

theorem HoldsReadings.hasFiniteGauges_iff (h : s.HoldsReadings) :
    s.HasFiniteGauges ↔ ¬ s.HoldsOverflow := by
  constructor
  · rintro hfinite ⟨g, m, y, _, _, hover, hy⟩
    rw [hfinite g m _ hy] at hover
    cases hover
  · intro hnone g m x hx
    rcases h g m x hx with hfinite | ⟨hrounded, y, hy, rfl⟩
    · exact hfinite
    · cases hround : y.round2.isFinite with
      | true => rfl
      | false => exact absurd ⟨g, m, y, hrounded, hy, hround, hx⟩ hnone

end Store
end MeshTelemetry
