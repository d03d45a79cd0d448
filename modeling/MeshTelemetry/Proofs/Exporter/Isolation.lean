import MeshTelemetry.Proofs.Exporter.Calls

/-! What a recorded message does to the series of other nodes. Gauges and counters
of other nodes never change. An identity series of another node goes in one case
only: the sender had given another identity before, and the labels of that one,
run together, are the labels of the other node's series run together. -/

set_option autoImplicit false

namespace MeshTelemetry

/-- Counters of different nodes never run together alike: no kind that is counted
ends like another. -/
theorem CountLabels.node_eq_of_key_eq {a b : CountLabels} (h : a.key = b.key)
    (ha : a.kind = MessageKind.telemetry.name ∨ a.kind = MessageKind.nodeInfo.name)
    (hb : b.kind = MessageKind.telemetry.name ∨ b.kind = MessageKind.nodeInfo.name) :
    a.node = b.node := by
  have hchars : a.node.toList ++ a.kind.toList = b.node.toList ++ b.kind.toList := by
    rw [← String.toList_append, ← String.toList_append]
    exact congrArg String.toList h
  have hlast := congrArg List.getLast? hchars
  have hkind : a.kind = b.kind := by
    rcases ha with ha | ha <;> rcases hb with hb | hb <;> rw [ha, hb] at hlast ⊢ <;>
      simp [MessageKind.name] at hlast
  rw [hkind] at hchars
  exact String.toList_inj.mp (List.append_cancel_right hchars)

theorem Record.kind_name (r : Record) :
    r.kind.name = MessageKind.telemetry.name ∨ r.kind.name = MessageKind.nodeInfo.name := by
  cases r with
  | telemetry r => exact .inl rfl
  | nodeInfo r => exact .inr rfl

theorem CountLabels.eq_of_key_eq {a b : CountLabels} (h : a.key = b.key)
    (ha : a.kind = MessageKind.telemetry.name ∨ a.kind = MessageKind.nodeInfo.name)
    (hb : b.kind = MessageKind.telemetry.name ∨ b.kind = MessageKind.nodeInfo.name) : a = b := by
  have hnode := node_eq_of_key_eq h ha hb
  have hchars := congrArg String.toList h
  rw [key, key, String.toList_append, String.toList_append, hnode] at hchars
  have hkind := String.toList_inj.mp (List.append_cancel_left hchars)
  cases a
  cases b
  exact congr (congrArg _ hnode) hkind

def Record.countLabels (r : Record) : CountLabels := ⟨r.node, r.kind.name⟩

namespace Store

theorem messages_record (s : Store) (r : Record) :
    (s.record r).messages = (s.countMessage ⟨r.node, r.kind.name⟩).messages := by
  cases r with
  | telemetry r => exact messages_recordTelemetry s r
  | nodeInfo r => exact messages_recordNodeInfo s r

theorem gauge?_record_of_ne (s : Store) (r : Record) (g : Gauge) {m : String}
    (hm : m ≠ r.node) : (s.record r).gauge? g m = s.gauge? g m := by
  cases r with
  | telemetry r =>
    rw [record, gauge?_recordTelemetry]
    exact if_neg (Ne.symm hm)
  | nodeInfo r =>
    rw [record, gauge?_recordNodeInfo]
    exact if_neg fun h => hm h.2.symm

/-- The key under which a record takes an identity series away. -/
def displacedKey? (s : Store) : Record → Option String
  | .telemetry _ => none
  | .nodeInfo r => s.formerKey? r.node r.identity

/-- The series of all nodes but one are the same in two stores. -/
structure SameBut (node : String) (s t : Store) : Prop where
  gauge : ∀ g m, m ≠ node → t.gauge? g m = s.gauge? g m
  messages : ∀ c : CountLabels × Nat, c.1.node ≠ node → (c ∈ t.messageSeries ↔ c ∈ s.messageSeries)
  info : ∀ l : InfoLabels, l.node ≠ node → (l ∈ t.infoSeries ↔ l ∈ s.infoSeries)

variable {s : Store}

theorem Consistent.mem_messageSeries_record_of_ne (h : s.Consistent) (r : Record)
    {c : CountLabels × Nat} (hc : c.1 ≠ r.countLabels) :
    c ∈ (s.record r).messageSeries ↔ c ∈ s.messageSeries := by
  have hother : ∀ t : Store, t.Consistent → t.messages.get? c.1.key = some c →
      r.countLabels.key ≠ c.1.key := by
    intro t ht hget hkey
    exact hc (CountLabels.eq_of_key_eq hkey r.kind_name (ht.countKind _ c.1 c.2 hget)).symm
  rw [(h.record r).mem_messageSeries, h.mem_messageSeries]
  constructor
  · intro hget
    have hkey := hother _ (h.record r) hget
    rw [messages_record, ← Record.countLabels, messages_countMessage, if_neg hkey] at hget
    exact hget
  · intro hget
    rw [messages_record, ← Record.countLabels, messages_countMessage, if_neg (hother s h hget)]
    exact hget

theorem Consistent.mem_messageSeries_record (h : s.Consistent) (r : Record)
    {c : CountLabels × Nat} (hc : c.1.node ≠ r.node) :
    c ∈ (s.record r).messageSeries ↔ c ∈ s.messageSeries :=
  h.mem_messageSeries_record_of_ne r fun hsame => hc (congrArg CountLabels.node hsame)

theorem Consistent.mem_infoSeries_record (h : s.Consistent) (r : Record) {l : InfoLabels}
    (hl : l.node ≠ r.node) :
    l ∈ (s.record r).infoSeries ↔ l ∈ s.infoSeries ∧ s.displacedKey? r ≠ some l.key := by
  rw [(h.record r).mem_infoSeries, h.mem_infoSeries]
  cases r with
  | telemetry r =>
    rw [Store.record, info_recordTelemetry]
    exact ⟨fun hget => ⟨hget, (Option.some_ne_none _).symm⟩, And.left⟩
  | nodeInfo r =>
    rw [Store.record, info_recordNodeInfo, info_setIdentity, Option.or_eq_some_iff, displacedKey?]
    constructor
    · rintro (hold | ⟨_, hnew⟩)
      · split at hold
        · cases hold
        · rename_i hkept
          exact ⟨hold, hkept⟩
      · split at hnew
        · cases hnew
          exact absurd rfl hl
        · cases hnew
    · rintro ⟨hget, hkept⟩
      exact .inl ((if_neg hkept).trans hget)

theorem Consistent.sameBut_record_iff (h : s.Consistent) (r : Record) :
    SameBut r.node s (s.record r) ↔
      ∀ l ∈ s.infoSeries, l.node ≠ r.node → s.displacedKey? r ≠ some l.key := by
  constructor
  · intro hsame l hl hnode
    exact ((h.mem_infoSeries_record r hnode).mp ((hsame.info l hnode).mpr hl)).2
  · intro hkept
    refine ⟨fun g m hm => gauge?_record_of_ne s r g hm,
      fun c hc => h.mem_messageSeries_record r hc, ?_⟩
    intro l hnode
    rw [h.mem_infoSeries_record r hnode]
    exact ⟨And.left, fun hl => ⟨hl, hkept l hl hnode⟩⟩

end Store

namespace Exporter

/-- A recorded message leaves the series of all other nodes alone exactly if none
of them stands where the sender's former identity was shown. Otherwise that one
series is lost, and nothing else of the other nodes changes. -/
theorem handle_sameBut_iff (filters : List String) (calls : List Call) (now : Moment)
    (topic : String) (payload : ByteArray) (r : Record)
    (h : ((callAll { filters } calls).handle now topic payload).2 = .ok (.recorded r)) :
    let before := (callAll { filters } calls).store
    let after := ((callAll { filters } calls).handle now topic payload).1.store
    (Store.SameBut r.node before after ↔
      ∀ l ∈ before.infoSeries, l.node ≠ r.node → before.displacedKey? r ≠ some l.key) ∧
    (∀ g m, m ≠ r.node → after.gauge? g m = before.gauge? g m) ∧
    (∀ c : CountLabels × Nat, c.1.node ≠ r.node →
      (c ∈ after.messageSeries ↔ c ∈ before.messageSeries)) ∧
    (∀ l : InfoLabels, l.node ≠ r.node → (l ∈ after.infoSeries ↔
      l ∈ before.infoSeries ∧ before.displacedKey? r ≠ some l.key)) := by
  intro before after
  have hbefore : before.Consistent := consistent_callAll filters calls
  have hafter : after = before.record r := by
    show ((callAll { filters } calls).handle now topic payload).1.store = _
    rw [handle_of_recorded h]
    rfl
  rw [hafter]
  exact ⟨hbefore.sameBut_record_iff r, fun g m hm => Store.gauge?_record_of_ne before r g hm,
    fun c hc => hbefore.mem_messageSeries_record r hc,
    fun l hl => hbefore.mem_infoSeries_record r hl⟩

def namingMessage (node name : String) : ByteArray :=
  ("\x7b\"from\":" ++ node ++ ",\"type\":\"nodeinfo\",\"payload\":\x7b\"longname\":\"" ++
    name ++ "\"\x7d\x7d").toUTF8

/-- Node 1 is named 23 and node 12 is named 3, so the two share a series. -/
def sharedSeries : List Call :=
  [.handle ⟨0, 0⟩ "t" (namingMessage "1" "23"), .handle ⟨0, 0⟩ "t" (namingMessage "12" "3")]

/-- When node 12 is renamed, node 1 loses its identity. -/
theorem renaming_takes_shared_series :
    ((callAll {} sharedSeries).handle ⟨0, 0⟩ "t" (namingMessage "12" "4")).2 =
      .ok (.recorded (.nodeInfo ⟨"12", ⟨"4", "", "unknown", "unknown"⟩, 0⟩)) ∧
    ¬ Store.SameBut "12" (callAll {} sharedSeries).store
      ((callAll {} sharedSeries).handle ⟨0, 0⟩ "t" (namingMessage "12" "4")).1.store := by
  have hrecorded : ((callAll {} sharedSeries).handle ⟨0, 0⟩ "t" (namingMessage "12" "4")).2 =
      .ok (.recorded (.nodeInfo ⟨"12", ⟨"4", "", "unknown", "unknown"⟩, 0⟩)) :=
    eq_ok_of_toOption (by decide +kernel)
  refine ⟨hrecorded, ?_⟩
  intro hsame
  have hkept := (handle_sameBut_iff [] sharedSeries ⟨0, 0⟩ "t" (namingMessage "12" "4") _
    hrecorded).1.mp hsame
  exact hkept ⟨"1", ⟨"23", "", "unknown", "unknown"⟩⟩ (by decide +kernel) (by decide)
    (by decide +kernel)

end Exporter
end MeshTelemetry
