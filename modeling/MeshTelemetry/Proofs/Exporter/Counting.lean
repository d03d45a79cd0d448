import MeshTelemetry.Bus.Packet
import MeshTelemetry.Proofs.Exporter.Isolation
import MeshTelemetry.Proofs.Exporter.Sweeping
import MeshTelemetry.Proofs.Metrics.Restoring

/-! The message counters as tallies of what an exporter recorded. A record raises the counter
of its own node and kind and no other, although counters are known by labels run together;
nothing else touches them. -/

set_option autoImplicit false

namespace MeshTelemetry

/-! One record -/

namespace Store

def messageTotal (s : Store) : Nat := s.messages.total Prod.snd

theorem messageTotal_countMessage (s : Store) (labels : CountLabels) :
    (s.countMessage labels).messageTotal = s.messageTotal + 1 := by
  unfold countMessage
  split
  · rename_i made n hmade
    have htotal := Table.total_insert Prod.snd s.messages labels.key (made, n + 1)
    rw [hmade, Option.map_some, Option.getD_some] at htotal
    simp only [messageTotal]
    omega
  · rename_i hnone
    have htotal := Table.total_insert Prod.snd s.messages labels.key (labels, 1)
    rw [hnone, Option.map_none, Option.getD_none] at htotal
    exact htotal

theorem messageTotal_record (s : Store) (r : Record) :
    (s.record r).messageTotal = s.messageTotal + 1 := by
  rw [← messageTotal_countMessage s r.countLabels]
  unfold messageTotal
  rw [messages_record, Record.countLabels]

/-- What a counter says of some labels: its number if it was made with them. -/
def countOf (l : CountLabels) : Option (CountLabels × Nat) → Nat
  | some c => if c.1 = l then c.2 else 0
  | none => 0

namespace Consistent

variable {s : Store}

/-- A counter is read where its labels run together lead. -/
theorem messageCount_eq (h : s.Consistent) (l : CountLabels) :
    s.messageCount l.node l.kind = countOf l (s.messages.get? l.key) := by
  have hlabels : ∀ c : CountLabels × Nat,
      (c.1.node == l.node && c.1.kind == l.kind) = true ↔ c.1 = l := by
    rintro ⟨⟨node, kind⟩, n⟩
    cases l
    simp
  unfold messageCount
  cases hfound : s.messages.values.find? fun c => c.1.node == l.node && c.1.kind == l.kind with
  | some c =>
    have hl : c.1 = l := (hlabels c).mp (by simpa using List.find?_some hfound)
    have hmem : c ∈ s.messageSeries :=
      (Store.mem_messageSeries s c).mpr
        ((Table.mem_values_iff _ c).mp (List.mem_of_find?_eq_some hfound))
    have hget := (h.mem_messageSeries c).mp hmem
    rw [hl] at hget
    rw [hget, countOf, if_pos hl]
  | none =>
    cases hget : s.messages.get? l.key with
    | none => rfl
    | some c =>
      have hother : c.1 ≠ l := fun hc =>
        List.find?_eq_none.mp hfound c ((Table.mem_values_iff _ c).mpr ⟨_, hget⟩)
          ((hlabels c).mpr hc)
      exact (if_neg hother).symm

theorem messageCount_record (h : s.Consistent) (r : Record) (l : CountLabels) :
    (s.record r).messageCount l.node l.kind =
      s.messageCount l.node l.kind + if r.countLabels = l then 1 else 0 := by
  have hkind : r.countLabels.kind = MessageKind.telemetry.name ∨
      r.countLabels.kind = MessageKind.nodeInfo.name := r.kind_name
  rw [h.messageCount_eq l, (h.record r).messageCount_eq l, messages_record, ← Record.countLabels,
    messages_countMessage]
  by_cases hkey : r.countLabels.key = l.key
  · rw [if_pos hkey]
    cases hget : s.messages.get? l.key with
    | none => simp [countOf]
    | some c =>
      -- What made the counter is counted itself, so it has the labels of the record.
      have hmade : c.1 = r.countLabels :=
        CountLabels.eq_of_key_eq ((h.countKey _ c.1 c.2 hget).trans hkey.symm)
          (h.countKind _ c.1 c.2 hget) hkind
      by_cases hsame : r.countLabels = l <;> simp [countOf, hmade, hsame]
  · have hsame : r.countLabels ≠ l := fun hl => hkey (congrArg CountLabels.key hl)
    rw [if_neg hkey, if_neg hsame, Nat.add_zero]

end Consistent
end Store

/-! A run of the exporter -/

namespace Exporter

structure Dispatch where
  packet : Packet
  outcome : Except Rejection Outcome

namespace Dispatch

def record? (d : Dispatch) : Option Record :=
  match d.outcome with
  | .ok (.recorded r) => some r
  | _ => none

def isRecorded (d : Dispatch) : Bool := d.record?.isSome

def isCountedAs (l : CountLabels) (d : Dispatch) : Bool := d.record?.any (·.countLabels = l)

def isIgnored (d : Dispatch) : Bool :=
  match d.outcome with
  | .ok (.ignored _) => true
  | _ => false

def isRejected (d : Dispatch) : Bool :=
  match d.outcome with
  | .error _ => true
  | .ok _ => false

end Dispatch

def dispatched? (e : Exporter) : Call → Option Dispatch
  | .handle now topic payload => some ⟨⟨topic, payload⟩, (e.handle now topic payload).2⟩
  | _ => none

def dispatches (e : Exporter) : List Call → List Dispatch
  | [] => []
  | c :: cs => (e.dispatched? c).toList ++ (e.call c).dispatches cs

theorem dispatches_append (e : Exporter) (cs ds : List Call) :
    e.dispatches (cs ++ ds) = e.dispatches cs ++ (e.callAll cs).dispatches ds := by
  induction cs generalizing e with
  | nil => rfl
  | cons c cs ih =>
    rw [List.cons_append, dispatches, ih, dispatches, callAll_cons, List.append_assoc]

/-- The counters after a call are those after its record, if it has one. -/
theorem messages_call (e : Exporter) (c : Call) :
    (e.call c).store.messages =
      (((e.dispatched? c).bind Dispatch.record?).elim e.store e.store.record).messages := by
  cases c with
  | handle now topic payload =>
    rw [dispatched?, Option.bind_some, call]
    rcases handle_cases e now topic payload with ⟨r, _, hr⟩ | ⟨hnot, hsame⟩
    · rw [hr]
      rfl
    · have hnone : Dispatch.record? ⟨⟨topic, payload⟩, (e.handle now topic payload).2⟩ = none := by
        unfold Dispatch.record?
        split
        · rename_i r hr
          exact absurd hr (hnot r)
        · rfl
      rw [hnone, hsame]
      rfl
  | sweep ttl now => exact (expired_sweep e ttl now).messages
  | load files path instant =>
    rw [call]
    split
    · rename_i e' n hload
      rcases store_load hload with hsame | ⟨snapshot, _, hrestored⟩
      · exact congrArg Store.messages hsame
      · exact (congrArg Store.messages hrestored).trans (Store.messages_restore e.store snapshot)
    · rfl

theorem consistent_call {e : Exporter} (h : e.store.Consistent) (c : Call) :
    (e.call c).store.Consistent := by
  obtain ⟨ops, _, hstore⟩ := store_call e c
  rw [hstore]
  exact h.performAll ops

theorem messageCount_call {e : Exporter} (h : e.store.Consistent) (c : Call) (l : CountLabels) :
    (e.call c).store.messageCount l.node l.kind =
      e.store.messageCount l.node l.kind +
        (e.dispatched? c).toList.countP (·.isCountedAs l) := by
  have hread : (e.call c).store.messageCount l.node l.kind =
      (((e.dispatched? c).bind Dispatch.record?).elim e.store e.store.record).messageCount
        l.node l.kind := by
    unfold Store.messageCount
    rw [messages_call]
  rw [hread]
  cases e.dispatched? c with
  | none => rfl
  | some d =>
    rw [Option.bind_some, Option.toList_some, List.countP_singleton, Dispatch.isCountedAs]
    cases d.record? with
    | none => rfl
    | some r =>
      rw [Option.elim_some, h.messageCount_record]
      simp

theorem messageTotal_call (e : Exporter) (c : Call) :
    (e.call c).store.messageTotal =
      e.store.messageTotal + (e.dispatched? c).toList.countP Dispatch.isRecorded := by
  have hread : (e.call c).store.messageTotal =
      (((e.dispatched? c).bind Dispatch.record?).elim e.store e.store.record).messageTotal := by
    unfold Store.messageTotal
    rw [messages_call]
  rw [hread]
  cases e.dispatched? c with
  | none => rfl
  | some d =>
    rw [Option.bind_some, Option.toList_some, List.countP_singleton, Dispatch.isRecorded]
    cases d.record? with
    | none => rfl
    | some r => exact Store.messageTotal_record e.store r

theorem messageCount_callAll {e : Exporter} (h : e.store.Consistent) (calls : List Call)
    (l : CountLabels) :
    (e.callAll calls).store.messageCount l.node l.kind =
      e.store.messageCount l.node l.kind + (e.dispatches calls).countP (·.isCountedAs l) := by
  induction calls generalizing e with
  | nil => rfl
  | cons c cs ih =>
    rw [callAll_cons, ih (consistent_call h c), messageCount_call h, dispatches,
      List.countP_append, Nat.add_assoc]

theorem messageTotal_callAll (e : Exporter) (calls : List Call) :
    (e.callAll calls).store.messageTotal =
      e.store.messageTotal + (e.dispatches calls).countP Dispatch.isRecorded := by
  induction calls generalizing e with
  | nil => rfl
  | cons c cs ih =>
    rw [callAll_cons, ih, messageTotal_call, dispatches, List.countP_append, Nat.add_assoc]

end Exporter
end MeshTelemetry
