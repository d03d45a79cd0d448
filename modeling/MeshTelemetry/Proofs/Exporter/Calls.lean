import MeshTelemetry.Expiry
import MeshTelemetry.Proofs.Metrics.Operations

/-! Runs of an exporter: messages, sweeps and loaded files, in any order. To its
store such a run is a run of records, expiries and restored snapshots, so what
those keep holds in every exporter that can be reached. -/

set_option autoImplicit false

namespace MeshTelemetry.Exporter

inductive Call
  | handle (now : Moment) (topic : String) (payload : ByteArray)
  | sweep (ttl : Nat) (now : Int)
  | load (files : FileSystem) (path : String) (instant : Int)

/-- The exporter after a call; a load that fails leaves it as it was. -/
def call (e : Exporter) : Call → Exporter
  | .handle now topic payload => (e.handle now topic payload).1
  | .sweep ttl now => (e.sweep ttl now).1
  | .load files path instant =>
    match e.load files path instant with
    | .ok (e', _) => e'
    | .error _ => e

def callAll (e : Exporter) (calls : List Call) : Exporter := calls.foldl call e

theorem callAll_cons (e : Exporter) (c : Call) (cs : List Call) :
    e.callAll (c :: cs) = (e.call c).callAll cs := rfl

theorem callAll_keeps {P : Exporter → Prop} {calls : List Call} {e : Exporter} (h : P e)
    (keeps : ∀ e', ∀ c ∈ calls, P e' → P (e'.call c)) : P (e.callAll calls) := by
  induction calls generalizing e with
  | nil => exact h
  | cons c cs ih =>
    exact ih (keeps e c (List.mem_cons_self ..) h)
      fun e' c' hc => keeps e' c' (List.mem_cons_of_mem _ hc)

/-! One message -/

/-- A message is recorded as its judgement says, or the exporter stays as it was. -/
theorem handle_cases (e : Exporter) (now : Moment) (topic : String) (payload : ByteArray) :
    (∃ r, judge e.filters now.unix topic payload = .ok (.recorded r) ∧
      e.handle now topic payload = (e.record now.instant r, .ok (.recorded r))) ∨
    ((∀ r, (e.handle now topic payload).2 ≠ .ok (.recorded r)) ∧
      (e.handle now topic payload).1 = e) := by
  unfold handle
  split
  · rename_i r hr
    exact .inl ⟨r, hr, rfl⟩
  · rename_i hnot
    exact .inr ⟨fun r hr => hnot r hr, rfl⟩

theorem eq_ok_of_toOption {ε α : Type} {result : Except ε α} {a : α}
    (h : result.toOption = some a) : result = .ok a := by
  cases result with
  | error e => cases h
  | ok b => rw [Option.some.inj h]

theorem handle_of_recorded {e : Exporter} {now : Moment} {topic : String} {payload : ByteArray}
    {r : Record} (h : (e.handle now topic payload).2 = .ok (.recorded r)) :
    (e.handle now topic payload).1 = e.record now.instant r := by
  rcases handle_cases e now topic payload with ⟨r', _, hr'⟩ | ⟨hnot, _⟩
  · rw [hr'] at h ⊢
    cases h
    rfl
  · exact absurd h (hnot r)

theorem message_of_judge {filters : List String} {now : Int} {topic : String}
    {payload : ByteArray} {r : Record} (h : judge filters now topic payload = .ok (.recorded r)) :
    ∃ envelope message, Envelope.ofMessage topic payload = .ok envelope ∧
      Message.ofEnvelope now envelope = .ok message ∧ message.record? = some r := by
  unfold judge at h
  split at h
  · cases h
  · split at h
    · cases h
    · cases h
    · rename_i envelope henvelope
      split at h
      · cases h
      · rename_i message hmessage
        split at h
        · cases h
        · rename_i record hrecord
          cases h
          exact ⟨envelope, message, henvelope, hmessage, hrecord⟩

theorem judge_of_message {filters : List String} {now : Int} {topic : String}
    {payload : ByteArray} {envelope : Envelope} {message : Message}
    (passes : Topic.passes topic filters = true)
    (henvelope : Envelope.ofMessage topic payload = .ok envelope)
    (hmessage : Message.ofEnvelope now envelope = .ok message) :
    judge filters now topic payload =
      .ok (message.record?.elim (.ignored .unhandledType) .recorded) := by
  rw [judge, passes, if_neg (by decide), henvelope]
  dsimp only
  rw [hmessage]
  dsimp only
  cases message.record? <;> rfl

theorem handle_of_judge_recorded {e : Exporter} {now : Moment} {topic : String}
    {payload : ByteArray} {r : Record}
    (h : judge e.filters now.unix topic payload = .ok (.recorded r)) :
    e.handle now topic payload = (e.record now.instant r, .ok (.recorded r)) := by
  rw [handle, h]

theorem handle_of_judge_ignored {e : Exporter} {now : Moment} {topic : String}
    {payload : ByteArray} {reason : IgnoreReason}
    (h : judge e.filters now.unix topic payload = .ok (.ignored reason)) :
    e.handle now topic payload = (e, .ok (.ignored reason)) := by
  rw [handle, h]

theorem node_of_record? {m : Message} {r : Record} (h : m.record? = some r) :
    r.node = nodeId m.sender := by
  unfold Message.record? at h
  split at h <;> cases h <;> rfl

theorem nodeId_ne_empty (number : UInt32) : nodeId number ≠ "" := by
  intro h
  have hdigits : Nat.toDigits 10 number.toNat = [] := by
    rw [← Nat.toList_repr]
    exact congrArg String.toList h
  exact Nat.toDigits_ne_nil hdigits

/-! Runs of the store -/

theorem expireAll_spared {e : Exporter} {c : String × Int} (h : e.expire? c = none)
    (cs : List (String × Int)) : e.expireAll (c :: cs) = e.expireAll cs := by
  rw [expireAll, h]

theorem expireAll_expired {e e' : Exporter} {c : String × Int} (h : e.expire? c = some e')
    (cs : List (String × Int)) :
    e.expireAll (c :: cs) = ((e'.expireAll cs).1, c.1 :: (e'.expireAll cs).2) := by
  rw [expireAll, h]

theorem store_expire? {e e' : Exporter} {c : String × Int} (h : e.expire? c = some e') :
    e'.store = (e.store.expireNode c.1).1 := by
  unfold expire? at h
  obtain ⟨activity, _, he⟩ := Option.map_eq_some_iff.mp h
  rw [← he]

theorem store_expireAll (e : Exporter) (cs : List (String × Int)) :
    ∃ nodes : List String,
      (e.expireAll cs).1.store = e.store.performAll (nodes.map Store.Operation.expire) := by
  induction cs generalizing e with
  | nil => exact ⟨[], rfl⟩
  | cons c cs ih =>
    cases he : e.expire? c with
    | none =>
      rw [expireAll_spared he]
      exact ih e
    | some e' =>
      obtain ⟨nodes, hnodes⟩ := ih e'
      refine ⟨c.1 :: nodes, ?_⟩
      rw [expireAll_expired he, List.map_cons, Store.performAll_cons, Store.perform,
        ← store_expire? he]
      exact hnodes

theorem store_foldl_touch (nodes : List String) (instant : Int) (e : Exporter) :
    (nodes.foldl (fun e node => e.touch node instant) e).store = e.store := by
  induction nodes generalizing e with
  | nil => rfl
  | cons node nodes ih => exact ih _

theorem store_load {e e' : Exporter} {files : FileSystem} {path : String} {instant : Int}
    {n : Nat} (h : e.load files path instant = .ok (e', n)) :
    e'.store = e.store ∨ ∃ snapshot, Persistence.read files path = .ok (some snapshot) ∧
      e'.store = (e.store.restore snapshot).1 := by
  unfold load Persistence.load at h
  split at h
  · cases h
  · rename_i store restored hload
    cases h
    rw [store_foldl_touch]
    split at hload
    · cases hload
    · cases hload
      exact .inl rfl
    · rename_i snapshot hread
      cases hload
      exact .inr ⟨snapshot, hread, rfl⟩

theorem store_call (e : Exporter) (c : Call) :
    ∃ ops : List Store.Operation, (∀ op ∈ ops, op.IsNamed) ∧
      (e.call c).store = e.store.performAll ops := by
  cases c with
  | handle now topic payload =>
    rcases handle_cases e now topic payload with ⟨r, hjudge, hr⟩ | ⟨_, hsame⟩
    · obtain ⟨_, message, _, _, hrecord⟩ := message_of_judge hjudge
      refine ⟨[.record r], ?_, ?_⟩
      · intro op hop
        rw [List.mem_singleton.mp hop]
        show r.node ≠ ""
        rw [node_of_record? hrecord]
        exact nodeId_ne_empty _
      · rw [call, hr]
        rfl
    · refine ⟨[], List.forall_mem_nil _, ?_⟩
      rw [call, hsame]
      rfl
  | sweep ttl now =>
    obtain ⟨nodes, hnodes⟩ := store_expireAll e (e.candidates ttl now)
    refine ⟨nodes.map .expire, ?_, hnodes⟩
    intro op hop
    obtain ⟨node, _, rfl⟩ := List.mem_map.mp hop
    trivial
  | load files path instant =>
    rw [call]
    split
    · rename_i e' n hload
      rcases store_load hload with hsame | ⟨snapshot, _, hrestored⟩
      · exact ⟨[], List.forall_mem_nil _, hsame⟩
      · refine ⟨[.restore snapshot], ?_, hrestored⟩
        intro op hop
        rw [List.mem_singleton.mp hop]
        trivial
    · exact ⟨[], List.forall_mem_nil _, rfl⟩

theorem store_callAll (e : Exporter) (calls : List Call) :
    ∃ ops : List Store.Operation, (∀ op ∈ ops, op.IsNamed) ∧
      (e.callAll calls).store = e.store.performAll ops := by
  induction calls generalizing e with
  | nil => exact ⟨[], List.forall_mem_nil _, rfl⟩
  | cons c cs ih =>
    obtain ⟨first, hfirst, hstore⟩ := store_call e c
    obtain ⟨rest, hrest, hrun⟩ := ih (e.call c)
    refine ⟨first ++ rest, ?_, ?_⟩
    · intro op hop
      rcases List.mem_append.mp hop with hop | hop
      · exact hfirst op hop
      · exact hrest op hop
    · rw [callAll_cons, hrun, hstore, Store.performAll_append]

theorem consistent_callAll (filters : List String) (calls : List Call) :
    (callAll { filters } calls).store.Consistent := by
  obtain ⟨ops, _, hstore⟩ := store_callAll { filters } calls
  rw [hstore]
  exact Store.Consistent.empty.performAll ops

end MeshTelemetry.Exporter
