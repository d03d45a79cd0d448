import MeshTelemetry.Proofs.Exporter.Sweeping

/-! The gauges of an exporter as a function of what its calls answered. A gauge shows the
last value that was recorded for it, a field that is absent records nothing, and an
ephemeral gauge is gone once a sweep answers its node. -/

set_option autoImplicit false

namespace MeshTelemetry

/-- The value that a record gives a gauge of its node. Every record says when the node was
last seen; telemetry gives its readings besides. -/
def Record.written? : Record → Gauge → Option Binary64
  | .telemetry r, .lastSeen => some (Binary64.ofInt r.timestamp)
  | .telemetry r, g => r.readings.get? g
  | .nodeInfo r, .lastSeen => some (Binary64.ofInt r.timestamp)
  | .nodeInfo _, _ => none

theorem Store.gauge?_record (s : Store) (r : Record) (g : Gauge) (m : String) :
    (s.record r).gauge? g m =
      if r.node = m then (r.written? g).or (s.gauge? g m) else s.gauge? g m := by
  cases r with
  | telemetry r =>
    rw [record, gauge?_recordTelemetry, Record.node]
    cases g <;> rfl
  | nodeInfo r =>
    rw [record, gauge?_recordNodeInfo, Record.node]
    cases g with
    | lastSeen => simp [Record.written?]
    | _ => simp [Record.written?]

namespace Exporter

inductive Answer
  | handled (outcome : Except Rejection Outcome)
  | swept (nodes : List String)
  | loaded (restored : Except ProcessingError Nat)

def answer (e : Exporter) : Call → Answer
  | .handle now topic payload => .handled (e.handle now topic payload).2
  | .sweep ttl now => .swept (e.sweep ttl now).2
  | .load files path instant => .loaded ((e.load files path instant).map Prod.snd)

def answers (e : Exporter) : List Call → List Answer
  | [] => []
  | c :: cs => e.answer c :: (e.call c).answers cs

def Call.IsLoad : Call → Prop
  | .load .. => True
  | _ => False

namespace Answer

def written? (g : Gauge) (node : String) : Answer → Option Binary64
  | .handled (.ok (.recorded r)) => if r.node = node then r.written? g else none
  | _ => none

def Takes (g : Gauge) (node : String) : Answer → Prop
  | .swept nodes => g.expires = true ∧ node ∈ nodes
  | _ => False

def Leaves (g : Gauge) (node : String) (a : Answer) : Prop :=
  a.written? g node = none ∧ ¬ a.Takes g node

theorem written?_of_not_recorded {outcome : Except Rejection Outcome}
    (h : ∀ r, outcome ≠ .ok (.recorded r)) (g : Gauge) (node : String) :
    (handled outcome).written? g node = none := by
  unfold written?
  split
  · rename_i r heq
    cases heq
    exact absurd rfl (h r)
  · rfl

end Answer

/-- Whether `x` is the last value recorded for a gauge of a node, with no sweep since that
took the gauge away. -/
def LastWritten (history : List Answer) (g : Gauge) (node : String) (x : Binary64) : Prop :=
  ∃ before a after, history = before ++ a :: after ∧ a.written? g node = some x ∧
    ∀ b ∈ after, b.Leaves g node

variable {g : Gauge} {node : String} {x : Binary64}

theorem not_lastWritten_nil : ¬ LastWritten [] g node x := by
  rintro ⟨before, a, after, hnil, _⟩
  exact List.append_ne_nil_of_right_ne_nil before (List.cons_ne_nil a after) hnil.symm

theorem lastWritten_cons (a : Answer) (history : List Answer) :
    LastWritten (a :: history) g node x ↔
      LastWritten history g node x ∨
        a.written? g node = some x ∧ ∀ b ∈ history, b.Leaves g node := by
  constructor
  · rintro ⟨before, b, after, hsplit, hwritten, hafter⟩
    cases before with
    | nil =>
      cases hsplit
      exact .inr ⟨hwritten, hafter⟩
    | cons first before =>
      obtain ⟨rfl, rfl⟩ := List.cons.inj hsplit
      exact .inl ⟨before, b, after, rfl, hwritten, hafter⟩
  · rintro (⟨before, b, after, rfl, hwritten, hafter⟩ | ⟨hwritten, hafter⟩)
    · exact ⟨a :: before, b, after, rfl, hwritten, hafter⟩
    · exact ⟨[], a, history, rfl, hwritten, hafter⟩

/-- One call: a gauge shows what the answer says was recorded, or what it showed before if
the answer says nothing of it. -/
theorem gauge?_call_iff (e : Exporter) {c : Call} (hc : ¬ c.IsLoad) :
    (e.call c).store.gauge? g node = some x ↔
      (e.answer c).written? g node = some x ∨
        (e.answer c).Leaves g node ∧ e.store.gauge? g node = some x := by
  cases c with
  | handle now topic payload =>
    rw [answer]
    rcases handle_cases e now topic payload with ⟨r, _, hr⟩ | ⟨hnot, hsame⟩
    · have hstore : (e.call (.handle now topic payload)).store = e.store.record r := by
        rw [call, hr]
        rfl
      rw [hstore, Store.gauge?_record, hr]
      simp only [Answer.written?, Answer.Leaves, Answer.Takes, not_false_eq_true, and_true]
      split
      · exact Option.or_eq_some_iff
      · simp
    · have hnone := Answer.written?_of_not_recorded hnot g node
      rw [call, hsame, Answer.Leaves, hnone]
      simp [Answer.Takes]
  | sweep ttl now =>
    rw [call, answer, (expired_sweep e ttl now).gauge]
    simp only [Answer.written?, Answer.Leaves, Answer.Takes, true_and]
    split
    · rename_i htaken
      simp [htaken]
    · rename_i hkept
      simp [hkept]
  | load files path instant => exact absurd trivial hc

/-- A whole run: a gauge shows the last value recorded in it, or what it showed at the start
if the run says nothing of it. -/
theorem gauge?_callAll_iff (e : Exporter) {calls : List Call} (h : ∀ c ∈ calls, ¬ c.IsLoad) :
    (e.callAll calls).store.gauge? g node = some x ↔
      LastWritten (e.answers calls) g node x ∨
        (∀ b ∈ e.answers calls, b.Leaves g node) ∧ e.store.gauge? g node = some x := by
  induction calls generalizing e with
  | nil =>
    rw [answers, or_iff_right not_lastWritten_nil]
    exact ⟨fun hx => ⟨List.forall_mem_nil _, hx⟩, And.right⟩
  | cons c cs ih =>
    obtain ⟨hc, hcs⟩ := List.forall_mem_cons.mp h
    rw [callAll_cons, ih (e.call c) hcs, gauge?_call_iff e hc, answers, lastWritten_cons,
      List.forall_mem_cons]
    constructor
    · rintro (hlast | ⟨hafter, hwritten | ⟨hleaves, hx⟩⟩)
      · exact .inl (.inl hlast)
      · exact .inl (.inr ⟨hwritten, hafter⟩)
      · exact .inr ⟨⟨hleaves, hafter⟩, hx⟩
    · rintro ((hlast | ⟨hwritten, hafter⟩) | ⟨⟨hleaves, hafter⟩, hx⟩)
      · exact .inl hlast
      · exact .inr ⟨hafter, .inl hwritten⟩
      · exact .inr ⟨hafter, .inr ⟨hleaves, hx⟩⟩

/-- The last write wins, and what is absent writes nothing: after messages and sweeps in any
order, a gauge shows a value exactly if it is the last one recorded for it and no sweep since
took the gauge away. -/
theorem gauge?_iff_lastWritten (filters : List String) (calls : List Call)
    (h : ∀ c ∈ calls, ¬ c.IsLoad) (g : Gauge) (node : String) (x : Binary64) :
    (callAll { filters } calls).store.gauge? g node = some x ↔
      LastWritten (answers { filters } calls) g node x := by
  rw [gauge?_callAll_iff { filters } h]
  constructor
  · rintro (hlast | ⟨_, hstart⟩)
    · exact hlast
    · cases hstart
  · exact .inl

def readingsMessage (readings : String) : ByteArray :=
  ("\x7b\"from\":7,\"type\":\"telemetry\",\"payload\":\x7b" ++ readings ++ "\x7d\x7d").toUTF8

/-- Node 7 reports twice, the second time without its signal, and falls silent; then it is
heard again without any reading. -/
def silenceBetweenReports : List Call :=
  [.handle ⟨100, 0⟩ "t" (readingsMessage "\"battery_level\":50,\"rssi\":-90"),
   .handle ⟨101, 1⟩ "t" (readingsMessage "\"battery_level\":49"),
   .sweep 10 12,
   .handle ⟨113, 13⟩ "t" (readingsMessage "")]

theorem silenceBetweenReports_lastWritten :
    (∀ c ∈ silenceBetweenReports, ¬ c.IsLoad) ∧
      LastWritten (answers {} silenceBetweenReports) .rssi "7" (Binary64.ofInt (-90)) ∧
      LastWritten (answers {} silenceBetweenReports) .lastSeen "7" (Binary64.ofInt 113) ∧
      ∀ x, ¬ LastWritten (answers {} silenceBetweenReports) .batteryLevel "7" x := by
  have hloads : ∀ c ∈ silenceBetweenReports, ¬ c.IsLoad := by
    simp [silenceBetweenReports, Call.IsLoad]
  have hwritten := gauge?_iff_lastWritten [] silenceBetweenReports hloads
  have hgone : (callAll {} silenceBetweenReports).store.gauge? .batteryLevel "7" = none := by
    decide +kernel
  refine ⟨hloads, (hwritten ..).mp ?_, (hwritten ..).mp ?_, ?_⟩
  · decide +kernel
  · decide +kernel
  · intro x hx
    have hshown := (hwritten .batteryLevel "7" x).mpr hx
    rw [hgone] at hshown
    cases hshown

end Exporter
end MeshTelemetry
