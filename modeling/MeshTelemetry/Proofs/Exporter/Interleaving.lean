import MeshTelemetry.Expiry
import MeshTelemetry.Proofs.Data.Table
import MeshTelemetry.Proofs.Metrics.Views

/-! Records and sweeps in any order of their steps. A record is written first and
marked in the activity later; a sweep collects its candidates first and expires them
one by one later. No candidate is expired while a record is written and not yet
marked; all else may fall between any two steps. The clock never goes back.

A candidate that still has the instant it was collected with is one whose node has
completed no record since, because a later record would have moved that instant past
the collection. -/

set_option autoImplicit false

namespace MeshTelemetry.Interleaving

/-- A node that a sweep found silent, and when the sweep collected it. -/
structure Candidate where
  ttl : Nat
  collected : Int
  node : String
  seen : Int
deriving DecidableEq

structure State where
  exporter : Exporter := {}
  clock : Int
  /-- The nodes whose record is written and not yet marked. -/
  writing : List String := []
  pending : List Candidate := []
  /-- The records completed so far with their instants, the last one first. -/
  completed : List (String × Int) := []

inductive Event
  | tick (now : Int)
  | write (r : Record)
  | mark (node : String)
  | collect (ttl : Nat)
  | expire (c : Candidate)
deriving DecidableEq

namespace State

def start (clock : Int) : State := { clock }

def silent (s : State) (ttl : Nat) : List Candidate :=
  (s.exporter.candidates ttl s.clock).map fun e => ⟨ttl, s.clock, e.1, e.2⟩

def markNow (s : State) (node : String) : State :=
  { s with
    exporter := s.exporter.touch node s.clock
    writing := s.writing.erase node
    completed := (node, s.clock) :: s.completed }

def expireNow (s : State) (c : Candidate) : State :=
  { s with
    exporter := (s.exporter.expire? (c.node, c.seen)).getD s.exporter
    pending := s.pending.erase c }

/-- The state after an event, if the event can happen. -/
def step? (s : State) : Event → Option State
  | .tick now => if s.clock ≤ now then some { s with clock := now } else none
  | .write r => some { s with exporter := s.exporter.write r, writing := r.node :: s.writing }
  | .mark node => if node ∈ s.writing then some (s.markNow node) else none
  | .collect ttl => if 0 < ttl then some { s with pending := s.pending ++ s.silent ttl } else none
  | .expire c => if s.writing = [] ∧ c ∈ s.pending then some (s.expireNow c) else none

def run? (s : State) : List Event → Option State
  | [] => some s
  | event :: events => (s.step? event).bind fun s => s.run? events

def lastRecord? (s : State) (node : String) : Option Int := s.completed.lookup node

def isTracked (s : State) (node : String) : Bool := s.exporter.activity.contains node

def gauge? (s : State) (g : Gauge) (node : String) : Option Binary64 :=
  s.exporter.store.gauge? g node

theorem run?_keeps {P : State → Prop} {events : List Event} {s t : State} (h : P s)
    (run : s.run? events = some t)
    (keeps : ∀ s t, ∀ event ∈ events, s.step? event = some t → P s → P t) : P t := by
  induction events generalizing s with
  | nil =>
    cases run
    exact h
  | cons event events ih =>
    obtain ⟨s', hstep, hrun⟩ := Option.bind_eq_some_iff.mp run
    exact ih (keeps s s' event (List.mem_cons_self ..) hstep h) hrun
      fun s t e he => keeps s t e (List.mem_cons_of_mem _ he)

theorem run?_append {before after : List Event} {s t : State}
    (run : s.run? (before ++ after) = some t) :
    ∃ middle, s.run? before = some middle ∧ middle.run? after = some t := by
  induction before generalizing s with
  | nil => exact ⟨s, rfl, run⟩
  | cons event before ih =>
    obtain ⟨s', hstep, hrun⟩ := Option.bind_eq_some_iff.mp run
    obtain ⟨middle, hbefore, hafter⟩ := ih hrun
    refine ⟨middle, ?_, hafter⟩
    rw [run?, hstep]
    exact hbefore

/-! What one event changes -/

theorem clock_le_of_step {s t : State} {event : Event} (h : s.step? event = some t) :
    s.clock ≤ t.clock := by
  cases event <;>
    simp only [step?, Option.ite_none_right_eq_some, Option.some.injEq] at h
  case tick now =>
    obtain ⟨hle, rfl⟩ := h
    exact hle
  case write r =>
    cases h
    exact Int.le_refl _
  all_goals
    obtain ⟨_, rfl⟩ := h
    exact Int.le_refl _

theorem completed_of_step {s t : State} {event : Event} (h : s.step? event = some t) :
    s.completed ⊆ t.completed := by
  cases event <;>
    simp only [step?, Option.ite_none_right_eq_some, Option.some.injEq] at h
  case mark node =>
    obtain ⟨_, rfl⟩ := h
    exact List.subset_cons_self ..
  case write r =>
    cases h
    exact List.Subset.refl _
  all_goals
    obtain ⟨_, rfl⟩ := h
    exact List.Subset.refl _

/-- A record that completes in a run is among the completed ones at its end, with an
instant that the clock showed during the run. -/
theorem completed_of_mark {node : String} {events : List Event} {s t : State}
    (run : s.run? events = some t) (h : Event.mark node ∈ events) :
    ∃ instant, (node, instant) ∈ t.completed ∧ s.clock ≤ instant := by
  induction events generalizing s with
  | nil => cases h
  | cons event events ih =>
    obtain ⟨s', hstep, hrun⟩ := Option.bind_eq_some_iff.mp run
    rcases List.mem_cons.mp h with rfl | h
    · simp only [step?, Option.ite_none_right_eq_some, Option.some.injEq] at hstep
      obtain ⟨_, rfl⟩ := hstep
      refine ⟨s.clock, ?_, Int.le_refl _⟩
      exact run?_keeps (P := fun s' => (node, s.clock) ∈ s'.completed)
        (List.mem_cons_self ..) hrun fun _ _ _ _ hs hmem => completed_of_step hs hmem
    · obtain ⟨instant, hmem, hle⟩ := ih hrun h
      exact ⟨instant, hmem, Int.le_trans (clock_le_of_step hstep) hle⟩

theorem lastRecord?_markNow (s : State) (node m : String) :
    (s.markNow node).lastRecord? m = if node = m then some s.clock else s.lastRecord? m := by
  rw [lastRecord?, markNow, Table.lookup_cons, lastRecord?]

theorem seen_markNow (s : State) (node m : String) :
    (s.markNow node).exporter.activity.seen.get? m =
      if node = m then some s.clock else s.exporter.activity.seen.get? m := by
  rw [markNow, Exporter.touch, Activity.touch, Table.get?_insert]

theorem isTracked_eq (s : State) (node : String) :
    s.isTracked node = (s.exporter.activity.seen.get? node).isSome := rfl

theorem isTracked_iff (s : State) (node : String) :
    s.isTracked node = true ↔ ∃ instant, s.exporter.activity.seen.get? node = some instant :=
  Table.contains_iff ..

theorem exporter_expireNow (s : State) (c : Candidate) :
    (s.exporter.activity.seen.get? c.node = some c.seen ∧
      (s.expireNow c).exporter = { s.exporter with
        activity := ⟨s.exporter.activity.seen.erase c.node⟩
        store := (s.exporter.store.expireNode c.node).1 }) ∨
    (s.exporter.activity.seen.get? c.node ≠ some c.seen ∧
      (s.expireNow c).exporter = s.exporter) := by
  by_cases h : s.exporter.activity.seen.get? c.node = some c.seen
  · left
    refine ⟨h, ?_⟩
    rw [expireNow, Exporter.expire?, Activity.forget?, if_pos h, Option.map_some, Option.getD_some]
  · right
    refine ⟨h, ?_⟩
    rw [expireNow, Exporter.expire?, Activity.forget?, if_neg h, Option.map_none, Option.getD_none]

theorem lastSeen_write (s : Exporter) (r : Record) (m : String) :
    ((s.write r).store.gauge? .lastSeen m).isSome =
      (decide (r.node = m) || (s.store.gauge? .lastSeen m).isSome) := by
  rw [Exporter.write]
  cases r with
  | telemetry r =>
    rw [Store.record, Store.gauge?_recordTelemetry, Record.node]
    by_cases h : r.node = m <;> simp [h]
  | nodeInfo r =>
    rw [Store.record, Store.gauge?_recordNodeInfo, Record.node]
    by_cases h : r.node = m <;> simp [h]

theorem silent_isSilent (s : State) (ttl : Nat) {c : Candidate} (hc : c ∈ s.silent ttl) :
    c.seen + c.ttl < c.collected := by
  obtain ⟨e, he, rfl⟩ := List.mem_map.mp hc
  rw [Exporter.candidates] at he
  split at he
  · cases he
  · exact of_decide_eq_true (List.mem_filter.mp he).2

/-! Soundness -/

/-- A tracked node has the instant of its last record. The last-seen series stands for
the nodes that are tracked or about to be. -/
structure Sound (s : State) : Prop where
  tracked : ∀ node instant, s.exporter.activity.seen.get? node = some instant →
    s.lastRecord? node = some instant
  shown : ∀ node, (s.gauge? .lastSeen node).isSome = true ↔
    s.isTracked node = true ∨ node ∈ s.writing
  past : ∀ e ∈ s.completed, e.2 ≤ s.clock
  latest : ∀ node last, s.lastRecord? node = some last →
    ∀ instant, (node, instant) ∈ s.completed → instant ≤ last
  silent : ∀ c ∈ s.pending, c.seen + c.ttl < c.collected

namespace Sound

variable {s : State}

theorem start (clock : Int) : Sound (start clock) where
  tracked := by intro node instant h; cases h
  shown := by
    intro node
    simp [State.start, gauge?, Store.gauge?, isTracked, Activity.contains, Table.contains]
  past := List.forall_mem_nil _
  latest := by intro node last h; cases h
  silent := List.forall_mem_nil _

theorem tick (h : Sound s) {now : Int} (hnow : s.clock ≤ now) :
    Sound { s with clock := now } where
  tracked := h.tracked
  shown := h.shown
  past := by
    intro e he
    exact Int.le_trans (h.past e he) hnow
  latest := h.latest
  silent := h.silent

theorem write (h : Sound s) (r : Record) :
    Sound { s with exporter := s.exporter.write r, writing := r.node :: s.writing } where
  tracked := h.tracked
  shown := by
    intro node
    have hgauge := lastSeen_write s.exporter r node
    have hshown := h.shown node
    simp only [gauge?, isTracked, Exporter.write] at hgauge hshown ⊢
    rw [hgauge, Bool.or_eq_true, decide_eq_true_iff, hshown, List.mem_cons, eq_comm]
    exact or_left_comm
  past := h.past
  latest := h.latest
  silent := h.silent

theorem markNow (h : Sound s) {node : String} (hnode : node ∈ s.writing) :
    Sound (s.markNow node) where
  tracked := by
    intro m instant hm
    rw [seen_markNow] at hm
    rw [lastRecord?_markNow]
    split
    · rename_i heq
      rw [if_pos heq] at hm
      exact hm
    · rename_i hne
      rw [if_neg hne] at hm
      exact h.tracked m instant hm
  shown := by
    intro m
    have hshown := h.shown m
    rw [isTracked_eq, seen_markNow]
    by_cases hm : node = m
    · subst hm
      rw [if_pos rfl]
      exact ⟨fun _ => .inl rfl, fun _ => hshown.mpr (.inr hnode)⟩
    · have hwriting : m ∈ (s.markNow node).writing ↔ m ∈ s.writing :=
        List.mem_erase_of_ne (Ne.symm hm)
      rw [if_neg hm, hwriting]
      exact hshown
  past := by
    intro e he
    rcases List.mem_cons.mp he with rfl | he
    · exact Int.le_refl _
    · exact h.past e he
  latest := by
    intro m last hlast instant hmem
    rw [lastRecord?_markNow] at hlast
    rcases List.mem_cons.mp hmem with heq | hmem
    · cases heq
      rw [if_pos rfl] at hlast
      cases hlast
      exact Int.le_refl _
    · split at hlast
      · cases hlast
        exact h.past (m, instant) hmem
      · exact h.latest m last hlast instant hmem
  silent := h.silent

theorem collect (h : Sound s) (ttl : Nat) :
    Sound { s with pending := s.pending ++ s.silent ttl } where
  tracked := h.tracked
  shown := h.shown
  past := h.past
  latest := h.latest
  silent := by
    intro c hc
    rcases List.mem_append.mp hc with hc | hc
    · exact h.silent c hc
    · exact silent_isSilent s ttl hc

theorem expireNow (h : Sound s) (hwriting : s.writing = []) (c : Candidate) :
    Sound (s.expireNow c) where
  tracked := by
    intro m instant hm
    rcases exporter_expireNow s c with ⟨_, hgone⟩ | ⟨_, hsame⟩
    · rw [hgone, Table.get?_erase] at hm
      split at hm
      · cases hm
      · exact h.tracked m instant hm
    · rw [hsame] at hm
      exact h.tracked m instant hm
  shown := by
    intro m
    have hshown := h.shown m
    rcases exporter_expireNow s c with ⟨_, hgone⟩ | ⟨_, hsame⟩
    · rw [gauge?, isTracked_eq, hgone, Store.gauge?_expireNode, Table.get?_erase]
      by_cases hm : c.node = m
      · have hnone : m ∉ (s.expireNow c).writing := by
          rw [State.expireNow, hwriting]
          exact List.not_mem_nil
        simp [hm, hnone, Gauge.expires]
      · simp only [hm, and_false, if_false]
        exact hshown
    · rw [gauge?, isTracked, hsame]
      exact hshown
  past := h.past
  latest := h.latest
  silent := by
    intro c' hc
    exact h.silent c' (List.mem_of_mem_erase hc)

theorem step {t : State} {event : Event} (h : Sound s) (hstep : s.step? event = some t) :
    Sound t := by
  cases event <;>
    simp only [step?, Option.ite_none_right_eq_some, Option.some.injEq] at hstep
  case tick now =>
    obtain ⟨hnow, rfl⟩ := hstep
    exact h.tick hnow
  case write r =>
    rw [← hstep]
    exact h.write r
  case mark node =>
    obtain ⟨hnode, rfl⟩ := hstep
    exact h.markNow hnode
  case collect ttl =>
    obtain ⟨_, rfl⟩ := hstep
    exact h.collect ttl
  case expire c =>
    obtain ⟨⟨hwriting, _⟩, rfl⟩ := hstep
    exact h.expireNow hwriting c

theorem run {t : State} {events : List Event} (h : Sound s) (hrun : s.run? events = some t) :
    Sound t :=
  run?_keeps h hrun fun _ _ _ _ hstep hs => hs.step hstep

theorem isTracked_expireNow (h : Sound s) (c : Candidate) :
    (s.expireNow c).isTracked c.node = true ↔
      s.isTracked c.node = true ∧ s.lastRecord? c.node ≠ some c.seen := by
  rcases exporter_expireNow s c with ⟨hseen, hgone⟩ | ⟨hseen, hsame⟩
  · rw [isTracked_eq, hgone, Table.get?_erase, if_pos rfl, h.tracked _ _ hseen]
    constructor
    · intro hnone
      cases hnone
    · intro hmoved
      exact absurd rfl hmoved.2
  · rw [isTracked, hsame, ← isTracked]
    refine ⟨fun htracked => ⟨htracked, ?_⟩, And.left⟩
    obtain ⟨instant, hinstant⟩ := (isTracked_iff s c.node).mp htracked
    rw [h.tracked _ _ hinstant, ← hinstant]
    exact hseen

theorem erased_of_expireNow {c : Candidate} {g : Gauge} {node : String}
    (hold : s.gauge? g node ≠ none) (hnew : (s.expireNow c).gauge? g node = none) :
    node = c.node ∧ s.exporter.activity.seen.get? node = some c.seen := by
  rcases exporter_expireNow s c with ⟨hseen, hgone⟩ | ⟨_, hsame⟩
  · simp only [gauge?, hgone, Store.gauge?_expireNode] at hnew
    split at hnew
    · rename_i hnode
      rw [← hnode.2]
      exact ⟨rfl, hseen⟩
    · exact absurd hnew hold
  · rw [gauge?, hsame] at hnew
    exact absurd hnew hold

end Sound

/-- In every interleaving, a candidate's expiry takes away nothing but the series of its
own node, and only if the node's last record lies more than the span before the
collection, so that none was completed since the collection. It forgets the node exactly
if the last record is the one collected. Between records a node is tracked exactly
if its last-seen series is there. -/
theorem expire_only_silent (clock : Int) (events : List Event) (s : State)
    (run : (start clock).run? events = some s) :
    (∀ c t, s.step? (.expire c) = some t →
      (∀ g node, s.gauge? g node ≠ none → t.gauge? g node = none →
        node = c.node ∧
        (∃ last, s.lastRecord? node = some last ∧ last + c.ttl < c.collected) ∧
        ∀ before after collection, events = before ++ after →
          (start clock).run? before = some collection → c.collected ≤ collection.clock →
          Event.mark node ∉ after) ∧
      (t.isTracked c.node = true ↔
        s.isTracked c.node = true ∧ s.lastRecord? c.node ≠ some c.seen)) ∧
    (s.writing = [] →
      ∀ node, s.isTracked node = true ↔ (s.gauge? .lastSeen node).isSome = true) := by
  have hsound : Sound s := (Sound.start clock).run run
  constructor
  · intro c t hstep
    simp only [step?, Option.ite_none_right_eq_some, Option.some.injEq] at hstep
    obtain ⟨⟨_, hpending⟩, rfl⟩ := hstep
    refine ⟨?_, hsound.isTracked_expireNow c⟩
    intro g node hold hnew
    obtain ⟨hnode, hseen⟩ := Sound.erased_of_expireNow hold hnew
    have hlast : s.lastRecord? node = some c.seen := hsound.tracked node c.seen hseen
    have hsilent : c.seen + c.ttl < c.collected := hsound.silent c hpending
    refine ⟨hnode, ⟨c.seen, hlast, hsilent⟩, ?_⟩
    intro before after collection hevents hbefore hcollected hmark
    obtain ⟨middle, hmiddle, hafter⟩ := run?_append (hevents ▸ run)
    rw [hbefore, Option.some.injEq] at hmiddle
    subst hmiddle
    obtain ⟨instant, hmem, hinstant⟩ := completed_of_mark hafter hmark
    have hle : instant ≤ c.seen := hsound.latest node c.seen hlast instant hmem
    omega
  · intro hwriting node
    rw [hsound.shown node, hwriting]
    constructor
    · exact .inl
    · intro h
      exact h.resolve_right List.not_mem_nil

def heardDuringSweep : List Event :=
  [.write (.nodeInfo ⟨"5", ⟨"", "", "", ""⟩, 7⟩), .mark "5",
   .write (.nodeInfo ⟨"6", ⟨"", "", "", ""⟩, 7⟩), .mark "6", .tick 100,
   .write (.nodeInfo ⟨"6", ⟨"", "", "", ""⟩, 8⟩), .collect 60, .mark "6"]

def heard : State := ((start 0).run? heardDuringSweep).getD (start 0)

theorem expire_only_silent_heardDuringSweep :
    (start 0).run? heardDuringSweep = some heard ∧
      heard.step? (.expire ⟨60, 100, "5", 0⟩) = some (heard.expireNow ⟨60, 100, "5", 0⟩) ∧
      heard.gauge? .lastSeen "5" ≠ none ∧
      (heard.expireNow ⟨60, 100, "5", 0⟩).gauge? .lastSeen "5" = none ∧
      (∃ last, heard.lastRecord? "5" = some last ∧ last + (60 : Nat) < 100) ∧
      heard.writing = [] ∧
      (heard.isTracked "6" = true ↔ (heard.gauge? .lastSeen "6").isSome = true) := by
  have hrun : (start 0).run? heardDuringSweep = some heard :=
    (Option.getD_of_ne_none (Option.isSome_iff_ne_none.mp (by decide +kernel)) _).symm
  have hall := expire_only_silent 0 heardDuringSweep heard hrun
  have hstep : heard.step? (.expire ⟨60, 100, "5", 0⟩) =
      some (heard.expireNow ⟨60, 100, "5", 0⟩) := by
    rw [step?, if_pos (by decide +kernel)]
  have hold : heard.gauge? .lastSeen "5" ≠ none := by decide +kernel
  have hnew : (heard.expireNow ⟨60, 100, "5", 0⟩).gauge? .lastSeen "5" = none := by
    decide +kernel
  have hwriting : heard.writing = [] := by decide +kernel
  exact ⟨hrun, hstep, hold, hnew, ((hall.1 _ _ hstep).1 _ _ hold hnew).2.1, hwriting,
    hall.2 hwriting "6"⟩

end State
end MeshTelemetry.Interleaving
