import MeshTelemetry.Proofs.Exporter.Counting
import MeshTelemetry.Service.Bench

/-! Every message from the bus is counted once. Over any run of the bench, the messages that
were let in are those left to come in, in their order and each once; health and the message
counters tally what they came to, and nothing but letting messages in moves a tally. -/

set_option autoImplicit false

namespace MeshTelemetry

/-- Every message is recorded, ignored or rejected, and none is two of these. -/
theorem Exporter.Dispatch.countP_outcomes (ds : List Exporter.Dispatch) :
    ds.countP isRecorded + ds.countP isIgnored + ds.countP isRejected = ds.length := by
  induction ds with
  | nil => rfl
  | cons d ds ih =>
    obtain ⟨packet, outcome⟩ := d
    rw [List.length_cons, ← ih]
    rcases outcome with rejection | r | reason <;>
      simp [List.countP_cons, isRecorded, record?, isIgnored, isRejected] <;> omega

namespace Health

def countAll (h : Health) (ds : List Exporter.Dispatch) : Health :=
  ds.foldl (fun h d => h.countMessage d.outcome) h

theorem countAll_append (h : Health) (ds es : List Exporter.Dispatch) :
    h.countAll (ds ++ es) = (h.countAll ds).countAll es := List.foldl_append

theorem countAll_eq (h : Health) (ds : List Exporter.Dispatch) :
    h.countAll ds = { h with
      processed := h.processed +
        (ds.countP Exporter.Dispatch.isRecorded + ds.countP Exporter.Dispatch.isIgnored)
      rejected := h.rejected + ds.countP Exporter.Dispatch.isRejected } := by
  induction ds generalizing h with
  | nil => rfl
  | cons d ds ih =>
    obtain ⟨packet, outcome⟩ := d
    rw [countAll, List.foldl_cons, ← countAll, ih]
    rcases outcome with rejection | r | reason <;>
      simp [countMessage, List.countP_cons, Exporter.Dispatch.isRecorded,
        Exporter.Dispatch.record?, Exporter.Dispatch.isIgnored, Exporter.Dispatch.isRejected] <;>
      omega

end Health

namespace Bench

inductive Call
  | simulate (p : Packet)
  | process (clock : Nat → Moment)
  | sweep (ttl : Nat) (instant : Int)
  | save (now : Int) (path : String)
  | load (now : Moment) (path : String)
  | replaceFiles (files : FileSystem)

def Call.IsProcess : Call → Prop
  | .process _ => True
  | _ => False

/-- The bench after a call; a call that fails leaves it as it was. -/
def call (b : Bench) : Call → Bench
  | .simulate p => (b.simulate p).toOption.getD b
  | .process clock => (b.processPendingBy clock).1
  | .sweep ttl instant => (b.sweep ttl instant).1
  | .save now path => (b.save now path).1
  | .load now path => (b.load now path).toOption.elim b Prod.fst
  | .replaceFiles files => { b with files }

def callAll (b : Bench) (calls : List Call) : Bench := calls.foldl call b

def Call.simulated? : Call → Option Packet
  | .simulate p => some p
  | _ => none

def told (b : Bench) : Call → Nat
  | .process clock => (b.processPendingBy clock).2
  | _ => 0

def toldAll (b : Bench) : List Call → Nat
  | [] => 0
  | c :: cs => b.told c + (b.call c).toldAll cs

def handling (clock : Nat → Moment) : List Packet → Nat → List Exporter.Call
  | [], _ => []
  | p :: ps, count => .handle (clock count) p.topic p.payload :: handling clock ps (count + 1)

def exporterCalls (b : Bench) : Call → List Exporter.Call
  | .process clock => handling clock b.bus.waiting 0
  | .sweep ttl instant => [.sweep ttl instant]
  | .load now path => [.load b.files path now.instant]
  | _ => []

def exporterRun (b : Bench) : List Call → List Exporter.Call
  | [] => []
  | c :: cs => b.exporterCalls c ++ (b.call c).exporterRun cs

/-! Letting messages in -/

theorem packets_handling (e : Exporter) (clock : Nat → Moment) (ps : List Packet) (count : Nat) :
    (e.dispatches (handling clock ps count)).map Exporter.Dispatch.packet = ps := by
  induction ps generalizing e count with
  | nil => rfl
  | cons p ps ih =>
    rw [handling, Exporter.dispatches, Exporter.dispatched?, Option.toList_some,
      List.singleton_append, List.map_cons, ih]

/-- Letting messages in hands them to the exporter one after another, counts each by what it
came to, and leaves all else. -/
theorem receiveAll_eq (b : Bench) (clock : Nat → Moment) (ps : List Packet) (count : Nat) :
    b.receiveAll clock ps count =
      ({ b with
          exporter := b.exporter.callAll (handling clock ps count)
          health := b.health.countAll (b.exporter.dispatches (handling clock ps count)) },
        count + ps.length) := by
  induction ps generalizing b count with
  | nil => rfl
  | cons p ps ih =>
    rw [receiveAll, ih, List.length_cons, Nat.add_right_comm, ← Nat.add_assoc]
    rfl

/-! One call -/

/-- What every call keeps: the exporter has done what was asked of it, health has counted the
messages let in, and those that wait are the ones left and not let in yet. -/
structure Follows (b b' : Bench) (asked : List Exporter.Call) (left : List Packet)
    (told : Nat) : Prop where
  exporter : b'.exporter = b.exporter.callAll asked
  health : b'.health = b.health.countAll (b.exporter.dispatches asked)
  waiting : b.bus.waiting ++ left =
    (b.exporter.dispatches asked).map Exporter.Dispatch.packet ++ b'.bus.waiting
  inbox : b'.bus.inbox.isSome = true
  told : told = (b.exporter.dispatches asked).length

variable {b : Bench}

theorem follows_call (h : b.bus.inbox.isSome = true) (c : Call) :
    Follows b (b.call c) (b.exporterCalls c) c.simulated?.toList (b.told c) := by
  obtain ⟨waiting, hwaiting⟩ := Option.isSome_iff_exists.mp h
  cases c with
  | simulate p =>
    have hcall : b.call (.simulate p) =
        { b with bus := { b.bus with inbox := some (waiting ++ [p]) } } := by
      rw [call, simulate, SimulatedBus.simulate, hwaiting]
      rfl
    rw [hcall]
    exact ⟨rfl, rfl, by rw [SimulatedBus.waiting, hwaiting]; rfl, rfl, rfl⟩
  | process clock =>
    have hpackets := packets_handling b.exporter clock b.bus.waiting 0
    have hdone : b.processPendingBy clock = _ := receiveAll_eq { b with bus := b.bus.drain } clock
      b.bus.waiting 0
    refine ⟨?_, ?_, ?_, ?_, ?_⟩
    · rw [call, hdone]
      rfl
    · rw [call, hdone]
      rfl
    · rw [call, hdone, exporterCalls, hpackets]
      simp [Call.simulated?, SimulatedBus.waiting, SimulatedBus.drain, hwaiting]
    · rw [call, hdone]
      simp [SimulatedBus.drain, hwaiting]
    · rw [told, hdone, exporterCalls, ← List.length_map Exporter.Dispatch.packet, hpackets,
        Nat.zero_add]
  | sweep ttl instant => exact ⟨rfl, rfl, List.append_nil _, h, rfl⟩
  | save now path => exact ⟨rfl, rfl, List.append_nil _, h, rfl⟩
  | load now path =>
    have hexporter : (b.call (.load now path)).exporter =
        b.exporter.call (.load b.files path now.instant) := by
      rw [call, load, Exporter.call]
      cases b.exporter.load b.files path now.instant <;> rfl
    have hrest : (b.call (.load now path)).health = b.health ∧
        (b.call (.load now path)).bus = b.bus := by
      rw [call, load]
      cases b.exporter.load b.files path now.instant <;> exact ⟨rfl, rfl⟩
    exact ⟨hexporter, hrest.1, by rw [hrest.2]; exact List.append_nil _, by rw [hrest.2]; exact h, rfl⟩
  | replaceFiles files => exact ⟨rfl, rfl, List.append_nil _, h, rfl⟩

/-! A whole run -/

theorem Follows.refl (h : b.bus.inbox.isSome = true) : Follows b b [] [] 0 where
  exporter := rfl
  health := rfl
  waiting := List.append_nil _
  inbox := h
  told := rfl

theorem Follows.trans {b' b'' : Bench} {asked asked' : List Exporter.Call}
    {left left' : List Packet} {told told' : Nat} (first : Follows b b' asked left told)
    (rest : Follows b' b'' asked' left' told') :
    Follows b b'' (asked ++ asked') (left ++ left') (told + told') := by
  have hdispatches : b.exporter.dispatches (asked ++ asked') =
      b.exporter.dispatches asked ++ b'.exporter.dispatches asked' := by
    rw [Exporter.dispatches_append, first.exporter]
  refine ⟨?_, ?_, ?_, rest.inbox, ?_⟩
  · rw [rest.exporter, first.exporter, Exporter.callAll, Exporter.callAll, Exporter.callAll,
      List.foldl_append]
  · rw [rest.health, first.health, hdispatches, Health.countAll_append]
  · rw [hdispatches, List.map_append, List.append_assoc, ← rest.waiting, ← List.append_assoc,
      ← List.append_assoc, first.waiting]
  · rw [hdispatches, List.length_append, first.told, rest.told]

theorem follows_callAll (h : b.bus.inbox.isSome = true) (calls : List Call) :
    Follows b (b.callAll calls) (b.exporterRun calls) (calls.filterMap Call.simulated?)
      (b.toldAll calls) := by
  induction calls generalizing b with
  | nil => exact Follows.refl h
  | cons c cs ih =>
    have first := follows_call h c
    have whole := first.trans (ih first.inbox)
    have hleft : c.simulated?.toList ++ cs.filterMap Call.simulated? =
        (c :: cs).filterMap Call.simulated? := by
      rw [List.filterMap_cons]
      cases c.simulated? <;> rfl
    rw [hleft] at whole
    exact whole

/-- A call that lets nothing in moves no tally. -/
theorem tallies_call (b : Bench) {c : Call} (hc : ¬ c.IsProcess) :
    (b.call c).health = b.health ∧
      (b.call c).exporter.store.messages = b.exporter.store.messages := by
  cases c with
  | simulate p =>
    rw [call, simulate]
    cases b.bus.simulate p <;> exact ⟨rfl, rfl⟩
  | process clock => exact absurd trivial hc
  | sweep ttl instant => exact ⟨rfl, (Exporter.expired_sweep b.exporter ttl instant).messages⟩
  | save now path => exact ⟨rfl, rfl⟩
  | load now path =>
    have hmessages := Exporter.messages_call b.exporter (.load b.files path now.instant)
    rw [call, load]
    rw [Exporter.call] at hmessages
    cases hload : b.exporter.load b.files path now.instant with
    | error error => exact ⟨rfl, rfl⟩
    | ok loaded =>
      rw [hload] at hmessages
      exact ⟨rfl, hmessages⟩
  | replaceFiles files => exact ⟨rfl, rfl⟩

/-- Every message from the bus is counted once. In a run of the bench from its start, messages
reach the exporter in the order in which they were left to come in, each once, and those not
let in yet still wait. What the calls say they let in adds up to what was processed and what
was rejected; rejected are those that came to a rejection, and the counter of a node and a
kind is the number of messages recorded for them, so all counters together are the messages
processed without those ignored. Only letting messages in moves any of this. -/
theorem counted_once (filters : List String) (settings : DispatchSettings) (calls : List Call) :
    let start : Bench := { exporter := { filters }, dispatch := settings }
    let after := start.callAll calls
    let dispatches := start.exporter.dispatches (start.exporterRun calls)
    after.exporter = start.exporter.callAll (start.exporterRun calls) ∧
    dispatches.map Exporter.Dispatch.packet ++ after.bus.waiting =
      calls.filterMap Call.simulated? ∧
    start.toldAll calls = after.health.processed + after.health.rejected ∧
    after.health.rejected = dispatches.countP Exporter.Dispatch.isRejected ∧
    (∀ l : CountLabels, after.exporter.store.messageCount l.node l.kind =
      dispatches.countP (·.isCountedAs l)) ∧
    after.exporter.store.messageTotal + dispatches.countP Exporter.Dispatch.isIgnored =
      after.health.processed ∧
    ∀ c : Call, ¬ c.IsProcess → (after.call c).health = after.health ∧
      (after.call c).exporter.store.messages = after.exporter.store.messages := by
  intro start after dispatches
  have hrun : Follows start after _ _ _ := follows_callAll rfl calls
  have hhealth : after.health = Health.countAll {} dispatches := hrun.health
  rw [Health.countAll_eq] at hhealth
  refine ⟨hrun.exporter, hrun.waiting.symm, ?_, ?_, ?_, ?_, ?_⟩
  · have htold : start.toldAll calls = dispatches.length := hrun.told
    rw [htold, ← Exporter.Dispatch.countP_outcomes, hhealth]
    dsimp only
    omega
  · rw [hhealth]
    exact Nat.zero_add _
  · intro l
    rw [hrun.exporter, Exporter.messageCount_callAll Store.Consistent.empty]
    exact Nat.zero_add _
  · rw [hrun.exporter, Exporter.messageTotal_callAll, hhealth]
    exact Nat.add_assoc ..
  · intro c hc
    exact tallies_call after hc

/-- A message that is recorded, one on a topic that is filtered out, and a broken one. -/
def threeMessages : List Call :=
  [.simulate ⟨"msh/a", "\x7b\"from\":1,\"type\":\"nodeinfo\",\"payload\":\x7b\x7d\x7d".toUTF8⟩,
    .simulate ⟨"other/a", "\x7b\x7d".toUTF8⟩, .simulate ⟨"msh/b", "\x7b".toUTF8⟩,
    .process fun _ => ⟨0, 0⟩]

/-- The first is counted for its node and kind, and the last as rejected; the second counts as
processed, though nothing is recorded of it. -/
theorem counted_once_threeMessages :
    let after := callAll { exporter := { filters := ["msh/#"] } } threeMessages
    after.health.processed = 2 ∧ after.health.rejected = 1 ∧
      after.exporter.store.messageCount "1" "nodeinfo" = 1 ∧
      after.exporter.store.messageTotal = 1 := by
  intro after
  obtain ⟨-, -, htold, hrejected, hcounts, htotal, -⟩ :=
    counted_once ["msh/#"] {} threeMessages
  let start : Bench := { exporter := { filters := ["msh/#"] } }
  let dispatches := start.exporter.dispatches (start.exporterRun threeMessages)
  have hnode : after.exporter.store.messageCount "1" "nodeinfo" =
      dispatches.countP (·.isCountedAs ⟨"1", "nodeinfo"⟩) := hcounts ⟨"1", "nodeinfo"⟩
  have hone : dispatches.countP Exporter.Dispatch.isRejected = 1 := by decide +kernel
  have hother : dispatches.countP Exporter.Dispatch.isIgnored = 1 := by decide +kernel
  have hlet : start.toldAll threeMessages = 3 := by decide +kernel
  have hcounted : dispatches.countP (·.isCountedAs ⟨"1", "nodeinfo"⟩) = 1 := by decide +kernel
  have hprocessed : after.health.processed = 2 := by
    change start.toldAll threeMessages = after.health.processed + after.health.rejected at htold
    change after.health.rejected = dispatches.countP Exporter.Dispatch.isRejected at hrejected
    omega
  refine ⟨hprocessed, hrejected.trans hone, hnode.trans hcounted, ?_⟩
  change after.exporter.store.messageTotal + dispatches.countP Exporter.Dispatch.isIgnored =
    after.health.processed at htotal
  omega

end Bench
end MeshTelemetry
