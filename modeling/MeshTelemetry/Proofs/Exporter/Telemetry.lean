import MeshTelemetry.Proofs.Exporter.Counting
import MeshTelemetry.Proofs.Exporter.LastWrite
import MeshTelemetry.Proofs.Json.Members
import MeshTelemetry.Proofs.Message.Envelopes
import MeshTelemetry.Proofs.Metrics.FiniteGauges

/-! What a telemetry message writes. Every gauge of its sender has one key that it is read
from, in the payload or, for the signal, before that in the envelope. A number under that key
is what the gauge holds afterwards; anything else under it leaves the gauge as it was and is no
fault of the message. -/

set_option autoImplicit false

namespace MeshTelemetry

open Json (member?)

/-! Readings -/

namespace Gauge

/-- The gauges that only a payload gives, their keys, and what is stored of a number. -/
def payloadFields : List (Gauge × String × (Binary64 → Binary64)) :=
  [(batteryLevel, "battery_level", id),
   (voltage, "voltage", Binary64.round2),
   (uptime, "uptime_seconds", id),
   (temperature, "temperature", Binary64.round2),
   (relativeHumidity, "relative_humidity", Binary64.round2),
   (barometricPressure, "barometric_pressure", Binary64.round2),
   (channelUtilization, "channel_utilization", Binary64.round2),
   (airUtilTx, "air_util_tx", Binary64.round2)]

/-- The gauges that an envelope gives, or else its payload, and their keys. -/
def signalFields : List (Gauge × String) := [(rssi, "rssi"), (snr, "snr")]

end Gauge

namespace Readings

variable {ms : Json.Members} {key : String}

theorem number?_of_number {n : Json.Number} (h : member? ms key = some (.number n))
    (hfinite : n.IsFinite) : number? ms key = some n.toFloat := by
  rw [number?, h, Option.bind_some, Json.asFinite?, Json.asNumber?, Option.map_some]
  exact Option.filter_some_pos hfinite

theorem number?_of_no_number (h : ∀ n, member? ms key ≠ some (.number n)) :
    number? ms key = none := by
  rw [number?]
  cases hv : member? ms key with
  | none => rfl
  | some v =>
    cases v with
    | number n => exact absurd hv (h n)
    | _ => rfl

end Readings

namespace Envelope

/-- Whether a payload holds a value under a key. One that is no object holds nothing. -/
def InPayload (e : Envelope) (key : String) (v : Json) : Prop :=
  ∃ ms, member? e "payload" = some (.object ms) ∧ member? ms key = some v

variable {e : Envelope} {key : String} {v : Json}

theorem InPayload.isDecoded (h : e.InPayload key v) (he : Json.IsDecoded (.object e)) :
    Json.IsDecoded v := by
  obtain ⟨ms, hms, hv⟩ := h
  exact (he.member hms).member hv

theorem inPayload_iff : e.InPayload key v ↔ member? (Message.payloadOf e) key = some v := by
  constructor
  · rintro ⟨ms, hms, hv⟩
    rw [Message.payloadOf, hms]
    exact hv
  · intro hv
    unfold Message.payloadOf at hv
    cases hpayload : member? e "payload" with
    | none =>
      rw [hpayload] at hv
      cases hv
    | some p =>
      rw [hpayload] at hv
      cases p with
      | object ms => exact ⟨ms, hpayload, hv⟩
      | _ => cases hv

end Envelope

/-! Times -/

namespace Message

variable {e : Envelope} {now t : Int}

theorem timestampOf_of_time (h : member? e "timestamp" = some (.number (.int t))) (hlow : 1 ≤ t)
    (hhigh : t ≤ greatestSigned64) : timestampOf now e = t := by
  have hrange : leastSigned64 ≤ t ∧ t ≤ greatestSigned64 :=
    ⟨Int.le_trans (by decide) hlow, hhigh⟩
  have hpos : (some t).filter (0 < ·) = some t := Option.filter_some_pos (decide_eq_true hlow)
  rw [timestampOf, h, Option.bind_some, Json.asSigned64?, Json.asNumber?, Option.bind_some,
    Json.Number.signed64?, if_pos hrange, hpos, Option.getD_some]

theorem timestampOf_of_no_time
    (h : ∀ t, member? e "timestamp" = some (.number (.int t)) → ¬ (1 ≤ t ∧ t ≤ greatestSigned64)) :
    timestampOf now e = now := by
  unfold timestampOf
  cases hsent : ((member? e "timestamp").bind Json.asSigned64?).filter (0 < ·) with
  | none => rfl
  | some t =>
    obtain ⟨hsent, hpos⟩ := Option.filter_eq_some_iff.mp hsent
    obtain ⟨v, hv, hsigned⟩ := Option.bind_eq_some_iff.mp hsent
    obtain ⟨n, hn, hint⟩ := Option.bind_eq_some_iff.mp hsigned
    cases v <;> cases hn
    cases n with
    | float x => cases hint
    | int i =>
      rw [Json.Number.signed64?] at hint
      split at hint
      · rename_i hrange
        cases hint
        exact absurd ⟨of_decide_eq_true hpos, hrange.2⟩ (h t hv)
      · cases hint

end Message

/-! Records -/

structure TelemetryRecord.IsOf (r : TelemetryRecord) (now : Int) (sender : UInt32)
    (e : Envelope) : Prop where
  node : r.node = nodeId sender
  timestamp : r.timestamp = Message.timestampOf now e
  payload : ∀ g key f, (g, key, f) ∈ Gauge.payloadFields →
    r.readings.get? g = (Readings.number? (Message.payloadOf e) key).map f
  signal : ∀ g key, (g, key) ∈ Gauge.signalFields →
    r.readings.get? g = (Readings.number? e key).or (Readings.number? (Message.payloadOf e) key)

theorem Message.record?_telemetry {e : Envelope} {sender : UInt32} (now : Int)
    (hsender : senderOf e = .ok sender) (htype : member? e "type" = some (.string "telemetry")) :
    ∃ m r, ofEnvelope now e = .ok m ∧ m.record? = some (.telemetry r) ∧ r.IsOf now sender e := by
  have hkind : MessageKind.ofName (((member? e "type").bind Json.asString?).getD "") =
      .telemetry := by
    rw [htype]
    rfl
  rw [ofEnvelope, hsender, hkind]
  refine ⟨_, _, rfl, rfl, rfl, rfl, ?_, ?_⟩
  · intro g key f h
    simp only [Gauge.payloadFields, List.mem_cons, Prod.mk.injEq, List.not_mem_nil, or_false] at h
    rcases h with ⟨rfl, rfl, rfl⟩ | ⟨rfl, rfl, rfl⟩ | ⟨rfl, rfl, rfl⟩ | ⟨rfl, rfl, rfl⟩ |
      ⟨rfl, rfl, rfl⟩ | ⟨rfl, rfl, rfl⟩ | ⟨rfl, rfl, rfl⟩ | ⟨rfl, rfl, rfl⟩
    case inl | inr.inr.inl => exact (Option.map_id_apply).symm
    all_goals rfl
  · intro g key h
    simp only [Gauge.signalFields, List.mem_cons, Prod.mk.injEq, List.not_mem_nil, or_false] at h
    rcases h with ⟨rfl, rfl⟩ | ⟨rfl, rfl⟩ <;> rfl

theorem Store.gauge?_record_telemetry (s : Store) (r : TelemetryRecord) {g : Gauge}
    (hg : g ≠ .lastSeen) :
    (s.record (.telemetry r)).gauge? g r.node = (r.readings.get? g).or (s.gauge? g r.node) := by
  have hwritten : (Record.telemetry r).written? g = r.readings.get? g := by
    cases g <;> first | rfl | exact absurd rfl hg
  rw [gauge?_record, Record.node, if_pos rfl, hwritten]

namespace TelemetryRecord.IsOf

variable {r : TelemetryRecord} {now : Int} {sender : UInt32} {e : Envelope} {g : Gauge}
  {key : String}

theorem payload_gauge (h : r.IsOf now sender e) (he : Json.IsDecoded (.object e)) (s : Store)
    {f : Binary64 → Binary64} (hg : (g, key, f) ∈ Gauge.payloadFields) :
    (∀ n, e.InPayload key (.number n) →
      (s.record (.telemetry r)).gauge? g r.node = some (f n.toFloat)) ∧
    ((∀ n, ¬ e.InPayload key (.number n)) →
      (s.record (.telemetry r)).gauge? g r.node = s.gauge? g r.node) := by
  have hreading : ∀ field ∈ Gauge.payloadFields, field.1 ≠ .lastSeen := by decide
  rw [s.gauge?_record_telemetry r (hreading _ hg), h.payload g key f hg]
  constructor
  · intro n hn
    rw [Readings.number?_of_number (Envelope.inPayload_iff.mp hn) (hn.isDecoded he).isFinite]
    rfl
  · intro hnone
    rw [Readings.number?_of_no_number fun n hn => hnone n (Envelope.inPayload_iff.mpr hn)]
    rfl

theorem signal_gauge (h : r.IsOf now sender e) (he : Json.IsDecoded (.object e)) (s : Store)
    (hg : (g, key) ∈ Gauge.signalFields) :
    (∀ n, member? e key = some (.number n) →
      (s.record (.telemetry r)).gauge? g r.node = some n.toFloat) ∧
    ((∀ n, member? e key ≠ some (.number n)) →
      (∀ n, e.InPayload key (.number n) →
        (s.record (.telemetry r)).gauge? g r.node = some n.toFloat) ∧
      ((∀ n, ¬ e.InPayload key (.number n)) →
        (s.record (.telemetry r)).gauge? g r.node = s.gauge? g r.node)) := by
  have hreading : ∀ field ∈ Gauge.signalFields, field.1 ≠ .lastSeen := by decide
  rw [s.gauge?_record_telemetry r (hreading _ hg), h.signal g key hg]
  constructor
  · intro n hn
    rw [Readings.number?_of_number hn (he.member hn).isFinite]
    rfl
  · -- Without a number in the envelope the payload decides, as for the other gauges.
    intro houter
    rw [Readings.number?_of_no_number houter]
    constructor
    · intro n hn
      rw [Readings.number?_of_number (Envelope.inPayload_iff.mp hn) (hn.isDecoded he).isFinite]
      rfl
    · intro hnone
      rw [Readings.number?_of_no_number fun n hn => hnone n (Envelope.inPayload_iff.mpr hn)]
      rfl

theorem lastSeen_gauge (h : r.IsOf now sender e) (s : Store) :
    (∀ t, member? e "timestamp" = some (.number (.int t)) → 1 ≤ t → t ≤ greatestSigned64 →
      (s.record (.telemetry r)).gauge? .lastSeen r.node = some (Binary64.ofInt t)) ∧
    ((∀ t, member? e "timestamp" = some (.number (.int t)) → ¬ (1 ≤ t ∧ t ≤ greatestSigned64)) →
      (s.record (.telemetry r)).gauge? .lastSeen r.node = some (Binary64.ofInt now)) := by
  have hwritten : (s.record (.telemetry r)).gauge? .lastSeen r.node =
      some (Binary64.ofInt r.timestamp) := by
    rw [Store.gauge?_record, Record.node, if_pos rfl, Record.written?, Option.some_or]
  rw [hwritten, h.timestamp]
  constructor
  · intro t ht hlow hhigh
    rw [Message.timestampOf_of_time ht hlow hhigh]
  · intro hnone
    rw [Message.timestampOf_of_no_time hnone]

end TelemetryRecord.IsOf

namespace Exporter

/-- A telemetry message writes its own fields and nothing else. Whatever else it holds it is
recorded. Each gauge of its sender that only a payload gives holds the number under its key, in
two decimals or as it was sent, and stays as it was if there is no number; a signal in the
envelope counts before one in the payload. The sender was last seen at the time that the
envelope gives, or else now, and its counter goes up by one. All other series stay. -/
theorem handle_telemetry (filters : List String) (ops : List Store.Operation)
    (activity : Activity) (now : Moment) (topic : String) (payload : ByteArray)
    (envelope : Envelope) (sender : UInt32) (number : Json.Number)
    (hpasses : Topic.passes topic filters = true)
    (henvelope : Envelope.ofMessage topic payload = .ok envelope)
    (hfrom : member? envelope "from" = some (.number number))
    (hnumber : number.Denotes sender.toNat) (hsender : sender ≠ 0)
    (htype : member? envelope "type" = some (.string "telemetry")) :
    let e : Exporter := { filters, store := Store.performAll {} ops, activity }
    let node := toString sender.toNat
    let before := e.store
    let after := (e.handle now topic payload).1.store
    (∃ r : TelemetryRecord, r.node = node ∧
      (e.handle now topic payload).2 = .ok (.recorded (.telemetry r))) ∧
    (∀ g key f, (g, key, f) ∈ Gauge.payloadFields →
      (∀ n, envelope.InPayload key (.number n) → after.gauge? g node = some (f n.toFloat)) ∧
      ((∀ n, ¬ envelope.InPayload key (.number n)) →
        after.gauge? g node = before.gauge? g node)) ∧
    (∀ g key, (g, key) ∈ Gauge.signalFields →
      (∀ n, member? envelope key = some (.number n) → after.gauge? g node = some n.toFloat) ∧
      ((∀ n, member? envelope key ≠ some (.number n)) →
        (∀ n, envelope.InPayload key (.number n) → after.gauge? g node = some n.toFloat) ∧
        ((∀ n, ¬ envelope.InPayload key (.number n)) →
          after.gauge? g node = before.gauge? g node))) ∧
    (∀ t, member? envelope "timestamp" = some (.number (.int t)) → 1 ≤ t →
      t ≤ 9223372036854775807 → after.gauge? .lastSeen node = some (Binary64.ofInt t)) ∧
    ((∀ t, member? envelope "timestamp" = some (.number (.int t)) →
        ¬ (1 ≤ t ∧ t ≤ 9223372036854775807)) →
      after.gauge? .lastSeen node = some (Binary64.ofInt now.unix)) ∧
    after.messageCount node "telemetry" = before.messageCount node "telemetry" + 1 ∧
    (∀ c : CountLabels × Nat, c.1 ≠ ⟨node, "telemetry"⟩ →
      (c ∈ after.messageSeries ↔ c ∈ before.messageSeries)) ∧
    after.infoSeries = before.infoSeries ∧
    ∀ g m, m ≠ node → after.gauge? g m = before.gauge? g m := by
  intro e node before after
  -- Counters are known by labels run together; only in a consistent store do they tell nodes apart.
  have hbefore : before.Consistent := Store.Consistent.empty.performAll ops
  have hdecoded : Json.IsDecoded (.object envelope) :=
    .of_decode? (Envelope.ofMessage_eq_ok_iff.mp henvelope).2.2.1
  obtain ⟨m, r, hm, hrecord, hr⟩ := Message.record?_telemetry now.unix
    (Message.senderOf_of_denotes hfrom hsender hnumber) htype
  have hjudge := judge_of_message hpasses henvelope hm
  rw [hrecord] at hjudge
  have hhandle : e.handle now topic payload =
      (e.record now.instant (.telemetry r), .ok (.recorded (.telemetry r))) :=
    handle_of_judge_recorded hjudge
  have hnode : r.node = node := hr.node
  have hafter : after = before.record (.telemetry r) :=
    congrArg (fun result => result.1.store) hhandle
  have hlabels : (Record.telemetry r).countLabels = ⟨node, "telemetry"⟩ := by
    rw [← hnode]
    rfl
  rw [hafter, ← hnode]
  refine ⟨⟨r, rfl, congrArg Prod.snd hhandle⟩, fun g key f hg => hr.payload_gauge hdecoded _ hg,
    fun g key hg => hr.signal_gauge hdecoded _ hg, (hr.lastSeen_gauge before).1,
    (hr.lastSeen_gauge before).2, ?_, ?_, ?_, ?_⟩
  · rw [hnode, hbefore.messageCount_record (.telemetry r) ⟨node, "telemetry"⟩, if_pos hlabels]
  · intro c hc
    rw [hnode, ← hlabels] at hc
    exact hbefore.mem_messageSeries_record_of_ne _ hc
  · rw [Store.infoSeries, Store.record, Store.info_recordTelemetry, Store.infoSeries]
  · intro g m hne
    exact Store.gauge?_record_of_ne before (.telemetry r) g hne

def sparsePayload : Json.Members :=
  [("battery_level", .ofNat 50), ("voltage", .string "low"), ("snr", .ofNat 6)]

def sparseMembers : Envelope :=
  Json.collect [
    ("from", .ofNat 7), ("type", .string "telemetry"), ("rssi", .ofNat 5),
    ("snr", .string "none"), ("payload", .ofMembers sparsePayload)]

theorem readsBack_sparseMembers : Json.ReadsBack Json.nestingRoom (.object sparseMembers) := by
  refine Json.readsBack_ofMembers ?_
  simp only [List.forall_mem_cons]
  refine ⟨Json.readsBack_uint32 _ 7, Json.readsBack_string _ _, Json.readsBack_uint32 _ 5,
    Json.readsBack_string _ _, Json.readsBack_ofMembers ?_, List.forall_mem_nil _⟩
  simp only [sparsePayload, List.forall_mem_cons]
  exact ⟨Json.readsBack_uint32 _ 50, Json.readsBack_string _ _, Json.readsBack_uint32 _ 6,
    List.forall_mem_nil _⟩

def heardBefore : List Store.Operation :=
  [.record (.telemetry ⟨"7", .device, 90, { voltage := some (Binary64.ofInt 3) }⟩)]

/-- The voltage stays, and everything that is a number is written. -/
theorem handle_telemetry_sparse :
    let e : Exporter := { filters := ["msh/#"], store := Store.performAll {} heardBefore }
    let after := (e.handle ⟨100, 0⟩ "msh/x" (Json.object sparseMembers).compact.toUTF8).1.store
    after.gauge? .batteryLevel "7" = some (Binary64.ofInt 50) ∧
    after.gauge? .voltage "7" = some (Binary64.ofInt 3) ∧
    after.gauge? .rssi "7" = some (Binary64.ofInt 5) ∧
    after.gauge? .snr "7" = some (Binary64.ofInt 6) ∧
    after.gauge? .lastSeen "7" = some (Binary64.ofInt 100) ∧
    after.messageCount "7" "telemetry" = 2 := by
  dsimp only
  have member (key : String) : member? sparseMembers key = _ := Json.member?_collect _ key
  have henvelope : Envelope.ofMessage "msh/x" (Json.object sparseMembers).compact.toUTF8 =
      .ok sparseMembers :=
    Envelope.ofMessage_of_decodePayload (by decide) (by decide) (by decide) (by decide +kernel)
      ((Json.decode?_compact _).trans readsBack_sparseMembers)
      (by rw [member]; rfl)
  obtain ⟨_, hpayload, hsignal, _, htime, hcount, _⟩ :=
    handle_telemetry ["msh/#"] heardBefore {} ⟨100, 0⟩ "msh/x" _ sparseMembers 7 (.int 7)
      (by decide +kernel) henvelope (member "from") rfl (by decide) (member "type")
  have hseven : toString (7 : UInt32).toNat = "7" := by decide
  rw [hseven] at hpayload hsignal htime hcount
  have inner (key : String) (v : Json) (h : member? sparsePayload.reverse key = some v) :
      sparseMembers.InPayload key v :=
    ⟨Json.collect sparsePayload, member "payload", (Json.member?_collect _ key).trans h⟩
  have hvoltage : ∀ n, ¬ sparseMembers.InPayload "voltage" (.number n) := by
    intro n hn
    have hlow := Envelope.inPayload_iff.mp (inner "voltage" (.string "low") rfl)
    rw [Envelope.inPayload_iff.mp hn] at hlow
    cases hlow
  have hsnr : ∀ n, member? sparseMembers "snr" ≠ some (.number n) := by
    intro n hn
    rw [member] at hn
    cases hn
  have hnow : ∀ t, member? sparseMembers "timestamp" = some (.number (.int t)) →
      ¬ (1 ≤ t ∧ t ≤ 9223372036854775807) := by
    intro t ht
    rw [member] at ht
    cases ht
  have hbattery := (hpayload _ _ _ List.mem_cons_self).1 (.int 50) (inner _ _ rfl)
  have hkept := (hpayload _ _ _ (List.mem_cons_of_mem _ List.mem_cons_self)).2 hvoltage
  have houter := (hsignal _ _ List.mem_cons_self).1 (.int 5) (member "rssi")
  have hinner := ((hsignal _ _ (List.mem_cons_of_mem _ List.mem_cons_self)).2 hsnr).1 (.int 6)
    (inner _ _ rfl)
  rw [id_eq] at hbattery
  rw [Json.Number.toFloat] at hbattery houter hinner
  refine ⟨hbattery, hkept.trans ?_, houter, hinner, htime hnow, hcount.trans ?_⟩
  · decide +kernel
  · decide +kernel

end Exporter
end MeshTelemetry
