import Mathlib.Data.List.Induction
import MeshTelemetry.Bus.Simulated
import MeshTelemetry.Proofs.Alert.Publishing
import MeshTelemetry.Proofs.Text.Trimming
import MeshTelemetry.Service.Basic

/-! Batches of alerts. Each item has its turn at the state in which the ones before it left the
transport, whether they were delivered or not. The packets that are published are those of the
items one after another, and the report and the status count the items that were delivered. -/

set_option autoImplicit false

namespace MeshTelemetry

namespace WebhookItem

/-- Whether an item is for all nodes: by its label, or for want of one by default. -/
def IsForAll (s : DispatchSettings) (i : WebhookItem) : Prop :=
  match i.labels.get? "mode" with
  | some label =>
    DeliveryMode.NamesBroadcast label ∨ Text.isBlankText label = true ∧ s.mode = .broadcast
  | none => s.mode = .broadcast

def listed (i : WebhookItem) : List UInt32 :=
  match i.labels.get? "targets" with
  | some label => Targets.ofText label
  | none => []

variable (s : DispatchSettings) (now : Int) (i : WebhookItem)

theorem modeOf_toAlert : s.modeOf (i.toAlert now) = .broadcast ↔ i.IsForAll s := by
  unfold DispatchSettings.modeOf IsForAll toAlert
  cases i.labels.get? "mode" with
  | none => exact Iff.rfl
  | some label =>
    dsimp only [Option.bind_some]
    rw [← DeliveryMode.ofLabel?_eq_broadcast_iff, ← DeliveryMode.ofLabel?_eq_none_iff]
    cases DeliveryMode.ofLabel? label <;> simp

theorem targets_toAlert : (i.toAlert now).targets = i.listed := by
  unfold toAlert listed
  cases i.labels.get? "targets" <;> rfl

theorem recipients_of_isForAll (h : i.IsForAll s) :
    s.recipients (i.toAlert now) = [everyNode] := by
  rw [DispatchSettings.recipients, (modeOf_toAlert s now i).mpr h]

theorem recipients_of_not_isForAll (h : ¬ i.IsForAll s) :
    s.recipients (i.toAlert now) = if i.listed = [] then s.targets else i.listed := by
  have hmode : s.modeOf (i.toAlert now) = .direct := by
    cases hmode : s.modeOf (i.toAlert now) with
    | broadcast => exact absurd ((modeOf_toAlert s now i).mp hmode) h
    | direct => rfl
  rw [DispatchSettings.recipients, hmode, targets_toAlert]
  simp only [List.isEmpty_iff]

end WebhookItem

namespace Webhook

/-- What became of an item: the packets that were published of its alert, and the answer. -/
structure Delivery where
  published : List Packet
  answer : Except DispatchError Nat

def Delivery.isSent (d : Delivery) : Bool := d.answer.isOk

section Dispatch

variable {σ : Type} (s : DispatchSettings) (publisher : Option (Publish σ)) (now : Int) (bus : σ)

/-- The transport when an item has its turn, with the items before it dispatched. -/
def busAt (w : Webhook) (i : Nat) : σ :=
  (dispatch s publisher now bus { w with items := w.items.take i }).1

def deliveries (w : Webhook) : List Delivery :=
  w.items.mapIdx fun i item =>
    ⟨s.published publisher (w.busAt s publisher now bus i) (item.toAlert now),
      (s.send publisher (w.busAt s publisher now bus i) (item.toAlert now)).2⟩

def Report.ofDeliveries (ds : List Delivery) : Report :=
  ⟨ds.length, ds.countP Delivery.isSent, ds.countP fun d => !d.isSent⟩

theorem Report.ofDeliveries_append (ds : List Delivery) (d : Delivery) :
    ofDeliveries (ds ++ [d]) = (ofDeliveries ds).add d.answer := by
  obtain ⟨published, answer⟩ := d
  cases answer <;>
    simp [ofDeliveries, add, List.countP_append, Delivery.isSent, Except.isOk, Except.toBool]

variable (status : String) (items : List WebhookItem) (item : WebhookItem)

theorem dispatch_append :
    dispatch s publisher now bus ⟨status, items ++ [item]⟩ =
      let state := dispatch s publisher now bus ⟨status, items⟩
      ((s.send publisher state.1 (item.toAlert now)).1,
        state.2.add (s.send publisher state.1 (item.toAlert now)).2) := by
  simp only [dispatch, List.foldl_append, List.foldl_cons, List.foldl_nil]

theorem busAt_append {i : Nat} (hi : i ≤ items.length) :
    busAt s publisher now bus ⟨status, items ++ [item]⟩ i =
      busAt s publisher now bus ⟨status, items⟩ i := by
  rw [busAt, busAt, List.take_append_of_le_length hi]

theorem busAt_length :
    busAt s publisher now bus ⟨status, items⟩ items.length =
      (dispatch s publisher now bus ⟨status, items⟩).1 := by
  rw [busAt, List.take_length]

theorem deliveries_append :
    deliveries s publisher now bus ⟨status, items ++ [item]⟩ =
      let state := (dispatch s publisher now bus ⟨status, items⟩).1
      deliveries s publisher now bus ⟨status, items⟩ ++
        [⟨s.published publisher state (item.toAlert now),
          (s.send publisher state (item.toAlert now)).2⟩] := by
  dsimp only
  rw [deliveries, List.mapIdx_concat, busAt_append s publisher now bus status items item le_rfl,
    busAt_length, deliveries]
  congr 1
  refine List.mapIdx_eq_mapIdx_iff.mpr fun i hi => ?_
  rw [busAt_append s publisher now bus status items item (Nat.le_of_lt hi)]

theorem report_dispatch (w : Webhook) :
    (w.dispatch s publisher now bus).2 = .ofDeliveries (w.deliveries s publisher now bus) := by
  obtain ⟨status, items⟩ := w
  induction items using List.reverseRecOn with
  | nil => rfl
  | append_singleton items item ih =>
    rw [dispatch_append, deliveries_append]
    dsimp only
    rw [ih, Report.ofDeliveries_append]

/-- With a log, a batch is dispatched the same, and the log is what was published of the items,
one after another. -/
theorem dispatch_logged (w : Webhook) :
    w.dispatch s (publisher.map Publish.logged) now (bus, []) =
      (((w.dispatch s publisher now bus).1,
          (w.deliveries s publisher now bus).flatMap Delivery.published),
        (w.dispatch s publisher now bus).2) := by
  obtain ⟨status, items⟩ := w
  -- From the end, since each item is sent at the state and the log of all those before it.
  induction items using List.reverseRecOn with
  | nil => rfl
  | append_singleton items item ih =>
    rw [dispatch_append, ih, dispatch_append, deliveries_append]
    dsimp only
    rw [DispatchSettings.send_logged, List.flatMap_append, List.flatMap_singleton]

theorem length_deliveries (w : Webhook) :
    (w.deliveries s publisher now bus).length = w.items.length := List.length_mapIdx

end Dispatch

/-! The counts -/

namespace Report

variable (ds : List Delivery)

theorem sent_add_failed : (ofDeliveries ds).sent + (ofDeliveries ds).failed = ds.length := by
  have hcount := List.length_eq_countP_add_countP Delivery.isSent (l := ds)
  simpa [ofDeliveries] using hcount.symm

theorem isFailure_ofDeliveries :
    (ofDeliveries ds).isFailure = true ↔ ds ≠ [] ∧ ∀ d ∈ ds, d.isSent = false := by
  have hsum := sent_add_failed ds
  have hnone : (ofDeliveries ds).sent = 0 ↔ ∀ d ∈ ds, d.isSent = false := by
    simp [ofDeliveries, List.countP_eq_zero]
  have hlength : ds ≠ [] ↔ 0 < ds.length := List.length_pos_iff.symm
  rw [isFailure, decide_eq_true_eq, ← hnone, hlength]
  omega

end Report

section Items

variable {σ : Type} (s : DispatchSettings) (publisher : Option (Publish σ)) (now : Int) (bus : σ)
  (w : Webhook)

theorem getElem?_deliveries {i : Nat} (hi : i < w.items.length) :
    (w.deliveries s publisher now bus)[i]? =
      some ⟨s.published publisher (w.busAt s publisher now bus i) (w.items[i].toAlert now),
        (s.send publisher (w.busAt s publisher now bus i) (w.items[i].toAlert now)).2⟩ := by
  rw [deliveries, List.getElem?_mapIdx, List.getElem?_eq_getElem hi, Option.map_some]

end Items
end Webhook

namespace Service

variable {σ : Type}

theorem respond_of_webhook (svc : Service σ) (now : Int) (bus : σ) {r : Http.Request} {w : Webhook}
    (hmethod : r.method = "POST") (hpath : r.path = "/alerts") (hbody : webhookOf r = .ok w) :
    svc.respond now bus r =
      ((w.dispatch svc.dispatch svc.publisher now bus).1,
        reportResponse (w.dispatch svc.dispatch svc.publisher now bus).2) := by
  have hresource : Resource.ofPath? r.path = some .alerts := by
    rw [hpath]
    rfl
  rw [respond, hresource]
  dsimp only
  rw [takeAlerts, if_neg (by simp [hmethod]), hbody]

/-- The report on a batch and the status say what happened to it. Each item has its turn at the
state that the ones before it left, delivered or not; the packets published are those of the
items one after another. An item counts as sent if all its packets were published, and as failed
if not, and the status is that of an error only if there were items and none was sent. -/
theorem respond_alerts (svc : Service σ) (now : Int) (bus : σ) (w : Webhook) :
    let s := svc.dispatch
    let deliveries := w.deliveries s svc.publisher now bus
    let sent := deliveries.countP Webhook.Delivery.isSent
    let failed := deliveries.countP fun d => !d.isSent
    let after := (w.dispatch s svc.publisher now bus).1
    let report := (w.dispatch s svc.publisher now bus).2
    deliveries.length = w.items.length ∧
    (∀ i (hi : i < w.items.length),
      let item := w.items[i]
      let a := item.toAlert now
      let turn := (Webhook.dispatch s svc.publisher now bus { w with items := w.items.take i }).1
      (∃ d, deliveries[i]? = some d ∧ d.published = s.published svc.publisher turn a ∧
        d.answer = (s.send svc.publisher turn a).2 ∧ d.published <+: s.packets a ∧
        (d.isSent = true ↔
          svc.publisher ≠ none ∧ s.recipients a ≠ [] ∧ d.published = s.packets a)) ∧
      (item.IsForAll s → s.recipients a = [4294967295]) ∧
      (¬ item.IsForAll s →
        s.recipients a = if item.listed = [] then s.targets else item.listed)) ∧
    w.dispatch s (svc.publisher.map Publish.logged) now (bus, []) =
      ((after, deliveries.flatMap Webhook.Delivery.published), report) ∧
    report = ⟨w.items.length, sent, failed⟩ ∧ sent + failed = w.items.length ∧
    ∀ r : Http.Request, r.method = "POST" → r.path = "/alerts" → webhookOf r = .ok w →
      svc.respond now bus r = (after,
        ⟨if w.items ≠ [] ∧ ∀ d ∈ deliveries, d.isSent = false then 503 else 200,
          some "application/json", .json (.object [("received", .ofNat w.items.length),
            ("sent", .ofNat sent), ("failed", .ofNat failed)])⟩) := by
  intro s deliveries sent failed after report
  have hlength : deliveries.length = w.items.length := Webhook.length_deliveries s _ now bus w
  have hreport : report = .ofDeliveries deliveries := Webhook.report_dispatch s _ now bus w
  refine ⟨hlength, fun i hi => ⟨?_, ?_, ?_⟩, ?_, ?_, ?_, fun r hmethod hpath hbody => ?_⟩
  · exact ⟨_, Webhook.getElem?_deliveries s svc.publisher now bus w hi, rfl, rfl,
      s.published_prefix _ _ _, s.isOk_send_iff _ _ _⟩
  · exact WebhookItem.recipients_of_isForAll s now w.items[i]
  · exact WebhookItem.recipients_of_not_isForAll s now w.items[i]
  · exact Webhook.dispatch_logged s svc.publisher now bus w
  · rw [hreport, Webhook.Report.ofDeliveries, hlength]
  · rw [← hlength]
    exact Webhook.Report.sent_add_failed deliveries
  · have hitems : w.items ≠ [] ↔ deliveries ≠ [] := by
      rw [← List.length_pos_iff, ← List.length_pos_iff, hlength]
    have hfailure := Webhook.Report.isFailure_ofDeliveries deliveries
    rw [← hitems] at hfailure
    rw [svc.respond_of_webhook now bus hmethod hpath hbody]
    change (after, reportResponse report) = _
    rw [reportResponse, hreport, if_congr hfailure rfl rfl, Webhook.Report.ofDeliveries, hlength]
    rfl

def directService : Service SimulatedBus :=
  ⟨{}, {}, { mode := .direct }, some SimulatedBus.publish⟩

def mixedBatch : Webhook :=
  { items := [
      { labels := .ofList [("mode", " BroadCast ")] }, {},
      { labels := .ofList [("targets", "7,!a")] }] }

def mixedRequest : Http.Request :=
  { method := "POST", target := "/alerts", contentType := some "application/json"
    body := (Json.object [("alerts", .array [
      .object [("labels", .object [("mode", .string " BroadCast ")])], .object [],
      .object [("labels", .object [("targets", .string "7,!a")])]])]).compact.toUTF8 }

/-- The bus refuses the third packet. One item is sent, and the last one fails although its
first packet is published. -/
theorem respond_alerts_mixedBatch :
    (directService.respond 0 { refuseAt := some 2 } mixedRequest).2 =
      ⟨200, some "application/json",
        .json (.object [("received", .ofNat 3), ("sent", .ofNat 1), ("failed", .ofNat 2)])⟩ ∧
    (directService.respond 0 { refuseAt := some 2 } mixedRequest).1.published.map
        (fun p => (Downlink.ofPacket p).toOption.map Downlink.recipient) =
      [some 4294967295, some 7] := by
  obtain ⟨_, _, _, _, _, hrespond⟩ :=
    respond_alerts directService 0 { refuseAt := some 2 } mixedBatch
  rw [hrespond mixedRequest rfl (by decide +kernel) (by decide +kernel)]
  have hsent : (mixedBatch.deliveries directService.dispatch directService.publisher 0
      { refuseAt := some 2 }).countP Webhook.Delivery.isSent = 1 := by decide +kernel
  have hfailed : ((mixedBatch.deliveries directService.dispatch directService.publisher 0
      { refuseAt := some 2 }).countP fun d => !d.isSent) = 2 := by decide +kernel
  have hsome : ¬ (mixedBatch.items ≠ [] ∧
      ∀ d ∈ mixedBatch.deliveries directService.dispatch directService.publisher 0
        { refuseAt := some 2 }, d.isSent = false) := by decide +kernel
  refine ⟨?_, by decide +kernel⟩
  dsimp only
  rw [if_neg hsome, hsent, hfailed]
  rfl

end Service
end MeshTelemetry
