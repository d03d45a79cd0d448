import MeshTelemetry.Bus.Simulated
import MeshTelemetry.Proofs.Alert.Downlinks
import MeshTelemetry.Proofs.Alert.Publishing
import MeshTelemetry.Proofs.Exporter.Calls
import MeshTelemetry.Proofs.Message.Envelopes

/-! Alerts that come back. Downlinks go to the bus that the exporter listens to, so it can be
handed its own alerts. Whatever they say, their packets decode to the members that were
written, among them a kind that is not recorded; so an alert never leaves a trace. -/

set_option autoImplicit false

namespace MeshTelemetry

namespace Downlink

def members (d : Downlink) : Json.Members :=
  [("from", .ofNat d.sender.toNat), ("payload", .string d.text),
    ("to", .ofNat d.recipient.toNat), ("type", .string d.kind)]

variable {d : Downlink} {topic channel : String} {now : Int} {m : Message}

theorem eq_members_of_ofMessage {e : Envelope}
    (h : Envelope.ofMessage topic (d.toPacket channel).payload = .ok e) : e = d.members := by
  obtain ⟨_, _, hdecode, _⟩ := Envelope.ofMessage_eq_ok_iff.mp h
  rw [decodePayload_toPacket] at hdecode
  exact (Json.object.inj (Option.some.inj hdecode)).symm

theorem ofMessage_toPacket (named : topic ≠ "") (short : topic.utf8ByteSize ≤ maxTopicBytes)
    (clean : '\x00' ∉ topic.toList) (small : (d.toPacket channel).payload.size ≤ maxPayloadBytes) :
    Envelope.ofMessage topic (d.toPacket channel).payload = .ok d.members :=
  Envelope.ofMessage_of_decodePayload named short clean small (decodePayload_toPacket d channel) rfl

theorem kind_of_ofEnvelope_members (h : Message.ofEnvelope now d.members = .ok m) :
    m.kind = MessageKind.ofName d.kind := by
  unfold Message.ofEnvelope at h
  split at h
  · cases h
  · cases h
    rfl

theorem record?_of_ofEnvelope_members (hkind : d.kind = "text")
    (h : Message.ofEnvelope now d.members = .ok m) : m.record? = none := by
  have hother : m.kind = .other "text" := by
    rw [kind_of_ofEnvelope_members h, hkind]
    rfl
  rw [Message.record?, hother]

theorem ofEnvelope_members (hsender : d.sender ≠ 0) :
    ∃ m, Message.ofEnvelope now d.members = .ok m := by
  have hfrom : Json.member? d.members "from" = some (.number (.int d.sender.toNat)) := rfl
  rw [Message.ofEnvelope, Message.senderOf_of_denotes hfrom hsender rfl]
  exact ⟨_, rfl⟩

end Downlink

namespace Exporter

variable {d : Downlink} {topic channel : String}

theorem handle_toPacket (e : Exporter) (now : Moment) (topic channel : String)
    (hkind : d.kind = "text") :
    (∀ r, (e.handle now topic (d.toPacket channel).payload).2 ≠ .ok (.recorded r)) ∧
      (e.handle now topic (d.toPacket channel).payload).1 = e := by
  rcases handle_cases e now topic (d.toPacket channel).payload with ⟨r, hjudge, _⟩ | hnot
  · obtain ⟨envelope, message, henvelope, hmessage, hrecord⟩ := message_of_judge hjudge
    rw [Downlink.eq_members_of_ofMessage henvelope] at hmessage
    rw [Downlink.record?_of_ofEnvelope_members hkind hmessage] at hrecord
    cases hrecord
  · exact hnot

theorem handle_toPacket_of_bounds (e : Exporter) (now : Moment) (hkind : d.kind = "text")
    (hsender : d.sender ≠ 0) (named : topic ≠ "") (short : topic.utf8ByteSize ≤ maxTopicBytes)
    (clean : '\x00' ∉ topic.toList) (small : (d.toPacket channel).payload.size ≤ maxPayloadBytes) :
    (e.handle now topic (d.toPacket channel).payload).2 =
      .ok (.ignored (if Topic.passes topic e.filters then .unhandledType else .topicFiltered)) := by
  cases hpasses : Topic.passes topic e.filters with
  | false =>
    have hjudge : judge e.filters now.unix topic (d.toPacket channel).payload =
        .ok (.ignored .topicFiltered) := by
      rw [judge, hpasses]
      rfl
    rw [handle_of_judge_ignored hjudge]
    rfl
  | true =>
    obtain ⟨m, hm⟩ : ∃ m, Message.ofEnvelope now.unix d.members = .ok m :=
      Downlink.ofEnvelope_members hsender
    have hjudge := judge_of_message hpasses
      (Downlink.ofMessage_toPacket named short clean small) hm
    rw [Downlink.record?_of_ofEnvelope_members hkind hm] at hjudge
    rw [handle_of_judge_ignored hjudge]
    rfl

end Exporter

theorem DispatchSettings.downlink_of_published {σ : Type} {s : DispatchSettings}
    {publisher : Option (Publish σ)} {bus : σ} {a : Alert} {p : Packet}
    (h : p ∈ s.published publisher bus a) :
    ∃ (d : Downlink) (topic : String), d.kind = "text" ∧ d.sender = s.sender ∧ topic ≠ "" ∧
      p = d.toPacket topic := by
  obtain ⟨r, _, rfl⟩ := s.exists_recipient_of_published publisher bus a h
  exact ⟨s.downlink a r, s.topic (s.channelOf a), rfl, rfl,
    channelTopic_ne_empty s.trimmedRoot (s.channelOf a) s.sender, rfl⟩

namespace Exporter

/-- The exporter never records its own alerts. Handed anything that was published of an alert,
whatever the transport took and refused, it records nothing and stays as it is. If the alert
names its sender and the packet is within the bounds, it is no error either: the packet is
ignored for its topic or, where that passes, for its kind. -/
theorem own_alerts_leave_no_trace {σ : Type} (s : DispatchSettings)
    (publisher : Option (Publish σ)) (bus : σ) (a : Alert) (e : Exporter) (now : Moment) :
    ∀ p ∈ s.published publisher bus a,
      (∀ r, (e.handle now p.topic p.payload).2 ≠ .ok (.recorded r)) ∧
      (e.handle now p.topic p.payload).1 = e ∧
      (s.sender ≠ 0 → p.topic.utf8ByteSize ≤ 256 → '\x00' ∉ p.topic.toList →
        p.payload.size ≤ 1024 * 1024 →
        (e.handle now p.topic p.payload).2 =
          .ok (.ignored
            (if Topic.passes p.topic e.filters then .unhandledType else .topicFiltered))) := by
  intro p hp
  obtain ⟨d, topic, hkind, hsender, hnamed, rfl⟩ := DispatchSettings.downlink_of_published hp
  obtain ⟨hnot, hsame⟩ := handle_toPacket e now topic topic hkind
  refine ⟨hnot, hsame, fun hne short clean small => ?_⟩
  exact handle_toPacket_of_bounds e now hkind (hsender ▸ hne) hnamed short clean small

/-- An alert that looks like telemetry as far as its quotes let it. -/
def quotingAlert : Alert :=
  { severity := "info", message := "\",\"type\":\"telemetry\",\"from\":7", timestamp := 0 }

def signedSettings : DispatchSettings := { sender := 0xDEADBEEF }

/-- It is published, passes the filter of the exporter and is ignored for its kind. -/
theorem own_alerts_leave_no_trace_quoting :
    ∃ p ∈ signedSettings.published (some SimulatedBus.publish) {} quotingAlert,
      p.topic = "msh/US/2/json/LongFast/!deadbeef" ∧
      handle { filters := ["msh/#"] } ⟨0, 0⟩ p.topic p.payload =
        ({ filters := ["msh/#"] }, .ok (.ignored .unhandledType)) := by
  let p : Packet := (signedSettings.downlink quotingAlert everyNode).toPacket
    (signedSettings.topic (signedSettings.channelOf quotingAlert))
  have hpublished : p ∈ signedSettings.published (some SimulatedBus.publish) {} quotingAlert :=
    List.mem_singleton.mpr rfl
  obtain ⟨_, hsame, hignored⟩ := own_alerts_leave_no_trace signedSettings
    (some SimulatedBus.publish) {} quotingAlert { filters := ["msh/#"] } ⟨0, 0⟩ p hpublished
  have hoff := hignored (by decide) (by decide +kernel) (by decide +kernel) (by decide +kernel)
  have hpasses : Topic.passes p.topic ["msh/#"] = true := by decide +kernel
  rw [hpasses, if_pos rfl] at hoff
  exact ⟨p, hpublished, by decide +kernel, Prod.ext hsame hoff⟩

end Exporter
end MeshTelemetry
