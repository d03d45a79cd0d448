import MeshTelemetry.Message.Sample
import MeshTelemetry.Proofs.Alert.Downlinks
import MeshTelemetry.Proofs.Exporter.Calls
import MeshTelemetry.Proofs.Json.Members
import MeshTelemetry.Proofs.Message.Envelopes
import MeshTelemetry.Service.Bench

/-! Messages that are made up for the bench. What is made up about a node, with names of any
characters and numbers of any size, is what the exporter records of it. -/

set_option autoImplicit false

namespace MeshTelemetry

open Json (member?)

theorem Payload.code?_uint32 {ms : Json.Members} {key : String} {n : UInt32}
    (h : member? ms key = some (.ofNat n.toNat)) : code? ms key = some (toString n.toNat) := by
  have hlt : n.toNat < 4294967296 := n.toNat_lt
  have hrange : leastSigned64 ≤ (n.toNat : Int) ∧ (n.toNat : Int) ≤ greatestSigned64 := by
    unfold leastSigned64 greatestSigned64
    omega
  rw [code?, h]
  simp only [Json.ofNat, Json.Number.signed64?, if_pos hrange]
  rfl

namespace Sample

variable (sender : UInt32) (longName shortName : String) (hardware role : UInt32)

def nodeInfoPayload : Json.Members :=
  Json.collect [
    ("longname", .string longName), ("shortname", .string shortName),
    ("hardware", .ofNat hardware.toNat), ("role", .ofNat role.toNat)]

def nodeInfoMembers : Json.Members :=
  Json.collect [
    ("from", .ofNat sender.toNat), ("type", .string "nodeinfo"),
    ("payload", .object (nodeInfoPayload longName shortName hardware role))]

theorem nodeInfo_eq : nodeInfo sender longName shortName hardware role =
    .object (nodeInfoMembers sender longName shortName hardware role) := rfl

theorem readsBack_nodeInfo (room : Nat) :
    (nodeInfo sender longName shortName hardware role).ReadsBack (room + 2) := by
  have hpayload : Json.ReadsBack (room + 1)
      (.object (nodeInfoPayload longName shortName hardware role)) := by
    refine Json.readsBack_ofMembers ?_
    simp only [List.forall_mem_cons]
    exact ⟨Json.readsBack_string _ _, Json.readsBack_string _ _, Json.readsBack_uint32 _ _,
      Json.readsBack_uint32 _ _, List.forall_mem_nil _⟩
  refine Json.readsBack_ofMembers ?_
  simp only [List.forall_mem_cons]
  exact ⟨Json.readsBack_uint32 _ _, Json.readsBack_string _ _, hpayload, List.forall_mem_nil _⟩

theorem record?_nodeInfo (now : Int) (hsender : sender ≠ 0) :
    ∃ m, Message.ofEnvelope now (nodeInfoMembers sender longName shortName hardware role) = .ok m ∧
      m.record? = some (.nodeInfo ⟨nodeId sender,
        ⟨longName, shortName, toString hardware.toNat, toString role.toNat⟩, now⟩) := by
  have member (key : String) :
      member? (nodeInfoMembers sender longName shortName hardware role) key = member? [
        ("payload", .object (nodeInfoPayload longName shortName hardware role)),
        ("type", .string "nodeinfo"), ("from", .ofNat sender.toNat)] key :=
    Json.member?_collect _ key
  have inner (key : String) :
      member? (nodeInfoPayload longName shortName hardware role) key = member? [
        ("role", .ofNat role.toNat), ("hardware", .ofNat hardware.toNat),
        ("shortname", .string shortName), ("longname", .string longName)] key :=
    Json.member?_collect _ key
  have hfrom := Message.senderOf_of_denotes (member "from") hsender rfl
  have hpayload : Message.payloadOf (nodeInfoMembers sender longName shortName hardware role) =
      nodeInfoPayload longName shortName hardware role := by
    rw [Message.payloadOf, member]
    rfl
  have hhardware := Payload.code?_uint32 (inner "hardware")
  have hrole := Payload.code?_uint32 (inner "role")
  rw [Message.ofEnvelope, hfrom]
  refine ⟨_, rfl, ?_⟩
  simp only [Message.record?, Message.identity, hpayload, Payload.ofMembers, hhardware, hrole,
    Message.timestampOf, member, inner]
  rfl

end Sample

/-! The topics of the bench -/

theorem utf8ByteSize_ofList_le (cs : List Char) :
    (String.ofList cs).utf8ByteSize ≤ 4 * cs.length := by
  induction cs with
  | nil => exact Nat.le_refl 0
  | cons c cs ih =>
    have hsize := Char.utf8Size_le_four c
    rw [String.ofList_cons, String.utf8ByteSize_append, String.utf8ByteSize_singleton,
      List.length_cons]
    omega

namespace Bench

variable (sender : UInt32)

theorem topicOf_eq : topicOf sender =
    "msh/US/2/json/LongFast/!" ++ String.ofList (Radix.padded 16 8 sender.toNat) := rfl

theorem utf8ByteSize_topicOf_le : (topicOf sender).utf8ByteSize ≤ maxTopicBytes := by
  have hdigits := utf8ByteSize_ofList_le (Radix.padded 16 8 sender.toNat)
  have hfixed : "msh/US/2/json/LongFast/!".utf8ByteSize = 24 := by decide
  rw [(isHexOf_padded sender).length] at hdigits
  rw [topicOf_eq, String.utf8ByteSize_append, hfixed, maxTopicBytes]
  omega

theorem nul_not_mem_topicOf : '\x00' ∉ (topicOf sender).toList := by
  have hfixed : '\x00' ∉ "msh/US/2/json/LongFast/!".toList := by decide
  have hdigits : '\x00' ∉ Radix.padded 16 8 sender.toNat := fun hc =>
    absurd ((isHexOf_padded sender).lower _ hc) (by decide)
  intro hc
  rw [topicOf_eq, String.toList_append] at hc
  rcases List.mem_append.mp hc with hc | hc
  · exact hfixed hc
  · rw [String.toList_ofList] at hc
    exact hdigits hc

variable {sender} {longName shortName : String} {hardware role : UInt32}

theorem senderOf_nodeInfo :
    senderOf (Sample.nodeInfo sender longName shortName hardware role) = sender := by
  have hlt : sender.toNat < 4294967296 := sender.toNat_lt
  have hrange : (0 : Int) ≤ (sender.toNat : Int) ∧ (sender.toNat : Int) ≤ greatestUnsigned64 := by
    unfold greatestUnsigned64
    omega
  have hfrom : member? (Sample.nodeInfoMembers sender longName shortName hardware role) "from" =
      some (.number (.int sender.toNat)) := Json.member?_collect _ _
  have hfilter : (some sender.toNat).filter (· < UInt32.size) = some sender.toNat :=
    Option.filter_some_pos (decide_eq_true sender.toNat_lt)
  rw [senderOf, Sample.nodeInfo_eq]
  simp only [Json.asObject?, Option.bind_some, hfrom, Json.asNumber?, Json.Number.unsigned64?,
    if_pos hrange, Int.toNat_natCast, hfilter, Option.getD_some, UInt32.ofNat_toNat]

/-- What is made up about a node is what is recorded of it, whatever the bench has seen before.
Names come through character by character, and numbers as they are in decimal. -/
theorem sendMesh_nodeInfo (b : Bench) (now : Moment) (sender : UInt32)
    (longName shortName : String) (hardware role : UInt32) (hsender : sender ≠ 0)
    (hpasses : Topic.passes (topicOf sender) b.exporter.filters = true)
    (hsize : (Sample.nodeInfo sender longName shortName hardware role).compact.toUTF8.size ≤
      1024 * 1024) :
    (b.sendMesh now (Sample.nodeInfo sender longName shortName hardware role)).2 =
      .ok (.recorded (.nodeInfo {
        node := toString sender.toNat
        identity := {
          longName, shortName, hardware := toString hardware.toNat, role := toString role.toNat }
        timestamp := now.unix })) := by
  obtain ⟨m, hm, hrecord⟩ :=
    Sample.record?_nodeInfo sender longName shortName hardware role now.unix hsender
  have hback := Sample.readsBack_nodeInfo sender longName shortName hardware role 125
  rw [sendMesh, senderOf_nodeInfo, handle]
  rw [Sample.nodeInfo_eq] at hsize hback ⊢
  have hdecode := (Json.decode?_compact _).trans hback
  have hfrom : (member? (Sample.nodeInfoMembers sender longName shortName hardware role)
      "from").isSome := by
    rw [Sample.nodeInfoMembers, Json.member?_collect]
    rfl
  have henvelope := Envelope.ofMessage_of_decodePayload (channelTopic_ne_empty _ _ sender)
    (utf8ByteSize_topicOf_le sender) (nul_not_mem_topicOf sender) hsize hdecode hfrom
  have hjudge := Exporter.judge_of_message hpasses henvelope hm
  rw [hrecord] at hjudge
  dsimp only
  rw [Exporter.handle_of_judge_recorded hjudge]
  rfl

/-- A name with a quote, a backslash, control characters and one beyond the first plane. -/
def oddName : String := "\"\\\x00\n🚨"

theorem sendMesh_nodeInfo_oddName :
    (({ exporter := { filters := ["msh/+/2/json/#"] } } : Bench).sendMesh ⟨5, 0⟩
      (Sample.nodeInfo 4294967295 oddName "" 4294967295 0)).2 =
      .ok (.recorded (.nodeInfo
        ⟨"4294967295", ⟨oddName, "", "4294967295", "0"⟩, 5⟩)) := by
  have hgreatest : toString (4294967295 : UInt32).toNat = "4294967295" := by decide +kernel
  have hleast : toString (0 : UInt32).toNat = "0" := by decide +kernel
  rw [sendMesh_nodeInfo _ _ 4294967295 oddName "" 4294967295 0 (by decide) (by decide +kernel)
    (by decide +kernel), hgreatest, hleast]

end Bench
end MeshTelemetry
