import MeshTelemetry.Alert.Dispatch
import MeshTelemetry.Message.Envelope
import MeshTelemetry.Proofs.Json.Compact
import MeshTelemetry.Proofs.Numeric.Radix

/-! What the packets of an alert say. A downlink is read back from its packet, whatever its
text, and the topic of a packet names the channel and its sender under the root. -/

set_option autoImplicit false

namespace MeshTelemetry

open Json (document)

namespace Downlink

theorem document_toJson (d : Downlink) : document d.toJson = .object [
    (some "type", .string (some d.kind)),
    (some "payload", .string (some d.text)),
    (some "from", .number (some (.int d.sender.toNat))),
    (some "to", .number (some (.int d.recipient.toNat)))] true := by
  rw [toJson, Json.document_object]
  simp only [List.map_cons, List.map_nil, Json.document_uint32, document]

theorem ofPacket_toPacket (d : Downlink) (topic : String) : ofPacket (d.toPacket topic) = .ok d := by
  have hsender := Json.readUInt32_document d.sender
  have hrecipient := Json.readUInt32_document d.recipient
  rw [Json.document_uint32] at hsender hrecipient
  rw [ofPacket, toPacket, Json.readText_compact, document_toJson, read]
  simp [Json.Document.readRecord, Json.Document.readField, fields, readPart,
    Json.Document.readString, hsender, hrecipient, Json.Document.required, bind, Except.bind,
    pure, Except.pure]

theorem decodePayload_toPacket (d : Downlink) (topic : String) :
    Envelope.decodePayload (d.toPacket topic).payload = some (.object [
      ("from", .ofNat d.sender.toNat), ("payload", .string d.text),
      ("to", .ofNat d.recipient.toNat), ("type", .string d.kind)]) := by
  have hpayload : "payload" < "type" := by decide +kernel
  have hfrom : "from" < "payload" := by decide +kernel
  have hto : ¬ "to" < "from" ∧ ¬ "to" < "payload" ∧ "to" < "type" := by decide +kernel
  have hnew : "to" ≠ "from" ∧ "to" ≠ "payload" := by decide
  rw [Envelope.decodePayload, toPacket, Json.decode?_compact, document_toJson, Json.nestingRoom]
  simp only [Json.Document.value?, Json.Document.memberValues?, Option.map_some, KeyMap.put,
    Json.ofNat, hpayload, hfrom, hto, hnew, if_true, if_false]

end Downlink

/-! Topics -/

/-- A sender as a topic names it: eight hexadecimal digits that read as its number. -/
structure IsHexOf (sender : UInt32) (digits : List Char) : Prop where
  length : digits.length = 8
  lower : ∀ c ∈ digits, c ∈ "0123456789abcdef".toList
  value : Radix.read? 16 UInt32.size digits = some sender.toNat

theorem isHexOf_padded (sender : UInt32) : IsHexOf sender (Radix.padded 16 8 sender.toNat) where
  length := Radix.length_padded (by decide) (by decide) sender.toNat_lt
  lower := fun _ hc => Radix.mem_digitChars_of_mem_padded (by decide) (by decide) hc
  value := Radix.read?_padded (by decide) (by decide) sender.toNat_lt 8

theorem channelTopic_ne_empty (root channel : String) (sender : UInt32) :
    channelTopic root channel sender ≠ "" := by
  intro hempty
  have hlength := congrArg (fun s => s.toList.length) hempty
  simp only [channelTopic, String.toList_append, List.length_append] at hlength
  have hmark : "/2/json/".toList.length = 8 := rfl
  have hnone : "".toList.length = 0 := rfl
  omega

structure IsTrimmed (given root : String) : Prop where
  slashes : ∃ n, given.toList = root.toList ++ List.replicate n '/'
  last : root.toList.getLast? ≠ some '/'

namespace DispatchSettings

theorem isTrimmed_trimmedRoot (s : DispatchSettings) : IsTrimmed s.topicRoot s.trimmedRoot where
  slashes := by
    have hslashes : ∀ c ∈ s.topicRoot.toList.reverse.takeWhile (· == '/'), c = '/' :=
      fun c hc => eq_of_beq (List.all_eq_true.mp List.all_takeWhile c hc)
    refine ⟨(s.topicRoot.toList.reverse.takeWhile (· == '/')).length, ?_⟩
    rw [← List.reverse_replicate, ← List.eq_replicate_of_mem hslashes, trimmedRoot,
      String.toList_ofList, ← List.reverse_append, List.takeWhile_append_dropWhile,
      List.reverse_reverse]
  last := by
    rw [trimmedRoot, String.toList_ofList, List.getLast?_reverse]
    intro hlast
    have hnot := List.head?_dropWhile_not (· == '/') s.topicRoot.toList.reverse
    rw [hlast] at hnot
    exact absurd hnot (by decide)

end DispatchSettings
end MeshTelemetry
