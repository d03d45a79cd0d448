import MeshTelemetry.Alert.Webhook
import MeshTelemetry.Bus.Simulated
import MeshTelemetry.Proofs.Alert.Downlinks
import MeshTelemetry.Proofs.Alert.Publishing
import MeshTelemetry.Proofs.Text.Ellipsis

/-! What the texts of alerts look like. The downlinks that are published of an alert all carry
one text: the mark and the message, cut to the limit. A limit lets every text be told as an
alert, and those that were cut as cut, exactly if it is at least the least one. The text of an
item is cut once more before the mark is put in front of it, which makes no difference. -/

set_option autoImplicit false

namespace MeshTelemetry

theorem length_alertMark : alertMark.length = 8 := by decide +kernel

theorem truncate_alertMark {limit : Nat} (hroom : leastTextLimit ≤ limit) (message : String) :
    Text.truncate limit (alertMark ++ message) =
      alertMark ++ Text.truncate (limit - 8) message := by
  have hleast : leastTextLimit = 11 := by decide +kernel
  have hlimit : limit = alertMark.length + (limit - 8) := by
    rw [length_alertMark]
    omega
  rw [← Text.truncate_append alertMark message (by omega), ← hlimit]

/-- The least limit is the least one with which every text that is cut begins with the mark and
ends in the ellipsis. -/
theorem leastTextLimit_le_iff (limit : Nat) :
    leastTextLimit ≤ limit ↔
      ∀ message : String, limit < (alertMark ++ message).length →
        ∃ kept rest, message = kept ++ rest ∧
          Text.truncate limit (alertMark ++ message) = alertMark ++ kept ++ "..." := by
  have hleast : leastTextLimit = 11 := by decide +kernel
  constructor
  · intro hroom message hlong
    rw [String.length_append, length_alertMark] at hlong
    obtain ⟨kept, rest, hmessage, hcut⟩ :=
      Text.truncate_of_lt (show limit - 8 < message.length by omega)
    refine ⟨kept, rest, hmessage, ?_⟩
    rw [truncate_alertMark hroom, hcut, if_neg (by omega), String.append_assoc]
  · intro hmessages
    -- A message of as many characters as the limit does not fit behind the mark.
    obtain ⟨kept, _, _, hcut⟩ := hmessages (String.ofList (List.replicate limit 'a')) (by
      simp [length_alertMark])
    have hlength := congrArg String.length hcut
    have hdots : "...".length = 3 := by decide +kernel
    simp [Text.length_truncate, length_alertMark, hdots] at hlength
    omega

/-- Mark and ellipsis have one byte for each character. -/
example : leastTextLimit = alertMark.utf8ByteSize + "...".utf8ByteSize := by decide +kernel

namespace DispatchSettings

variable {σ : Type} (s : DispatchSettings) (publisher : Option (Publish σ)) (bus : σ) (a : Alert)

theorem ofPacket_of_published {p : Packet} (h : p ∈ s.published publisher bus a) :
    ∃ r ∈ s.recipients a, Downlink.ofPacket p = .ok ⟨"text", s.textOf a, s.sender, r⟩ := by
  obtain ⟨r, hr, rfl⟩ := s.exists_recipient_of_published publisher bus a h
  exact ⟨r, hr, Downlink.ofPacket_toPacket _ _⟩

end DispatchSettings

namespace WebhookItem

/-- The text of an item is cut behind the mark at the nearer limit of two: the one of the
settings, and the one of items with the mark in front. -/
theorem textOf_toAlert (s : DispatchSettings) (now : Int) (i : WebhookItem) :
    s.textOf (i.toAlert now) =
      Text.truncate (min s.textLimit (alertMark.length + textLimit))
        (alertMark ++ i.fullText) := by
  have hroom : 3 ≤ textLimit := by decide
  have hbound : 5 ≤ alertMark.length + textLimit := by
    rw [length_alertMark]
    decide
  calc s.textOf (i.toAlert now)
    _ = Text.truncate s.textLimit (alertMark ++ Text.truncate textLimit i.fullText) := rfl
    _ = Text.truncate s.textLimit
          (Text.truncate (alertMark.length + textLimit) (alertMark ++ i.fullText)) := by
      rw [Text.truncate_append _ _ hroom]
    _ = _ := Text.truncate_truncate _ _ hbound

/-- Whatever the limits, the text that is published of an item is the one that a single cut of
all it has to say would leave. In front of the ellipsis stands a first part of what was said, and
so nothing of the ellipsis with which the item itself was cut. -/
theorem published_text_of_item {σ : Type} (s : DispatchSettings)
    (publisher : Option (Publish σ)) (bus : σ) (now : Int) (i : WebhookItem) :
    let emoji := if Text.sameIgnoringCase i.status "firing" then "🚨" else "✅"
    let name := (i.labels.get? "alertname").getD "alert"
    let tail :=
      match i.annotations.get? "summary" with
      | some summary => if summary = "" then "" else " - " ++ summary
      | none => ""
    let full := emoji ++ " " ++ i.status ++ ": " ++ name ++ tail
    let whole := "[ALERT] " ++ full
    let limit := min s.textLimit 208
    alertMark.length + textLimit = 208 ∧
    ∀ p ∈ s.published publisher bus (i.toAlert now), ∃ d, Downlink.ofPacket p = .ok d ∧
      d.text = Text.truncate limit whole ∧
      d.text.length = min s.textLimit (min 208 (8 + full.length)) ∧
      (whole.length ≤ limit → d.text = whole) ∧
      (limit < whole.length → ∃ kept rest, whole = kept ++ rest ∧
        d.text = kept ++ if limit < 3 then "" else "...") := by
  intro emoji name tail full whole limit
  have hbound : alertMark.length + textLimit = 208 := by decide +kernel
  have htail : (match (i.annotations.get? "summary").filter fun summary => !summary.isEmpty with
      | some summary => " - " ++ summary
      | none => "") = tail := by
    unfold tail
    cases i.annotations.get? "summary" with
    | none => rfl
    | some summary => by_cases hempty : summary = "" <;> simp [Option.filter, hempty]
  have hfull : i.fullText = full :=
    congrArg (emoji ++ " " ++ i.status ++ ": " ++ name ++ ·) htail
  refine ⟨hbound, fun p hp => ?_⟩
  obtain ⟨r, _, hread⟩ := s.ofPacket_of_published publisher bus (i.toAlert now) hp
  have htext : s.textOf (i.toAlert now) = Text.truncate limit whole := by
    rw [textOf_toAlert, hbound, hfull]
    rfl
  refine ⟨_, hread, htext, ?_, fun hfits => ?_, fun hcut => ?_⟩
  · have hwhole : whole.length = 8 + full.length := by
      rw [String.length_append, ← length_alertMark]
      rfl
    rw [htext, Text.length_truncate, hwhole]
    omega
  · rw [htext, Text.truncate_of_le hfits]
  · rw [htext]
    exact Text.truncate_of_lt hcut

def repeated (n : Nat) : String := String.ofList (List.replicate n 'é')

theorem length_repeated (n : Nat) : (repeated n).length = n := by
  rw [repeated, String.length_ofList, List.length_replicate]

theorem truncate_repeated {limit n : Nat} (hroom : 3 ≤ limit) (h : limit < n) :
    Text.truncate limit (repeated n) = repeated (limit - 3) ++ "..." := by
  have hdots : "..." = String.ofList Text.ellipsis := rfl
  have hcut : limit < (List.replicate n 'é').length := by rwa [List.length_replicate]
  rw [hdots, repeated, repeated, Text.truncate, String.toList_ofList,
    Text.truncateChars_of_lt hcut, Text.cutMark_of_le hroom, Text.length_ellipsis,
    List.take_replicate, Nat.min_eq_left (by omega), String.ofList_append]

def longItem : WebhookItem :=
  { status := "firing", labels := .ofList [("alertname", repeated 300)] }

def closeSettings : DispatchSettings := { textLimit := 205 }

/-- Both limits cut the item, three characters apart, and only one ellipsis is left. -/
theorem published_text_of_longItem :
    ∃ p ∈ closeSettings.published (some SimulatedBus.publish) {} (longItem.toAlert 0),
      ∃ d, Downlink.ofPacket p = .ok d ∧ d.text.length = 205 ∧
        d.text = "[ALERT] 🚨 firing: " ++ repeated 184 ++ "..." := by
  let front := "[ALERT] 🚨 firing: "
  let p : Packet := (closeSettings.downlink (longItem.toAlert 0) everyNode).toPacket
    (closeSettings.topic (closeSettings.channelOf (longItem.toAlert 0)))
  have hpublished : p ∈ closeSettings.published (some SimulatedBus.publish) {}
      (longItem.toAlert 0) := List.mem_singleton.mpr rfl
  obtain ⟨_, htexts⟩ :=
    published_text_of_item closeSettings (some SimulatedBus.publish) {} 0 longItem
  obtain ⟨d, hread, htext, -⟩ := htexts p hpublished
  have hlength : front.length = 18 := by decide +kernel
  have hfront : front = "[ALERT] " ++ "🚨 firing: " := by decide +kernel
  have hone : d.text = Text.truncate 205 (front ++ repeated 300) := by
    rw [htext, hfront, String.append_assoc]
    exact congrArg (fun name => Text.truncate 205 ("[ALERT] " ++ ("🚨 firing: " ++ name)))
      String.append_empty
  have hcut : d.text = front ++ repeated 184 ++ "..." := by
    have hroom : 3 ≤ 187 := by decide
    rw [String.append_assoc, ← truncate_repeated hroom (show 187 < 300 by decide),
      ← Text.truncate_append _ _ hroom, hlength, hone]
  refine ⟨p, hpublished, d, hread, ?_, hcut⟩
  rw [hone, Text.length_truncate, String.length_append, hlength, length_repeated]
  rfl

end WebhookItem
end MeshTelemetry
