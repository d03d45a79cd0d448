import MeshTelemetry.Proofs.Exporter.Calls
import MeshTelemetry.Proofs.Json.Members
import MeshTelemetry.Proofs.Message.Envelopes

/-! No message is lost to its looks. What is refused or ignored as unlike JSON decodes to no
object, so the first look at a payload only saves the decoding of what is refused anyway. -/

set_option autoImplicit false

namespace MeshTelemetry

namespace Envelope

variable {topic : String} {payload : ByteArray}

theorem ofValue_ne_notJsonLike (v : Json) : ofValue v ≠ .error .notJsonLike := by
  intro h
  unfold ofValue at h
  split at h
  · split at h <;> cases h
  · cases h

theorem ofMessage_ne_notJsonLike (hlooks : looksLikeJson payload = true) :
    ofMessage topic payload ≠ .error .notJsonLike := by
  intro h
  unfold ofMessage at h
  rw [hlooks] at h
  simp only [Bool.not_true, Bool.false_eq_true, if_false] at h
  repeat' split at h
  all_goals first | cases h | exact absurd h (ofValue_ne_notJsonLike _)

end Envelope

namespace Exporter

theorem handle_snd (e : Exporter) (now : Moment) (topic : String) (payload : ByteArray) :
    (e.handle now topic payload).2 = judge e.filters now.unix topic payload := by
  unfold handle
  split
  · rename_i r hr
    exact hr.symm
  · rfl

theorem ofMessage_of_judge_notJsonLike {filters : List String} {now : Int} {topic : String}
    {payload : ByteArray} (h : judge filters now topic payload = .ok (.ignored .notJsonLike)) :
    Envelope.ofMessage topic payload = .error .notJsonLike := by
  unfold judge at h
  split at h
  · cases h
  · split at h
    · assumption
    · cases h
    · split at h
      · cases h
      · split at h <;> cases h

/-- A message is accepted exactly if it is within its bounds and decodes to an object with a
sender. The first look at it takes nothing away: no payload that decodes to an object is
refused or ignored for its looks. -/
theorem message_accepted_iff (topic : String) (payload : ByteArray) :
    (∀ members, Envelope.ofMessage topic payload = .ok members ↔
      Envelope.Fits topic payload ∧ Envelope.decodePayload payload = some (.object members) ∧
        (Json.member? members "from").isSome = true) ∧
    ∀ members, Envelope.decodePayload payload = some (.object members) →
      Envelope.looksLikeJson payload = true ∧
        Envelope.ofMessage topic payload ≠ .error .notJsonLike ∧
        ∀ (e : Exporter) (now : Moment),
          (e.handle now topic payload).2 ≠ .ok (.ignored .notJsonLike) := by
  constructor
  · intro members
    rw [Envelope.ofMessage_eq_ok_iff]
    constructor
    · rintro ⟨hfits, _, hdecode, hfrom⟩
      exact ⟨hfits, hdecode, hfrom⟩
    · rintro ⟨hfits, hdecode, hfrom⟩
      exact ⟨hfits, Envelope.looksLikeJson_of_decodePayload hdecode, hdecode, hfrom⟩
  · intro members hdecode
    have hlooks := Envelope.looksLikeJson_of_decodePayload hdecode
    have hjson : Envelope.ofMessage topic payload ≠ .error .notJsonLike :=
      Envelope.ofMessage_ne_notJsonLike hlooks
    refine ⟨hlooks, hjson, fun e now hignored => ?_⟩
    rw [handle_snd] at hignored
    exact hjson (ofMessage_of_judge_notJsonLike hignored)

/-- Indented text: blanks of three kinds stand before the object. -/
theorem message_accepted_indented :
    let payload := ("\n\t " ++ (Json.object [("from", .ofNat 7)]).compact).toUTF8
    Envelope.ofMessage "msh/x" payload = .ok [("from", .ofNat 7)] ∧
      (({} : Exporter).handle ⟨0, 0⟩ "msh/x" payload).2 ≠ .ok (.ignored .notJsonLike) := by
  intro payload
  have hback : Json.ReadsBack Json.nestingRoom (.ofMembers [("from", .ofNat 7)]) :=
    Json.readsBack_ofMembers (List.forall_mem_singleton.mpr (Json.readsBack_uint32 _ 7))
  have hdecode : Envelope.decodePayload payload = some (.object [("from", .ofNat 7)]) := by
    have hread := (Json.decode?_compact (.ofMembers [("from", .ofNat 7)])).trans hback
    rw [Json.symbols_toUTF8] at hread
    rw [Envelope.decodePayload, Json.symbols_toUTF8, Json.symbolsOf_append,
      Json.decode?_append_of_isSpace (by decide)]
    exact hread
  obtain ⟨accepts, looks⟩ := message_accepted_iff "msh/x" payload
  refine ⟨(accepts _).mpr ⟨⟨by decide, by decide, by decide, by decide +kernel,
    by decide +kernel⟩, hdecode, rfl⟩, (looks _ hdecode).2.2 _ _⟩

end Exporter
end MeshTelemetry
