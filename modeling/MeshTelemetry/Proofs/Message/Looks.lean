import MeshTelemetry.Message.Envelope
import MeshTelemetry.Proofs.Json.Opening
import MeshTelemetry.Proofs.Text.Symbols

/-! The first look at a payload. It takes bytes and knows one blank more than the decoder, and
passes whatever begins with a bracket. The text of an object is space and then a bracket in its
symbols, so it is blanks and then a bracket in its bytes, and passes. -/

set_option autoImplicit false

namespace MeshTelemetry.Envelope

open Text (Symbol Spells)

theorem byte_of_isSpace {s : Symbol} (h : Json.isSpace s = true) :
    ∃ c b, s = some c ∧ String.utf8EncodeChar c = [b] ∧ isBlankByte b = true := by
  cases s with
  | none => cases h
  | some c =>
    rw [Json.isSpace] at h
    simp only [Bool.or_eq_true, beq_iff_eq] at h
    rcases h with ((rfl | rfl) | rfl) | rfl
    · exact ⟨_, 0x20, rfl, by decide, by decide⟩
    · exact ⟨_, 0x09, rfl, by decide, by decide⟩
    · exact ⟨_, 0x0A, rfl, by decide, by decide⟩
    · exact ⟨_, 0x0D, rfl, by decide, by decide⟩

/-- The search for a byte that is not blank goes past all space. -/
theorem find?_of_spells {spaces : List Symbol} {c : Char} {rest : List Symbol}
    {bytes : List UInt8} (hspaces : ∀ s ∈ spaces, Json.isSpace s = true)
    (h : Spells (spaces ++ some c :: rest) bytes) :
    ∃ more, bytes.find? (fun b => !isBlankByte b) =
      (String.utf8EncodeChar c ++ more).find? fun b => !isBlankByte b := by
  induction spaces generalizing bytes with
  | nil =>
    cases h with
    | char _ hrest => exact ⟨_, rfl⟩
  | cons s spaces ih =>
    obtain ⟨hs, hothers⟩ := List.forall_mem_cons.mp hspaces
    obtain ⟨d, b, rfl, hbyte, hblank⟩ := byte_of_isSpace hs
    cases h with
    | char _ hrest =>
      rw [hbyte, List.singleton_append, List.find?_cons_of_neg (by rw [hblank]; decide)]
      exact ih hothers hrest

theorem looksLikeJson_of_decodePayload {payload : ByteArray} {members : Envelope}
    (h : decodePayload payload = some (.object members)) :
    looksLikeJson payload = true := by
  obtain ⟨spaces, c, rest, hsymbols, hspaces, hbracket⟩ := Json.exists_of_decode?_object h
  have hspells := Text.spells_symbols payload
  rw [hsymbols] at hspells
  obtain ⟨more, hfind⟩ := find?_of_spells hspaces hspells
  rw [looksLikeJson, hfind]
  rcases hbracket with rfl | rfl <;> rfl

theorem size_ne_zero_of_looksLikeJson {payload : ByteArray} (h : looksLikeJson payload = true) :
    payload.size ≠ 0 := by
  intro hzero
  have hnil : payload.data.toList = [] := List.eq_nil_of_length_eq_zero hzero
  rw [looksLikeJson, hnil] at h
  cases h

end MeshTelemetry.Envelope
