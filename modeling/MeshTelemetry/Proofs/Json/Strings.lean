import MeshTelemetry.Json.Printer
import MeshTelemetry.Json.Token

/-! A quoted string reads back. Each character becomes one piece, and the pieces put
together are the characters again: no character that is written as a 16-bit unit is
half of a surrogate pair. -/

set_option autoImplicit false

namespace MeshTelemetry.Json

open Text (Symbol)

def pieceOf (c : Char) : Token.Piece :=
  if escapeLetter? c = none ∧ c < ' ' then .unit c.toNat else .char c

theorem shortEscape?_of_escapeLetter? {c letter : Char} (h : escapeLetter? c = some letter) :
    Token.shortEscape? letter = some c ∧ letter ≠ 'u' := by
  unfold escapeLetter? at h
  split at h <;> cases h <;> decide

theorem hexUnit?_controls (n : Nat) (h : n < 32) :
    Token.hexUnit? '0' '0' (hexDigit (n / 16)) (hexDigit n) = some n := by
  have hall : ∀ n < 32, Token.hexUnit? '0' '0' (hexDigit (n / 16)) (hexDigit n) = some n := by
    decide
  exact hall n h

theorem pieces_letter (acc : List Token.Piece) {e c : Char} (he : e ≠ 'u')
    (hc : Token.shortEscape? e = some c) (cs : List Symbol) :
    Token.pieces acc (some '\\' :: some e :: cs) = Token.pieces (.char c :: acc) cs := by
  rw [Token.pieces, hc]
  intro _ _ _ _ _ _ hu
  exact he hu

theorem pieces_plain (acc : List Token.Piece) {c : Char} (hquote : c ≠ '"') (hback : c ≠ '\\')
    (hc : ¬ c < ' ') (cs : List Symbol) :
    Token.pieces acc (some c :: cs) = Token.pieces (.char c :: acc) cs := by
  rw [Token.pieces, if_neg hc]
  all_goals simp_all

theorem pieces_escape (acc : List Token.Piece) (c : Char) (rest : List Symbol) :
    Token.pieces acc ((escape c).map some ++ rest) = Token.pieces (pieceOf c :: acc) rest := by
  unfold escape pieceOf
  cases hletter : escapeLetter? c with
  | some letter =>
    obtain ⟨hshort, hu⟩ := shortEscape?_of_escapeLetter? hletter
    simpa using pieces_letter acc hu hshort rest
  | none =>
    by_cases hc : ' ' ≤ c
    · have hlt : ¬ c < ' ' := Char.not_lt.mpr hc
      have hquote : c ≠ '"' := by
        rintro rfl
        cases hletter
      have hback : c ≠ '\\' := by
        rintro rfl
        cases hletter
      simpa [hc, hlt] using pieces_plain acc hquote hback hlt rest
    · have hlt : c < ' ' := Char.not_le.mp hc
      have hunit := hexUnit?_controls c.toNat hlt
      simp [hc, hlt, Token.pieces, hunit]

theorem pieces_escapes (cs : List Char) (acc : List Token.Piece) (rest : List Symbol) :
    Token.pieces acc ((cs.flatMap escape ++ ['"']).map some ++ rest) =
      some (acc.reverse ++ cs.map pieceOf, rest) := by
  induction cs generalizing acc with
  | nil => simp [Token.pieces]
  | cons c cs ih =>
    rw [List.flatMap_cons, List.append_assoc, List.map_append, List.append_assoc, pieces_escape, ih]
    simp

/-- A control character is no half of a surrogate pair. -/
theorem assemble_pieceOf (acc : List Char) (c : Char) (ps : List Token.Piece) :
    Token.assemble acc (pieceOf c :: ps) = Token.assemble (c :: acc) ps := by
  unfold pieceOf
  split
  · rename_i hc
    have hlt : c.toNat < 32 := hc.2
    have hleading : Token.isLeading c.toNat = false := by
      simp only [Token.isLeading, decide_eq_false_iff_not]
      omega
    have htrailing : Token.isTrailing c.toNat = false := by
      simp only [Token.isTrailing, decide_eq_false_iff_not]
      omega
    cases ps with
    | nil => simp [Token.assemble, hleading, htrailing]
    | cons p ps =>
      cases p <;> simp [Token.assemble, hleading, htrailing]
  · rw [Token.assemble]

theorem assemble_pieces (cs acc : List Char) :
    Token.assemble acc (cs.map pieceOf) = some (acc.reverse ++ cs) := by
  induction cs generalizing acc with
  | nil => simp [Token.assemble]
  | cons c cs ih =>
    rw [List.map_cons, assemble_pieceOf, ih]
    simp

theorem ofQuoted_escapes (s : String) (rest : List Symbol) :
    Token.ofQuoted ((s.toList.flatMap escape ++ ['"']).map some ++ rest) =
      (.string (some s), rest) := by
  rw [Token.ofQuoted, pieces_escapes]
  simp [assemble_pieces]

end MeshTelemetry.Json
