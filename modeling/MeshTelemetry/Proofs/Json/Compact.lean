import MeshTelemetry.Proofs.Files.Replacing
import MeshTelemetry.Proofs.Json.Reading

/-! What the compact text of a value reads as. Without lines and blanks its tokens are the
same as those of the indented text, so it is the same document. -/

set_option autoImplicit false

namespace MeshTelemetry.Json

open Text (Symbol symbolsOf)

/-! Tokens -/

theorem isToken_tightColon : IsToken ":" .colon := fun _ _ => collect_next rfl rfl nofun

theorem delimits_closeArray : Delimits "]" := fun _ => endsNumeral_cons (by decide) _

theorem delimits_closeObject : Delimits "\x7d" := fun _ => endsNumeral_cons (by decide) _

mutual

/-- The compact text of a value, written after a text, adds the tokens of the value. -/
theorem writeCompact_tokens (v : Json) {out : String} {ts : List Token} (h : Closed out ts) :
    Open (writeCompact out v) (ts ++ tokens v) := by
  cases v with
  | null =>
    rw [writeCompact, tokens]
    exact (h.append isToken_null).isOpen
  | bool b =>
    rw [writeCompact, tokens]
    exact (h.append (isToken_bool b)).isOpen
  | number n =>
    rw [writeCompact, tokens]
    exact h.number n
  | string s =>
    rw [writeCompact, tokens]
    exact (h.append (isToken_quote s)).isOpen
  | array items =>
    cases items with
    | nil =>
      have hbrackets : out ++ "[]" = out ++ "[" ++ "]" := by
        rw [String.append_assoc]
        rfl
      rw [writeCompact, tokens, hbrackets]
      simpa using ((h.append isToken_openArray).append isToken_closeArray).isOpen
    | cons v vs =>
      rw [writeCompact, tokens]
      have hfirst := writeCompact_tokens v (h.append isToken_openArray)
      have hrest := writeItems_tokens vs hfirst
      have hclose := (hrest.append delimits_closeArray isToken_closeArray).isOpen
      simpa using hclose
  | object ms =>
    cases ms with
    | nil =>
      have hbraces : out ++ "\x7b\x7d" = out ++ "\x7b" ++ "\x7d" := by
        rw [String.append_assoc]
        rfl
      rw [writeCompact, tokens, hbraces]
      simpa using ((h.append isToken_openObject).append isToken_closeObject).isOpen
    | cons m ms =>
      obtain ⟨k, v⟩ := m
      rw [writeCompact, tokens]
      have hopen := h.append isToken_openObject
      have hkey := (hopen.append (isToken_quote k)).append isToken_tightColon
      have hrest := writeMembers_tokens ms (writeCompact_tokens v hkey)
      have hclose := (hrest.append delimits_closeObject isToken_closeObject).isOpen
      simpa using hclose

theorem writeItems_tokens (vs : List Json) {out : String} {ts : List Token} (h : Open out ts) :
    Open (writeItems out vs) (ts ++ itemTokens vs) := by
  cases vs with
  | nil =>
    rw [writeItems, itemTokens, List.append_nil]
    exact h
  | cons v vs =>
    rw [writeItems, itemTokens]
    have hcomma := h.append delimits_comma isToken_comma
    have hrest := writeItems_tokens vs (writeCompact_tokens v hcomma)
    simpa using hrest

theorem writeMembers_tokens (ms : List (String × Json)) {out : String} {ts : List Token}
    (h : Open out ts) : Open (writeMembers out ms) (ts ++ memberTokens ms) := by
  cases ms with
  | nil =>
    rw [writeMembers, memberTokens, List.append_nil]
    exact h
  | cons m ms =>
    obtain ⟨k, v⟩ := m
    rw [writeMembers, memberTokens]
    have hcomma := h.append delimits_comma isToken_comma
    have hkey := (hcomma.append (isToken_quote k)).append isToken_tightColon
    have hrest := writeMembers_tokens ms (writeCompact_tokens v hkey)
    simpa using hrest

end

theorem all_compact (v : Json) : Token.all (symbolsOf v.compact) = tokens v := by
  have hempty : Closed "" [] := fun _ => rfl
  have hopen := writeCompact_tokens v hempty [] (by rintro c ⟨⟩)
  rw [List.append_nil, List.nil_append] at hopen
  rw [Token.all, compact, hopen, Token.collect, List.reverse_reverse]

/-! Documents -/

theorem parse_compact (v : Json) : Document.parse (symbolsOf v.compact) = (document v, true) := by
  have hrun := Document.run_tokens v [] []
  rw [List.append_nil] at hrun
  rw [Document.parse, all_compact, hrun]
  rfl

theorem symbols_toUTF8 (s : String) : Text.symbols s.toUTF8 = symbolsOf s := by
  rw [Text.symbols, fromUTF8?_toUTF8]
  rfl

theorem readText_compact {α : Type} (read : Document → Except ReadError α) (v : Json) :
    readText read (Text.symbols v.compact.toUTF8) = read (document v) := by
  unfold readText
  simp only [symbols_toUTF8, parse_compact]
  cases read (document v) <;> rfl

theorem decode?_compact (v : Json) :
    decode? (Text.symbols v.compact.toUTF8) = (document v).value? nestingRoom := by
  rw [decode?, symbols_toUTF8, parse_compact]
  rfl

/-! Scalars -/

theorem document_ofNat {n : Nat} (h : (n : Int) ≤ greatestUnsigned64) :
    document (.ofNat n) = .number (some (.int n)) := by
  have hlow : leastSigned64 ≤ (n : Int) := Int.le_trans (by decide) (Int.natCast_nonneg n)
  rw [ofNat, document, Number.document, Number.value?_numeral_int hlow h]
  rfl

theorem document_uint32 (n : UInt32) :
    document (.ofNat n.toNat) = .number (some (.int n.toNat)) := by
  have hlt : n.toNat < 4294967296 := n.toNat_lt
  apply document_ofNat
  unfold greatestUnsigned64
  omega

theorem readUInt32_document (n : UInt32) : (document (.ofNat n.toNat)).readUInt32 = .ok n := by
  have hlt : n.toNat < 4294967296 := n.toNat_lt
  have hrange : (0 : Int) ≤ (n.toNat : Int) ∧ (n.toNat : Int) ≤ 4294967295 := by omega
  rw [document_uint32, Document.readUInt32, Document.readInt, if_pos hrange]
  exact congrArg Except.ok (by simp)

end MeshTelemetry.Json
