import MeshTelemetry.Json.Token

/-! Numerals in a text. A numeral is spelled in digits with at most one point and one
exponent part, and every well-formed spelling is read as the numeral that it spells,
whatever follows, as long as that does not go on with the numeral. -/

set_option autoImplicit false

namespace MeshTelemetry

/-! Digits of natural numbers -/

theorem head_toDigits {n : Nat} (hn : 0 < n) : (Nat.toDigits 10 n).head? ≠ some '0' := by
  induction n using Nat.base_induction 10 (by decide) with
  | single m hm =>
    rw [Nat.toDigits_of_lt_base hm, List.head?_cons]
    intro h
    have hzero : m = 0 := Nat.digitChar_eq_zero.mp (Option.some.inj h)
    omega
  | digit m k hk hm ih =>
    rw [← Nat.toDigits_append_toDigits (by decide) hm hk, List.head?_append]
    intro h
    rcases Option.or_eq_some_iff.mp h with hfirst | ⟨hnil, _⟩
    · exact ih hm hfirst
    · exact Nat.toDigits_ne_nil (List.head?_eq_none_iff.mp hnil)

theorem le_ofDigitChars (ds : List Char) (s : Nat) : s ≤ Nat.ofDigitChars 10 ds s := by
  induction ds generalizing s with
  | nil => exact Nat.le_of_eq Nat.ofDigitChars_nil.symm
  | cons d ds ih =>
    rw [Nat.ofDigitChars_cons]
    have hle := ih (10 * s + (d.toNat - '0'.toNat))
    omega

namespace Json

open Text (Symbol)

def AreDigits (ds : List Char) : Prop := ds ≠ [] ∧ ∀ c ∈ ds, c.isDigit = true

/-- What may follow a numeral. -/
def EndsNumeral (rest : List Symbol) : Prop :=
  ∀ c ∈ rest.head?, Token.isDigit c = false ∧ c ≠ some '.' ∧ c ≠ some 'e' ∧ c ≠ some 'E'

def digitValues (ds : List Char) : List Nat := ds.map fun c => c.toNat - 48

theorem areDigits_toDigits (n : Nat) : AreDigits (Nat.toDigits 10 n) :=
  ⟨Nat.toDigits_ne_nil, fun _ hc => Nat.isDigit_of_mem_toDigits (by decide) (by decide) hc⟩

theorem digits_append {ds : List Char} (hds : ∀ c ∈ ds, c.isDigit = true) {rest : List Symbol}
    (hrest : ∀ c ∈ rest.head?, Token.isDigit c = false) :
    Token.digits (ds.map some ++ rest) = digitValues ds ∧
      Token.afterDigits (ds.map some ++ rest) = rest := by
  have hall : ∀ c ∈ ds.map some, Token.isDigit c = true := by
    intro c hc
    obtain ⟨d, hd, rfl⟩ := List.mem_map.mp hc
    exact hds d hd
  have htake : rest.takeWhile Token.isDigit = [] := by
    cases rest with
    | nil => rfl
    | cons c rest => exact List.takeWhile_cons_of_neg (by simp [hrest c rfl])
  have hdrop : rest.dropWhile Token.isDigit = rest := by
    cases rest with
    | nil => rfl
    | cons c rest => exact List.dropWhile_cons_of_neg (by simp [hrest c rfl])
  rw [Token.digits, Token.afterDigits, List.takeWhile_append_of_pos hall,
    List.dropWhile_append_of_pos hall, htake, hdrop]
  simp [digitValues, Token.digitValue]

structure Spelling where
  whole : List Char
  fraction : Option (List Char) := none
  /-- Whether the exponent is negative, and its digits. -/
  exponent : Option (Bool × List Char) := none

namespace Spelling

def fractionChars (s : Spelling) : List Char :=
  match s.fraction with
  | none => []
  | some ds => '.' :: ds

def exponentChars (s : Spelling) : List Char :=
  match s.exponent with
  | none => []
  | some (down, ds) => 'e' :: (if down then '-' else '+') :: ds

def chars (s : Spelling) : List Char := s.whole ++ (s.fractionChars ++ s.exponentChars)

def numeral (s : Spelling) (negative : Bool) : Numeral where
  negative
  whole := digitValues s.whole
  fraction := s.fraction.map digitValues
  exponent := s.exponent.map fun e => (e.1, digitValues e.2)

structure WellFormed (s : Spelling) : Prop where
  whole : AreDigits s.whole
  /-- Only zero itself begins with zero. -/
  leading : s.whole.head? = some '0' → s.whole = ['0']
  fraction : ∀ ds ∈ s.fraction, AreDigits ds
  exponent : ∀ e ∈ s.exponent, AreDigits e.2

variable {s : Spelling} {rest : List Symbol}

theorem wholePart_append (h : s.WellFormed)
    (hrest : ∀ c ∈ rest.head?, Token.isDigit c = false) :
    Token.wholePart (s.whole.map some ++ rest) = some (digitValues s.whole, rest) := by
  obtain ⟨hdigits, hafter⟩ := digits_append h.whole.2 hrest
  unfold Token.wholePart
  rw [hdigits, hafter]
  split
  · rename_i hnil
    exact absurd (List.map_eq_nil_iff.mp hnil) h.whole.1
  · rename_i d ds hzero
    obtain ⟨c, cs, hcs, hc, hd⟩ := List.map_eq_cons_iff.mp hzero
    have hdigit : c.isDigit = true := h.whole.2 c (hcs ▸ List.mem_cons_self ..)
    have hchar : c = '0' := by
      have hbounds : 48 ≤ c.toNat ∧ c.toNat ≤ 57 := Char.isDigit_iff_toNat.mp hdigit
      exact Char.toNat_inj.mp (by show c.toNat = 48; omega)
    have hone := h.leading (by rw [hcs, hchar]; rfl)
    rw [hone] at hcs
    cases hcs
    cases hd
  · rfl

theorem fractionPart_append (h : s.WellFormed)
    (hrest : ∀ c ∈ rest.head?, Token.isDigit c = false ∧ c ≠ some '.') :
    Token.fractionPart (s.fractionChars.map some ++ rest) =
      some (s.fraction.map digitValues, rest) := by
  unfold fractionChars
  cases hfraction : s.fraction with
  | none =>
    simp only [List.map_nil, List.nil_append, Option.map_none]
    unfold Token.fractionPart
    split
    · exact absurd rfl (hrest (some '.') rfl).2
    · rfl
  | some ds =>
    have hds : AreDigits ds := h.fraction ds hfraction
    obtain ⟨hdigits, hafter⟩ := digits_append hds.2 fun c hc => (hrest c hc).1
    simp only [List.map_cons, List.cons_append, Token.fractionPart, hdigits, hafter]
    split
    · rename_i hnil
      exact absurd (List.map_eq_nil_iff.mp hnil) hds.1
    · rfl

theorem exponentDigits_append {ds : List Char} (hds : AreDigits ds) (down : Bool)
    (rest : List Symbol) (hrest : ∀ c ∈ rest.head?, Token.isDigit c = false) :
    Token.exponentDigits down (ds.map some ++ rest) = some (some (down, digitValues ds), rest) := by
  obtain ⟨hdigits, hafter⟩ := digits_append hds.2 hrest
  unfold Token.exponentDigits
  rw [hdigits, hafter]
  split
  · rename_i hnil
    exact absurd (List.map_eq_nil_iff.mp hnil) hds.1
  · rfl

theorem exponentPart_append (h : s.WellFormed) (hrest : EndsNumeral rest) :
    Token.exponentPart (s.exponentChars.map some ++ rest) =
      some (s.exponent.map (fun e => (e.1, digitValues e.2)), rest) := by
  unfold exponentChars
  cases hexponent : s.exponent with
  | none =>
    simp only [List.map_nil, List.nil_append, Option.map_none]
    unfold Token.exponentPart
    split
    · exact absurd rfl (hrest (some 'e') rfl).2.2.1
    · exact absurd rfl (hrest (some 'E') rfl).2.2.2
    · rfl
  | some e =>
    have hdigits := exponentDigits_append (h.exponent e hexponent) e.1 rest
      fun c hc => (hrest c hc).1
    cases hdown : e.1 <;>
      simp only [List.map_cons, List.cons_append, Token.exponentPart, hdown, if_true,
        Bool.false_eq_true, if_false, Token.exponentSign, Option.map_some] at hdigits ⊢ <;>
      exact hdigits

theorem numeral_append (h : s.WellFormed) (negative : Bool) (hrest : EndsNumeral rest) :
    Token.numeral negative (s.chars.map some ++ rest) = some (s.numeral negative, rest) := by
  have hexponent : ∀ c ∈ (s.exponentChars.map some ++ rest).head?,
      Token.isDigit c = false ∧ c ≠ some '.' := by
    intro c hc
    unfold exponentChars at hc
    split at hc
    · exact ⟨(hrest c hc).1, (hrest c hc).2.1⟩
    · cases hc
      exact ⟨rfl, by decide⟩
  have hfraction : ∀ c ∈ (s.fractionChars.map some ++ (s.exponentChars.map some ++ rest)).head?,
      Token.isDigit c = false := by
    intro c hc
    unfold fractionChars at hc
    split at hc
    · exact (hexponent c hc).1
    · cases hc
      rfl
  have hchars : s.chars.map some ++ rest =
      s.whole.map some ++ (s.fractionChars.map some ++ (s.exponentChars.map some ++ rest)) := by
    simp [chars]
  unfold Token.numeral
  simp only [hchars, wholePart_append h hfraction, fractionPart_append h hexponent,
    exponentPart_append h hrest, Option.bind_eq_bind, Option.bind_some]
  rfl

end Spelling
end Json
end MeshTelemetry
