import MeshTelemetry.Proofs.Json.Finiteness
import MeshTelemetry.Proofs.Message.Senders

/-! Hardware and role codes. A code that is a number goes by the integer that the number is
exactly, whether it is written as an integer or as a float, and its label is the decimal numeral
of that integer held between the bounds of 64 bits with a sign. So the label is faithful exactly
within these bounds, and all codes past one of them share its label. -/

set_option autoImplicit false

namespace MeshTelemetry

/-! Numerals of integers -/

/-- A text that is an integer in decimal, with a minus before the digits if it is negative. -/
def IsNumeral (text : String) (i : Int) : Prop :=
  ∃ digits, IsDecimal digits i.natAbs ∧ text = if i < 0 then "-" ++ digits else digits

theorem isNumeral_toString (i : Int) : IsNumeral (toString i) i := by
  refine ⟨toString i.natAbs, isDecimal_toString _, ?_⟩
  cases i with
  | ofNat n => exact (if_neg (Int.not_lt.mpr (Int.natCast_nonneg n))).symm
  | negSucc n => exact (if_pos (Int.negSucc_lt_zero n)).symm

theorem IsDecimal.ne_minus {text : String} {n : Nat} (h : IsDecimal text n) (digits : String) :
    text ≠ "-" ++ digits := by
  rintro rfl
  have hmem : '-' ∈ ("-" ++ digits).toList := by
    rw [String.toList_append]
    exact List.mem_append_left _ List.mem_cons_self
  exact absurd (h.digits.2 '-' hmem) (by decide)

theorem IsNumeral.unique {text : String} {i j : Int} (hi : IsNumeral text i)
    (hj : IsNumeral text j) : i = j := by
  obtain ⟨digits, hdigits, htext⟩ := hi
  obtain ⟨digits', hdigits', htext'⟩ := hj
  rw [htext] at htext'
  have hvalue : digits = digits' → i.natAbs = j.natAbs := by
    rintro rfl
    exact hdigits.value.symm.trans hdigits'.value
  by_cases hneg : i < 0 <;> by_cases hneg' : j < 0
  · rw [if_pos hneg, if_pos hneg'] at htext'
    have hsame := hvalue ((String.append_right_inj "-").mp htext')
    omega
  · rw [if_pos hneg, if_neg hneg'] at htext'
    exact absurd htext'.symm (hdigits'.ne_minus digits)
  · rw [if_neg hneg, if_pos hneg'] at htext'
    exact absurd htext' (hdigits.ne_minus digits')
  · rw [if_neg hneg, if_neg hneg'] at htext'
    have hsame := hvalue htext'
    omega

/-! Numbers as codes -/

def heldSigned64 (i : Int) : Int := max leastSigned64 (min greatestSigned64 i)

theorem heldSigned64_eq_self_iff {i : Int} :
    heldSigned64 i = i ↔ leastSigned64 ≤ i ∧ i ≤ greatestSigned64 := by
  rw [heldSigned64, leastSigned64, greatestSigned64]
  omega

namespace Binary64

variable {x : Binary64} {i : Int}

theorem toSigned64_of_isFinite (h : x.isFinite = true) :
    x.toSigned64 = heldSigned64 x.integerPart := by
  rw [toSigned64, clampTo, isNaN_of_isFinite h, if_neg (by decide), h, if_pos rfl, heldSigned64]

theorem heldSigned64_integerPart_ofInt (h : (ofInt i).isFinite = true)
    (hlarge : i < leastSigned64 ∨ greatestSigned64 < i) :
    heldSigned64 (ofInt i).integerPart = heldSigned64 i := by
  rw [leastSigned64, greatestSigned64] at hlarge
  have hunits := pow_mul_one_le_units_ofInt (k := 63) h (by omega)
  have hwhole : 2 ^ 63 ≤ (ofInt i).units / one := (Nat.le_div_iff_mul_le one_pos).mpr hunits
  have hnegative : (ofInt i).negative = decide (i < 0) := negative_nearest ..
  rw [integerPart, hnegative, heldSigned64, heldSigned64, leastSigned64, greatestSigned64]
  generalize (ofInt i).units / one = n at hwhole ⊢
  by_cases hi : i < 0 <;> simp only [hi, decide_true, decide_false, if_true, if_false,
    Bool.false_eq_true] <;> omega

end Binary64

namespace Payload

variable {ms : Json.Members} {key : String} {n : Json.Number} {i : Int}

theorem code?_of_signed64? (hn : Json.member? ms key = some (.number n))
    (hi : n.signed64? = some i) : code? ms key = some (toString i) := by
  simp only [code?, hn, hi]

theorem code?_of_signed64?_none (hn : Json.member? ms key = some (.number n))
    (hi : n.signed64? = none) (hfinite : n.toFloat.isFinite = true) :
    code? ms key = some (toString n.toFloat.toSigned64) := by
  simp only [code?, hn, hi, hfinite, if_true]

/-- The label of a code that is an integer, in whatever form, is the numeral of that integer as
far as 64 bits hold it. -/
theorem code?_of_denotes (hn : Json.member? ms key = some (.number n)) (hfinite : n.IsFinite)
    (hi : n.Denotes i) : code? ms key = some (toString (heldSigned64 i)) := by
  cases n with
  | float x =>
    rw [code?_of_signed64?_none hn rfl hi.1, Json.Number.toFloat,
      Binary64.toSigned64_of_isFinite hi.1, Binary64.integerPart_of_signedUnits hi.2]
  | int j =>
    cases hi
    have hfinite : (Binary64.ofInt i).isFinite = true := hfinite
    by_cases hrange : leastSigned64 ≤ i ∧ i ≤ greatestSigned64
    · rw [code?_of_signed64? hn (if_pos hrange), heldSigned64_eq_self_iff.mpr hrange]
    · rw [code?_of_signed64?_none hn (if_neg hrange) hfinite, Json.Number.toFloat,
        Binary64.toSigned64_of_isFinite hfinite,
        Binary64.heldSigned64_integerPart_ofInt hfinite (by omega)]

end Payload

/-! Codes of a message -/

def Identity.codes (identity : Identity) : List (String × String) :=
  [("hardware", identity.hardware), ("role", identity.role)]

namespace Envelope

/-- The integer that the payload holds under a key, in whatever form. That the number is finite
says no more than that it was decoded. -/
def Carries (e : Envelope) (key : String) (i : Int) : Prop :=
  ∃ n : Json.Number, Json.member? (Message.payloadOf e) key = some (.number n) ∧ n.IsFinite ∧
    n.Denotes i

def Labels (e : Envelope) (now : Int) (key label : String) : Prop :=
  ∃ m r, Message.ofEnvelope now e = .ok m ∧ m.record? = some (.nodeInfo r) ∧
    (key, label) ∈ r.identity.codes

variable {e : Envelope} {now i : Int} {key label : String}

theorem Labels.eq_code (h : e.Labels now key label) :
    label = (Payload.code? (Message.payloadOf e) key).getD unknownCode := by
  obtain ⟨m, r, hm, hr, hlabel⟩ := h
  have hpayload : m.payload = Payload.ofMembers (Message.payloadOf e) := by
    unfold Message.ofEnvelope at hm
    split at hm
    · cases hm
    · cases hm
      rfl
  have hidentity : r.identity = m.identity := by
    unfold Message.record? at hr
    split at hr <;> cases hr
    rfl
  rw [hidentity, Identity.codes, Message.identity, hpayload] at hlabel
  simp only [List.mem_cons, Prod.mk.injEq, List.not_mem_nil, or_false] at hlabel
  obtain ⟨rfl, rfl⟩ | ⟨rfl, rfl⟩ := hlabel <;> rfl

theorem Labels.eq_of_carries (h : e.Labels now key label) (hi : e.Carries key i) :
    label = toString (heldSigned64 i) := by
  obtain ⟨n, hn, hfinite, hdenotes⟩ := hi
  rw [h.eq_code, Payload.code?_of_denotes hn hfinite hdenotes, Option.getD_some]

/-- What a node with a valid number says of itself is recorded, each code with its label. -/
theorem exists_labels {sender : UInt32} (now : Int) (hsender : Message.senderOf e = .ok sender)
    (htype : Json.member? e "type" = some (.string "nodeinfo")) (hkey : key ∈ ["hardware", "role"]) :
    ∃ label, e.Labels now key label := by
  have hmessage : ∃ m r, Message.ofEnvelope now e = .ok m ∧ m.record? = some (.nodeInfo r) := by
    rw [Message.ofEnvelope, hsender, htype]
    exact ⟨_, _, rfl, rfl⟩
  obtain ⟨m, r, hm, hr⟩ := hmessage
  obtain rfl | rfl : key = "hardware" ∨ key = "role" := by simpa using hkey
  · exact ⟨_, m, r, hm, hr, List.mem_cons_self⟩
  · exact ⟨_, m, r, hm, hr, List.mem_cons_of_mem _ List.mem_cons_self⟩

end Envelope

/-- A code that is an integer is recorded as the numeral of that integer, held between the
bounds of 64 bits with a sign. So the label is faithful exactly for the integers within these
bounds, and there different codes never share one. -/
theorem Message.codes_by_value (now : Int) (e : Envelope) (sender : UInt32)
    (hsender : senderOf e = .ok sender)
    (htype : Json.member? e "type" = some (.string "nodeinfo")) (key : String)
    (hkey : key ∈ ["hardware", "role"]) :
    ∃ label, e.Labels now key label ∧ ∀ i, e.Carries key i →
      IsNumeral label (heldSigned64 i) ∧
      (IsNumeral label i ↔ leastSigned64 ≤ i ∧ i ≤ greatestSigned64) ∧
      ∀ (now' : Int) (e' : Envelope) (key' : String) (i' : Int), e'.Carries key' i' →
        e'.Labels now' key' label → heldSigned64 i' = heldSigned64 i := by
  obtain ⟨label, hlabel⟩ := Envelope.exists_labels now hsender htype hkey
  refine ⟨label, hlabel, fun i hi => ?_⟩
  have hnumeral : IsNumeral label (heldSigned64 i) := by
    rw [hlabel.eq_of_carries hi]
    exact isNumeral_toString _
  refine ⟨hnumeral, ?_, ?_⟩
  · rw [← heldSigned64_eq_self_iff]
    constructor
    · exact hnumeral.unique
    · intro hheld
      rwa [hheld] at hnumeral
  · intro now' e' key' i' hi' hlabel'
    have hnumeral' : IsNumeral label (heldSigned64 i') := by
      rw [hlabel'.eq_of_carries hi']
      exact isNumeral_toString _
    exact hnumeral'.unique hnumeral

/-- A hardware code past the bound, and a role that is a float within. -/
def farCode : Envelope :=
  [("from", .ofNat 7),
   ("payload", .object [("hardware", .ofNat 9223372036854775808),
      ("role", .number (.float (Binary64.ofNat 3)))]),
   ("type", .string "nodeinfo")]

theorem Message.codes_by_value_farCode :
    (∃ label, farCode.Labels 0 "hardware" label ∧ IsNumeral label 9223372036854775807 ∧
      ¬ IsNumeral label 9223372036854775808) ∧
    ∃ label, farCode.Labels 0 "role" label ∧ IsNumeral label 3 := by
  have hfar : farCode.Carries "hardware" 9223372036854775808 :=
    ⟨.int 9223372036854775808, rfl, Binary64.isFinite_ofInt (by decide), rfl⟩
  have hthree : farCode.Carries "role" 3 :=
    ⟨.float (Binary64.ofNat 3), rfl, Binary64.isFinite_ofNat (by decide),
      Json.Number.denotes_ofNat (by decide)⟩
  obtain ⟨label, hlabel, hvalue⟩ := Message.codes_by_value 0 farCode 7 rfl rfl "hardware" (by decide)
  obtain ⟨label', hlabel', hvalue'⟩ := Message.codes_by_value 0 farCode 7 rfl rfl "role" (by decide)
  obtain ⟨hheld, hfaithful, _⟩ := hvalue 9223372036854775808 hfar
  obtain ⟨_, hfaithful', _⟩ := hvalue' 3 hthree
  exact ⟨⟨label, hlabel, hheld, fun h => absurd (hfaithful.mp h) (by decide)⟩,
    label', hlabel', hfaithful'.mpr (by decide)⟩

end MeshTelemetry
