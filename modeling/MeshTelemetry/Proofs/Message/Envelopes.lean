import MeshTelemetry.Message.Record
import MeshTelemetry.Proofs.Message.Looks
import MeshTelemetry.Proofs.Numeric.Exactness

/-! Which messages are accepted, and from whom. A message has to be within its bounds, look
like JSON and decode to an object with a sender; the sender is the number that the value under
its key stands for exactly, whether that is written as an integer or as a float. -/

set_option autoImplicit false

namespace MeshTelemetry

namespace Envelope

/-- A topic and a payload within the bounds that are checked before the payload is decoded. -/
structure Fits (topic : String) (payload : ByteArray) : Prop where
  named : topic ≠ ""
  short : topic.utf8ByteSize ≤ maxTopicBytes
  clean : '\x00' ∉ topic.toList
  filled : payload.size ≠ 0
  small : payload.size ≤ maxPayloadBytes

variable {topic : String} {payload : ByteArray} {members : Json.Members}

theorem ofValue_eq_ok_iff {v : Json} :
    ofValue v = .ok members ↔ v = .object members ∧ (Json.member? members "from").isSome := by
  cases v with
  | object ms =>
    rw [ofValue]
    cases hfrom : Json.member? ms "from" with
    | none =>
      refine ⟨nofun, ?_⟩
      rintro ⟨hms, hsome⟩
      cases hms
      rw [hfrom] at hsome
      cases hsome
    | some v =>
      constructor
      · intro h
        cases h
        exact ⟨rfl, by rw [hfrom]; rfl⟩
      · rintro ⟨hms, _⟩
        cases hms
        rfl
  | _ => simp [ofValue]

theorem ofMessage_eq_ok_iff :
    ofMessage topic payload = .ok members ↔
      Fits topic payload ∧ looksLikeJson payload = true ∧
        decodePayload payload = some (.object members) ∧
        (Json.member? members "from").isSome := by
  constructor
  · intro h
    unfold ofMessage at h
    split at h
    · cases h
    rename_i hnamed
    split at h
    · cases h
    rename_i hshort
    split at h
    · cases h
    rename_i hclean
    split at h
    · cases h
    rename_i hfilled
    split at h
    · cases h
    rename_i hsmall
    split at h
    · cases h
    rename_i hlooks
    split at h
    · cases h
    · rename_i v hdecode
      obtain ⟨rfl, hfrom⟩ := ofValue_eq_ok_iff.mp h
      exact ⟨⟨by simpa using hnamed, Nat.not_lt.mp hshort, by simpa using hclean, hfilled,
        Nat.not_lt.mp hsmall⟩, by simpa using hlooks, hdecode, hfrom⟩
  · rintro ⟨hfits, hlooks, hdecode, hfrom⟩
    have hnamed : topic.isEmpty = false := by simpa using hfits.named
    have hclean : topic.toList.contains '\x00' = false := by simpa using hfits.clean
    rw [ofMessage, hnamed, if_neg (by decide), if_neg (Nat.not_lt.mpr hfits.short), hclean,
      if_neg (by decide), if_neg hfits.filled, if_neg (Nat.not_lt.mpr hfits.small), hlooks,
      if_neg (by decide), hdecode]
    exact ofValue_eq_ok_iff.mpr ⟨rfl, hfrom⟩

/-- What decodes to an object with a sender is accepted wherever its topic and its size are. -/
theorem ofMessage_of_decodePayload (named : topic ≠ "")
    (short : topic.utf8ByteSize ≤ maxTopicBytes) (clean : '\x00' ∉ topic.toList)
    (small : payload.size ≤ maxPayloadBytes)
    (hdecode : decodePayload payload = some (.object members))
    (hfrom : (Json.member? members "from").isSome) : ofMessage topic payload = .ok members := by
  have hlooks := looksLikeJson_of_decodePayload hdecode
  have hfilled := size_ne_zero_of_looksLikeJson hlooks
  exact ofMessage_eq_ok_iff.mpr ⟨⟨named, short, clean, hfilled, small⟩, hlooks, hdecode, hfrom⟩

end Envelope

/-! Senders -/

namespace Binary64

variable {x : Binary64} {i : Int}

theorem natAbs_signedUnits (x : Binary64) : x.signedUnits.natAbs = x.units := by
  unfold signedUnits
  split
  · rw [Int.natAbs_neg, Int.natAbs_natCast]
  · exact Int.natAbs_natCast _

theorem units_of_signedUnits (h : x.signedUnits = i * one) : x.units = i.natAbs * one := by
  rw [← natAbs_signedUnits, h, Int.natAbs_mul, Int.natAbs_natCast]

theorem isWhole_of_signedUnits (hfinite : x.isFinite = true) (h : x.signedUnits = i * one) :
    x.isWhole = true := by
  rw [isWhole, hfinite, units_of_signedUnits h, Nat.mul_mod_left]
  rfl

theorem integerPart_of_signedUnits (h : x.signedUnits = i * one) : x.integerPart = i := by
  have hone : (one : Int) ≠ 0 := Int.natCast_ne_zero.mpr (Nat.ne_of_gt one_pos)
  apply Int.eq_of_mul_eq_mul_right hone
  rw [← h, integerPart, signedUnits, units_of_signedUnits h, Nat.mul_div_cancel _ one_pos,
    Int.natCast_mul]
  split
  · rw [Int.neg_mul]
  · rfl

theorem toUnsigned64_of_signedUnits (hfinite : x.isFinite = true) (h : x.signedUnits = i * one) :
    x.toUnsigned64 = (min greatestUnsigned64 i).toNat := by
  rw [toUnsigned64, clampTo, isNaN_of_isFinite hfinite, if_neg (by decide), hfinite, if_pos rfl,
    integerPart_of_signedUnits h]
  omega

end Binary64

/-- Whether a number is exactly an integer. A float counts by the value it stands for. -/
def Json.Number.Denotes : Json.Number → Int → Prop
  | .int j, i => j = i
  | .float x, i => x.isFinite = true ∧ x.signedUnits = i * Binary64.one

namespace Message

variable {sender : UInt32} {number : Json.Number}

theorem senderOfNat_toNat (h : sender ≠ 0) : senderOfNat sender.toNat = .ok sender := by
  have hzero : sender.toNat ≠ 0 := fun hzero => h (UInt32.toNat_inj.mp hzero)
  rw [senderOfNat, if_neg (Nat.not_le.mpr sender.toNat_lt), if_neg hzero, UInt32.ofNat_toNat]

/-- A natural number of 64 bits is judged by its value, as an integer or as a float. -/
theorem senderOfNumber_natCast {n : Nat} (hnumber : number.Denotes n)
    (hn : (n : Int) ≤ greatestUnsigned64) : senderOfNumber number = senderOfNat n := by
  cases number with
  | int i =>
    cases hnumber
    rw [senderOfNumber, Json.Number.unsigned64?, if_pos ⟨Int.natCast_nonneg _, hn⟩]
    rfl
  | float x =>
    obtain ⟨hfinite, hvalue⟩ := hnumber
    have hsigned : 0 ≤ x.signedUnits := by
      rw [hvalue]
      exact Int.mul_nonneg (Int.natCast_nonneg _) (Int.natCast_nonneg _)
    rw [senderOfNumber, Json.Number.unsigned64?]
    show (if x.isWhole = true ∧ 0 ≤ x.signedUnits then senderOfNat x.toUnsigned64 else _) = _
    rw [if_pos ⟨Binary64.isWhole_of_signedUnits hfinite hvalue, hsigned⟩,
      Binary64.toUnsigned64_of_signedUnits hfinite hvalue, Int.min_eq_right hn, Int.toNat_natCast]

theorem senderOfNumber_of_denotes (h : sender ≠ 0) (hnumber : number.Denotes sender.toNat) :
    senderOfNumber number = .ok sender := by
  have hlt : sender.toNat < 4294967296 := sender.toNat_lt
  have hbound : (sender.toNat : Int) ≤ greatestUnsigned64 := by
    rw [greatestUnsigned64]
    omega
  rw [senderOfNumber_natCast hnumber hbound, senderOfNat_toNat h]

theorem senderOf_of_denotes {e : Envelope}
    (hfrom : Json.member? e "from" = some (.number number)) (h : sender ≠ 0)
    (hnumber : number.Denotes sender.toNat) : senderOf e = .ok sender := by
  rw [senderOf, hfrom]
  exact senderOfNumber_of_denotes h hnumber

end Message
end MeshTelemetry
