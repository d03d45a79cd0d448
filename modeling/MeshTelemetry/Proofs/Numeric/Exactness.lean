import MeshTelemetry.Proofs.Numeric.Borders
import MeshTelemetry.Proofs.Numeric.Finiteness

/-! Arithmetic without error. Integers below 2^53 and powers of ten up to 10^22 are held
exactly, so a product or a quotient of the two is rounded once only. -/

set_option autoImplicit false

namespace MeshTelemetry.Binary64

/-! Signs -/

section Signs

variable {m : Nat}

theorem negative_signed (negative : Bool) (h : m < 2 ^ 63) :
    (signed negative m).negative = negative := by
  have h63 : Nat.pow 2 63 = 2 ^ 63 := rfl
  rw [Binary64.negative, toNat_signed negative h, h63]
  cases negative
  · exact decide_eq_false (Nat.not_le.mpr h)
  · exact decide_eq_true (Nat.le_add_right ..)

theorem negative_nearest (negative : Bool) (num den : Nat) :
    (nearest negative num den).negative = negative := by
  rw [nearest_eq]
  exact negative_signed negative (Nat.lt_of_le_of_lt (Nat.min_le_right ..) (by decide))

theorem negative_ofNat (n : Nat) : (ofNat n).negative = false := negative_nearest ..

theorem neg_signed (h : m < 2 ^ 63) : (signed false m).neg = signed true m := by
  have hbit : (UInt64.ofNat (Nat.pow 2 63)).toNat = 2 ^ 63 := by decide
  have hmod : (m ^^^ 2 ^ 63) % 2 ^ 63 = m := by
    rw [Nat.xor_mod_two_pow, Nat.mod_self, Nat.xor_zero, Nat.mod_eq_of_lt h]
  have hdiv : (m ^^^ 2 ^ 63) / 2 ^ 63 = 1 := by
    rw [Nat.xor_div_two_pow, Nat.div_eq_of_lt h, Nat.zero_xor, Nat.div_self (by decide)]
  have hsame : (signed false m).neg.bits.toNat = (signed true m).bits.toNat := by
    rw [neg, UInt64.toNat_xor, hbit, toNat_signed _ h, toNat_signed _ h, if_neg (by decide),
      if_pos rfl]
    omega
  exact congrArg Binary64.mk (UInt64.toNat_inj.mp hsame)

end Signs

/-! Exact numbers -/

theorem roundQuotient_mul_self {den : Nat} (hden : 0 < den) (m : Nat) :
    roundQuotient (m * den) den = m :=
  roundQuotient_eq hden (by omega) (by omega) (by omega)

/-- A significand of 53 bits at any place is held as it is. -/
theorem units_nearest_exact (negative : Bool) {m p : Nat} (hm : m < 2 ^ 53)
    (hlimit : m * 2 ^ p < overflow) : (nearest negative (m * 2 ^ p) 1).units = m * 2 ^ p := by
  have hplace : placeOf (m * 2 ^ p) 1 ≤ p := by
    apply Nat.le_of_not_lt
    intro hlarge
    have hle := placeOf_le Nat.one_pos (Nat.lt_of_le_of_lt (Nat.zero_le p) hlarge)
    have hpower : 2 ^ (p + 1) ≤ 2 ^ placeOf (m * 2 ^ p) 1 :=
      Nat.pow_le_pow_right (by decide) hlarge
    have hless : m * 2 ^ p < 2 ^ 53 * 2 ^ p := Nat.mul_lt_mul_of_pos_right hm (Nat.two_pow_pos p)
    rw [Nat.pow_succ] at hpower
    omega
  rw [units_nearest negative Nat.one_pos (by omega), significandOf, Nat.one_mul]
  generalize placeOf (m * 2 ^ p) 1 = q at hplace ⊢
  have hsplit : m * 2 ^ p = m * 2 ^ (p - q) * 2 ^ q := by
    rw [Nat.mul_assoc, ← Nat.pow_add, Nat.sub_add_cancel hplace]
  rw [hsplit, roundQuotient_mul_self (Nat.two_pow_pos q)]

theorem mul_one_lt_overflow {n : Nat} (h : n < 2 ^ 53) : n * one < overflow :=
  Nat.lt_of_le_of_lt
    (Nat.mul_le_mul_right one (Nat.le_trans (Nat.le_of_lt h) (by decide : 2 ^ 53 ≤ Nat.pow 10 16)))
    (tenPow_mul_one_lt (by decide))

theorem nearest_whole_spec (negative : Bool) {n : Nat} (h : n < 2 ^ 53) :
    (nearest negative (n * one) 1).isFinite = true ∧
      (nearest negative (n * one) 1).units = n * one := by
  have hlimit := mul_one_lt_overflow h
  refine ⟨isFinite_nearest negative Nat.one_pos (by rw [Nat.one_mul]; exact hlimit), ?_⟩
  -- The exponent is a variable from here on, so that no step computes the power.
  unfold one at hlimit ⊢
  generalize 1074 = p at hlimit ⊢
  exact units_nearest_exact negative h hlimit

theorem units_ofNat {n : Nat} (h : n < 2 ^ 53) : (ofNat n).units = n * one :=
  (nearest_whole_spec false h).2

theorem units_tenPow {k : Nat} (h : k ≤ 22) : (tenPow k).units = 10 ^ k * one := by
  have hlimit := tenPow_mul_one_lt (k := k) (by omega)
  -- The odd part of 10^22 has 52 bits.
  have hfive : 5 ^ k < 2 ^ 53 :=
    Nat.lt_of_le_of_lt (Nat.pow_le_pow_right (by decide) h) (by decide)
  rw [tenPow, ofNat, ofRatio]
  unfold one at hlimit ⊢
  generalize 1074 = p at hlimit ⊢
  have hsplit : Nat.pow 10 k * Nat.pow 2 p = 5 ^ k * 2 ^ (k + p) := by
    rw [Nat.pow_add, ← Nat.mul_assoc, ← Nat.mul_pow]
    rfl
  rw [hsplit] at hlimit ⊢
  rw [units_nearest_exact false hfive hlimit]
  exact hsplit.symm

/-! Products and quotients -/

section Decimals

variable {s k : Nat}

theorem mul_tenPow (hs : s < 2 ^ 53) (hk : k ≤ 22) :
    (ofNat s).mul (tenPow k) = nearest false (s * 10 ^ k * one) 1 := by
  have hint := (ofNat_spec (mul_one_lt_overflow hs)).1
  have hten := (tenPow_spec (k := k) (by omega)).1
  rw [mul_of_isFinite hint hten, units_ofNat hs, units_tenPow hk, tenPow, negative_ofNat,
    negative_ofNat, bne_self_eq_false]
  apply nearest_congr false one_pos Nat.one_pos
  rw [Nat.mul_one, Nat.mul_mul_mul_comm, Nat.mul_assoc (s * 10 ^ k)]

theorem isFinite_mul_tenPow_exact (hs : s < 2 ^ 53) (hk : k ≤ 22) :
    ((ofNat s).mul (tenPow k)).isFinite = true := by
  rw [mul_tenPow hs hk]
  apply isFinite_nearest false Nat.one_pos
  rw [Nat.one_mul]
  have hint : s ≤ 10 ^ 16 := Nat.le_trans (Nat.le_of_lt hs) (by decide)
  have hten : 10 ^ k ≤ 10 ^ 22 := Nat.pow_le_pow_right (by decide) hk
  have hproduct : s * 10 ^ k ≤ Nat.pow 10 38 := Nat.le_trans (Nat.mul_le_mul hint hten) (by decide)
  exact Nat.lt_of_le_of_lt (Nat.mul_le_mul_right one hproduct) (tenPow_mul_one_lt (by decide))

theorem div_tenPow (hs : s < 2 ^ 53) (hk : k ≤ 22) :
    (ofNat s).div (tenPow k) = nearest false (s * one) (10 ^ k) := by
  have hint := (ofNat_spec (mul_one_lt_overflow hs)).1
  obtain ⟨hten, hlarge⟩ := tenPow_spec (k := k) (by omega)
  have hpos : 0 < 10 ^ k := Nat.pow_pos (by decide)
  rw [div_of_isFinite hint hten (Nat.lt_of_lt_of_le one_pos hlarge), units_ofNat hs,
    units_tenPow hk, tenPow, negative_ofNat, negative_ofNat, bne_self_eq_false]
  apply nearest_congr false (Nat.mul_pos hpos one_pos) hpos
  rw [Nat.mul_assoc, Nat.mul_comm one]

end Decimals

end MeshTelemetry.Binary64
