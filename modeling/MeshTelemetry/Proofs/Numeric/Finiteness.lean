import MeshTelemetry.Proofs.Numeric.Shortest

/-! Which results are finite. Integers of 64 bits are, and so is a finite number
divided by a power of ten, since it does not grow. -/

set_option autoImplicit false

namespace MeshTelemetry.Binary64

variable {x y : Binary64}

theorem units_lt_overflow (h : x.isFinite = true) : x.units < overflow := by
  have hsignificand := significand_lt x
  have hscale : x.scale ≤ 2044 + 1 := scale_le h
  rw [units, overflow]
  generalize 2044 = k at hscale ⊢
  have hpower : Nat.pow 2 x.scale ≤ Nat.pow 2 (k + 1) := Nat.pow_le_pow_right (by decide) hscale
  have hunits : x.significand * Nat.pow 2 x.scale ≤ (2 ^ 53 - 1) * Nat.pow 2 (k + 1) :=
    Nat.mul_le_mul (by omega) hpower
  have hstep : Nat.pow 2 (k + 1) = Nat.pow 2 k * 2 := rfl
  have hpos : 0 < Nat.pow 2 k := Nat.pow_pos (by decide)
  omega

theorem isFinite_neg (h : x.isFinite = true) : x.neg.isFinite = true := by
  have hdiv : ∀ a b : Nat, (a ^^^ b) / Nat.pow 2 52 = a / Nat.pow 2 52 ^^^ b / Nat.pow 2 52 :=
    fun a b => Nat.xor_div_two_pow
  have hmod : ∀ a b : Nat, (a ^^^ b) % Nat.pow 2 11 = a % Nat.pow 2 11 ^^^ b % Nat.pow 2 11 :=
    fun a b => Nat.xor_mod_two_pow
  have hsign : (UInt64.ofNat (Nat.pow 2 63)).toNat / Nat.pow 2 52 % Nat.pow 2 11 = 0 := by decide
  have hsame : x.neg.exponentField = x.exponentField := by
    rw [exponentField, neg, UInt64.toNat_xor, hdiv, hmod, hsign, Nat.xor_zero, exponentField]
  rw [isFinite, hsame]
  exact h

theorem isZero_of_units (h : 0 < x.units) : x.isZero = false := by
  rw [isZero, decide_eq_false_iff_not]
  rintro ⟨hfield, hfraction⟩
  rw [units, significand, if_pos hfield, hfraction, Nat.zero_mul] at h
  exact Nat.lt_irrefl 0 h

theorem div_of_isFinite (hx : x.isFinite = true) (hy : y.isFinite = true) (h : 0 < y.units) :
    x.div y = nearest (x.negative != y.negative) (x.units * one) y.units := by
  simp [div, isNaN_of_isFinite hx, isNaN_of_isFinite hy, hx, hy, isZero_of_units h]

theorem isFinite_div (hx : x.isFinite = true) (hy : y.isFinite = true) (h : one ≤ y.units) :
    (x.div y).isFinite = true := by
  have hpos : 0 < y.units := Nat.lt_of_lt_of_le one_pos h
  rw [div_of_isFinite hx hy hpos]
  apply isFinite_nearest _ hpos
  calc x.units * one
      ≤ x.units * y.units := Nat.mul_le_mul_left _ h
    _ < overflow * y.units := Nat.mul_lt_mul_of_pos_right (units_lt_overflow hx) hpos
    _ = y.units * overflow := Nat.mul_comm ..

/-- Rounding to a finite number does not go below a power of two. -/
theorem le_units_nearest {num j : Nat} (negative : Bool)
    (h : (nearest negative num 1).isFinite = true) (hj : Nat.pow 2 j ≤ num) :
    Nat.pow 2 j ≤ (nearest negative num 1).units := by
  have hpower : Nat.pow 2 j = 2 ^ j := rfl
  rw [hpower] at hj ⊢
  have hlog : j ≤ Nat.log2 num :=
    (Nat.le_log2 (Nat.ne_of_gt (Nat.lt_of_lt_of_le (Nat.two_pow_pos j) hj))).mpr hj
  have hplace : placeOf num 1 = Nat.log2 num - 52 := by rw [placeOf, Nat.div_one]
  rw [units_nearest_of_isFinite negative Nat.one_pos h, significandOf, Nat.one_mul]
  generalize placeOf num 1 = p at hplace ⊢
  rcases Nat.le_total p j with hle | hge
  · have hsplit : 2 ^ j = 2 ^ (j - p) * 2 ^ p := by rw [← Nat.pow_add, Nat.sub_add_cancel hle]
    rw [hsplit] at hj ⊢
    exact Nat.mul_le_mul_right _ (le_roundQuotient (Nat.two_pow_pos p) hj)
  · have hbase : 1 * 2 ^ p ≤ num := by
      rw [Nat.one_mul]
      exact (Nat.le_log2 (by have := Nat.two_pow_pos j; omega)).mp (by omega)
    calc 2 ^ j
        ≤ 2 ^ p := Nat.pow_le_pow_right (by decide) hge
      _ = 1 * 2 ^ p := (Nat.one_mul _).symm
      _ ≤ roundQuotient num (2 ^ p) * 2 ^ p :=
          Nat.mul_le_mul_right _ (le_roundQuotient (Nat.two_pow_pos p) hbase)

theorem pow_mul_one_le_units_ofRatio {n k : Nat} (negative : Bool)
    (h : (ofRatio negative n 1).isFinite = true) (hk : 2 ^ k ≤ n) :
    2 ^ k * one ≤ (ofRatio negative n 1).units := by
  have hle : 2 ^ k * one ≤ n * one := Nat.mul_le_mul_right one hk
  rw [ofRatio] at h ⊢
  generalize n * one = num at h hle ⊢
  -- The exponent is a variable from here on, so that no step computes the power.
  unfold one at hle ⊢
  generalize 1074 = j at hle ⊢
  have hpower : 2 ^ k * Nat.pow 2 j = Nat.pow 2 (k + j) := (Nat.pow_add 2 k j).symm
  rw [hpower] at hle ⊢
  exact le_units_nearest negative h hle

theorem tenPow_mul_one_lt {k : Nat} (h : k ≤ 308) : Nat.pow 10 k * one < overflow := by
  have hlimit := powers_of_ten.2.2.1
  generalize 308 = m at h hlimit
  exact Nat.lt_of_le_of_lt
    (Nat.mul_le_mul_right one (Nat.pow_le_pow_right (by decide) h)) hlimit

theorem tenPow_spec {k : Nat} (h : k ≤ 308) :
    (tenPow k).isFinite = true ∧ one ≤ (tenPow k).units := by
  have hfinite : (tenPow k).isFinite = true := (ofNat_spec (tenPow_mul_one_lt h)).1
  have hle : 2 ^ 0 * one ≤ (tenPow k).units :=
    pow_mul_one_le_units_ofRatio false hfinite (Nat.pow_pos (by decide))
  refine ⟨hfinite, ?_⟩
  generalize one = unit at hle ⊢
  omega

theorem isFinite_ofRatio_one (negative : Bool) {n : Nat} (h : n ≤ 2 ^ 64) :
    (ofRatio negative n 1).isFinite = true := by
  have hless : n * one ≤ Nat.pow 10 20 * one :=
    Nat.mul_le_mul_right one (Nat.le_trans h (by decide))
  have hlimit := Nat.lt_of_le_of_lt hless (tenPow_mul_one_lt (by decide))
  exact isFinite_nearest negative Nat.one_pos (by omega)

theorem isFinite_ofInt {i : Int} (h : i.natAbs ≤ 2 ^ 64) : (ofInt i).isFinite = true :=
  isFinite_ofRatio_one _ h

theorem isFinite_ofNat {n : Nat} (h : n ≤ 2 ^ 64) : (ofNat n).isFinite = true :=
  isFinite_ofRatio_one false h

end MeshTelemetry.Binary64
