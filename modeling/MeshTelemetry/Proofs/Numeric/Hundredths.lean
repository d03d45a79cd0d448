import MeshTelemetry.Proofs.Numeric.Digits
import MeshTelemetry.Proofs.Numeric.Exactness

/-! Integers and hundredths. A reading rounded to two decimal places is the number nearest
to a whole number of hundredths: the hundredfold is rounded to an integer, which is held
exactly, and the quotient by a hundred is rounded once. -/

set_option autoImplicit false

namespace MeshTelemetry.Binary64

variable {x y : Binary64}

/-! The place of the point -/

theorem pointPlace_le_of_lt (h : x.isZero = false) {k : Nat} (hlt : x.units < 10 ^ k * one) :
    x.pointPlace ≤ k := by
  have hplace := pointPlace_le_units h
  apply Int.not_lt.mp
  intro hlarge
  have hnone : (1 - x.pointPlace).toNat = 0 := by omega
  have hpower : 10 ^ k ≤ 10 ^ (x.pointPlace - 1).toNat :=
    Nat.pow_le_pow_right (by decide) (by omega)
  rw [hnone, Nat.pow_zero, Nat.mul_one] at hplace
  have hmul := Nat.mul_le_mul_right one hpower
  omega

theorem lt_pointPlace_of_le (h : x.isZero = false) {k : Nat} (hle : one ≤ x.units * 10 ^ k) :
    -(k : Int) < x.pointPlace := by
  have hplace := units_lt_pointPlace h
  apply Int.not_le.mp
  intro hsmall
  have hnone : x.pointPlace.toNat = 0 := by omega
  have hpower : 10 ^ k ≤ 10 ^ (-x.pointPlace).toNat := Nat.pow_le_pow_right (by decide) (by omega)
  simp only [hnone, Nat.pow_zero, Nat.one_mul] at hplace
  have hmul := Nat.mul_le_mul_left x.units hpower
  omega

/-! Rounded values -/

theorem units_nearest_bounds (negative : Bool) {num den : Nat} (hden : 0 < den)
    (h : num < den * overflow) (hlarge : den ≤ num) :
    num ≤ 2 * ((nearest negative num den).units * den) ∧
      2 * ((nearest negative num den).units * den) ≤ 3 * num := by
  have hplace : 0 < placeOf num den → 2 ^ 52 * (den * 2 ^ placeOf num den) ≤ num := placeOf_le hden
  rw [units_nearest negative hden h, significandOf]
  generalize placeOf num den = p at hplace ⊢
  have hspec := roundQuotient_spec num (Nat.mul_pos hden (Nat.two_pow_pos p))
  have hlast : den * 2 ^ p ≤ num := by
    rcases Nat.eq_zero_or_pos p with rfl | hpos
    · rw [Nat.pow_zero, Nat.mul_one]
      exact hlarge
    · have hle := hplace hpos
      omega
  have hregroup : roundQuotient num (den * 2 ^ p) * 2 ^ p * den =
      roundQuotient num (den * 2 ^ p) * (den * 2 ^ p) := by
    rw [Nat.mul_assoc, Nat.mul_comm den]
  rw [hregroup]
  omega

/-! Whole numbers -/

theorem pointPlace_whole (negative : Bool) {n : Nat} (hpos : 0 < n) (h : n < 10 ^ 14) :
    let x := nearest negative (n * one) 1
    x.isZero = false ∧ 0 < x.pointPlace ∧ x.pointPlace ≤ 14 := by
  intro x
  have hunits : x.units = n * one := (nearest_whole_spec negative (Nat.lt_trans h (by decide))).2
  have hone : one ≤ n * one := Nat.le_mul_of_pos_left one hpos
  have hzero : x.isZero = false := by
    apply isZero_of_units
    rw [hunits]
    exact Nat.mul_pos hpos one_pos
  refine ⟨hzero, lt_pointPlace_of_le hzero (k := 0) ?_, pointPlace_le_of_lt hzero (k := 14) ?_⟩
  · rw [hunits, Nat.pow_zero, Nat.mul_one]
    exact hone
  · rw [hunits]
    exact Nat.mul_lt_mul_of_pos_right h one_pos

/-! Hundredths -/

theorem hundredths_spec (negative : Bool) {k : Nat} (hpos : 0 < k) (h : k < 2 * 10 ^ 14) :
    let x := nearest negative (k * one) 100
    x.isFinite = true ∧ x.isZero = false ∧ -3 < x.pointPlace ∧ x.pointPlace ≤ 13 := by
  intro x
  have hlimit := mul_one_lt_overflow (Nat.lt_trans h (by decide))
  have hone : one ≤ k * one := Nat.le_mul_of_pos_left one hpos
  have hmost : k * one < 2 * 10 ^ 14 * one := Nat.mul_lt_mul_of_pos_right h one_pos
  have hlarge : 100 ≤ one := by
    have hseven : 7 ≤ 1074 := by decide
    unfold one
    generalize 1074 = p at hseven ⊢
    exact Nat.le_trans (by decide : 100 ≤ 2 ^ 7) (Nat.pow_le_pow_right (by decide) hseven)
  have hover : k * one < 100 * overflow := by omega
  obtain ⟨hlow, hhigh⟩ : k * one ≤ 2 * (x.units * 100) ∧ 2 * (x.units * 100) ≤ 3 * (k * one) :=
    units_nearest_bounds negative (by decide) hover (Nat.le_trans hlarge hone)
  have hzero : x.isZero = false := isZero_of_units (by omega)
  refine ⟨isFinite_nearest negative (by decide) hover, hzero,
    lt_pointPlace_of_le hzero (k := 3) ?_, pointPlace_le_of_lt hzero (k := 13) ?_⟩
  · omega
  · omega

theorem hundred_spec : (ofNat 100).isFinite = true ∧ (ofNat 100).units = 100 * one ∧
    (ofNat 100).negative = false :=
  ⟨isFinite_ofNat (by decide), units_ofNat (by decide), negative_ofNat 100⟩

theorem mul_hundred (hy : y.isFinite = true) :
    y.mul (ofNat 100) = nearest y.negative (y.units * 100) 1 := by
  obtain ⟨hfinite, hunits, hpositive⟩ := hundred_spec
  rw [mul_of_isFinite hy hfinite, hunits, hpositive, Bool.bne_false]
  apply nearest_congr _ one_pos Nat.one_pos
  rw [Nat.mul_one, Nat.mul_assoc]

theorem div_hundred (hy : y.isFinite = true) :
    y.div (ofNat 100) = nearest y.negative y.units 100 := by
  obtain ⟨hfinite, hunits, hpositive⟩ := hundred_spec
  have hpos : 0 < (ofNat 100).units := hunits ▸ Nat.mul_pos (by decide) one_pos
  rw [div_of_isFinite hy hfinite hpos, hunits, hpositive, Bool.bne_false]
  apply nearest_congr _ (Nat.mul_pos (by decide) one_pos) (by decide)
  rw [Nat.mul_assoc, Nat.mul_comm one]

/-- A rounded reading is the number nearest to a whole number of hundredths. -/
theorem round2_eq_nearest (hy : y.isFinite = true) (hsmall : y.units < 10 ^ 12 * one) :
    ∃ k < 2 * 10 ^ 14, y.round2 = nearest y.negative (k * one) 100 := by
  -- The unit is a variable here, so that no step computes it.
  have hscaled : ∀ unit, y.units < 10 ^ 12 * unit → y.units * 100 ≤ Nat.pow 10 14 * unit := by
    intro unit hless
    have hpower : Nat.pow 10 14 = 10 ^ 14 := rfl
    rw [hpower]
    omega
  have hlimit : y.units * 100 < overflow :=
    Nat.lt_of_le_of_lt (hscaled one hsmall) (tenPow_mul_one_lt (by decide))
  have hproduct : (y.mul (ofNat 100)).isFinite = true := by
    rw [mul_hundred hy]
    exact isFinite_nearest _ Nat.one_pos (by omega)
  have hgrowth := units_nearest_le y.negative hlimit
  rw [← mul_hundred hy] at hgrowth
  have hsign : (y.mul (ofNat 100)).negative = y.negative := by rw [mul_hundred hy, negative_nearest]
  rw [round2]
  generalize y.mul (ofNat 100) = z at hproduct hgrowth hsign ⊢
  have hk : (2 * z.units + one) / (2 * one) < 2 * 10 ^ 14 := by
    apply (Nat.div_lt_iff_lt_mul (Nat.mul_pos (by decide) one_pos)).mpr
    omega
  obtain ⟨hfinite, hunits⟩ := nearest_whole_spec z.negative (Nat.lt_trans hk (by decide))
  refine ⟨_, hk, ?_⟩
  rw [round, if_pos hproduct, div_hundred hfinite, hunits, negative_nearest, hsign]

end MeshTelemetry.Binary64
