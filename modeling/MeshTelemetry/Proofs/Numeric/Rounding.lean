import Mathlib.Algebra.Group.Nat.Defs
import MeshTelemetry.Numeric.Binary64

/-! What rounding gives. The bits of a rounded number are a place and a significand,
which decode to the magnitude they stand for, within half a unit of the last place.
A quotient below the midpoint over the greatest finite number rounds to a finite one. -/

set_option autoImplicit false

namespace MeshTelemetry.Binary64

/-! Fields -/

section Fields

variable (negative : Bool) {m : Nat}

theorem toNat_signed (h : m < 2 ^ 63) :
    (signed negative m).bits.toNat = if negative then 2 ^ 63 + m else m := by
  have hpow : Nat.pow 2 63 = 2 ^ 63 := rfl
  rw [signed, UInt64.toNat_ofNat', hpow]
  cases negative <;> simp <;> omega

theorem exponentField_signed (h : m < 2 ^ 63) :
    (signed negative m).exponentField = m / 2 ^ 52 := by
  have h52 : Nat.pow 2 52 = 2 ^ 52 := rfl
  have h11 : Nat.pow 2 11 = 2 ^ 11 := rfl
  rw [exponentField, toNat_signed negative h, h52, h11]
  cases negative <;> simp <;> omega

theorem fraction_signed (h : m < 2 ^ 63) : (signed negative m).fraction = m % 2 ^ 52 := by
  have h52 : Nat.pow 2 52 = 2 ^ 52 := rfl
  rw [fraction, toNat_signed negative h, h52]
  cases negative
  · rfl
  · rw [if_pos rfl]
    omega

theorem isFinite_signed (h : m < infinityBits) : (signed negative m).isFinite = true := by
  have hbits : infinityBits = 2047 * 2 ^ 52 := rfl
  rw [isFinite, exponentField_signed negative (by omega), decide_eq_true_eq]
  omega

/-- A significand at its place. One that is rounded up to the next power of two is the
least significand at the next place. -/
theorem units_signed {scale : Nat} (hbits : scale * 2 ^ 52 + m < infinityBits)
    (hle : m ≤ 2 ^ 53) (hnormal : 2 ^ 52 ≤ m ∨ scale = 0) :
    (signed negative (scale * 2 ^ 52 + m)).units = m * 2 ^ scale := by
  have hinfinity : infinityBits = 2047 * 2 ^ 52 := rfl
  have h63 : scale * 2 ^ 52 + m < 2 ^ 63 := by omega
  have hfield := exponentField_signed negative h63
  have hfraction := fraction_signed negative h63
  rcases Nat.lt_or_ge m (2 ^ 52) with hsmall | hlarge
  · have hscale : scale = 0 := hnormal.resolve_left (Nat.not_le.mpr hsmall)
    subst hscale
    have hzero : (0 * 2 ^ 52 + m) / 2 ^ 52 = 0 := by omega
    have hrest : (0 * 2 ^ 52 + m) % 2 ^ 52 = m := by omega
    have hunits : (signed negative (0 * 2 ^ 52 + m)).units = m * Nat.pow 2 (0 - 1) := by
      rw [units, significand, Binary64.scale, hfield, hfraction, hzero, hrest, if_pos rfl]
    exact hunits
  · rcases Nat.lt_or_ge m (2 ^ 53) with hless | hmost
    · have hplace : (scale * 2 ^ 52 + m) / 2 ^ 52 = scale + 1 := by omega
      have hrest : (scale * 2 ^ 52 + m) % 2 ^ 52 + 2 ^ 52 = m := by omega
      rw [units, significand, Binary64.scale, hfield, hfraction, hplace,
        if_neg (Nat.succ_ne_zero scale), Nat.add_sub_cancel]
      exact congrArg (fun m => m * 2 ^ scale) hrest
    · have hm : m = 2 ^ 53 := Nat.le_antisymm hle hmost
      have hplace : (scale * 2 ^ 52 + m) / 2 ^ 52 = scale + 2 := by omega
      have hrest : (scale * 2 ^ 52 + m) % 2 ^ 52 = 0 := by omega
      rw [units, significand, Binary64.scale, hfield, hfraction, hplace, hrest,
        if_neg (Nat.succ_ne_zero (scale + 1)), hm]
      show (0 + 2 ^ 52) * 2 ^ (scale + 1) = 2 ^ 53 * 2 ^ scale
      rw [Nat.zero_add, ← Nat.pow_add, ← Nat.pow_add]
      congr 1
      omega

end Fields

/-! Quotients -/

theorem roundQuotient_spec (num : Nat) {den : Nat} (hden : 0 < den) :
    2 * num ≤ 2 * (roundQuotient num den * den) + den ∧
      2 * (roundQuotient num den * den) ≤ 2 * num + den := by
  have hdiv := Nat.div_add_mod num den
  have hmod := Nat.mod_lt num hden
  have hcomm : den * (num / den) = num / den * den := Nat.mul_comm ..
  unfold roundQuotient
  simp only
  split
  · rw [Nat.add_mul, Nat.one_mul]
    omega
  · omega

theorem roundQuotient_le {num den bound : Nat} (hden : 0 < den) (h : 2 * num < (2 * bound + 1) * den) :
    roundQuotient num den ≤ bound := by
  have hspec := (roundQuotient_spec num hden).2
  apply Nat.le_of_not_lt
  intro hlt
  have hmul : (bound + 1) * den ≤ roundQuotient num den * den := Nat.mul_le_mul_right den hlt
  rw [Nat.add_mul, Nat.mul_assoc, Nat.one_mul] at h
  rw [Nat.add_mul, Nat.one_mul] at hmul
  omega

theorem le_roundQuotient {num den bound : Nat} (hden : 0 < den) (h : bound * den ≤ num) :
    bound ≤ roundQuotient num den := by
  have hdiv : bound ≤ num / den := (Nat.le_div_iff_mul_le hden).mpr h
  unfold roundQuotient
  simp only
  split
  · omega
  · exact hdiv

/-! Rounded numbers -/

def placeOf (num den : Nat) : Nat := Nat.log2 (num / den) - 52

def significandOf (num den : Nat) : Nat := roundQuotient num (den * 2 ^ placeOf num den)

theorem nearest_eq (negative : Bool) (num den : Nat) :
    nearest negative num den =
      signed negative (min (placeOf num den * 2 ^ 52 + significandOf num den) infinityBits) := rfl

section Nearest

variable {num den : Nat}

theorem lt_placeOf (num : Nat) (hden : 0 < den) : num < 2 ^ 53 * (den * 2 ^ placeOf num den) := by
  have hlog : num / den < 2 ^ (Nat.log2 (num / den) + 1) := Nat.lt_log2_self
  have hpow : 2 ^ (Nat.log2 (num / den) + 1) ≤ 2 ^ (53 + placeOf num den) := by
    apply Nat.pow_le_pow_right (by decide)
    rw [placeOf]
    omega
  have hdiv : num / den < 2 ^ (53 + placeOf num den) := Nat.lt_of_lt_of_le hlog hpow
  have hmul := (Nat.div_lt_iff_lt_mul hden).mp hdiv
  rw [Nat.pow_add] at hmul
  rw [Nat.mul_comm den, ← Nat.mul_assoc]
  exact hmul

theorem placeOf_le (hden : 0 < den) (hplace : 0 < placeOf num den) :
    2 ^ 52 * (den * 2 ^ placeOf num den) ≤ num := by
  have hlog : placeOf num den + 52 = Nat.log2 (num / den) := by
    rw [placeOf] at hplace ⊢
    omega
  have hne : num / den ≠ 0 := by
    intro hzero
    rw [hzero] at hlog
    simp at hlog
  have hle : 2 ^ (placeOf num den + 52) ≤ num / den := hlog ▸ Nat.log2_self_le hne
  have hmul := (Nat.le_div_iff_mul_le hden).mp hle
  rw [Nat.pow_add] at hmul
  calc 2 ^ 52 * (den * 2 ^ placeOf num den)
      = 2 ^ placeOf num den * 2 ^ 52 * den := by
        rw [Nat.mul_comm den, ← Nat.mul_assoc, Nat.mul_comm (2 ^ 52)]
    _ ≤ num := hmul

theorem significandOf_le (hden : 0 < den) : significandOf num den ≤ 2 ^ 53 := by
  have hlt := lt_placeOf num hden
  have hpos : 0 < den * 2 ^ placeOf num den := Nat.mul_pos hden (Nat.two_pow_pos _)
  apply roundQuotient_le hpos
  rw [Nat.add_mul, Nat.mul_assoc]
  omega

theorem normal_significandOf (hden : 0 < den) :
    2 ^ 52 ≤ significandOf num den ∨ placeOf num den = 0 := by
  rcases Nat.eq_zero_or_pos (placeOf num den) with hzero | hpos
  · exact .inr hzero
  · exact .inl (le_roundQuotient (Nat.mul_pos hden (Nat.two_pow_pos _)) (placeOf_le hden hpos))

/-- The midpoint over the greatest finite number, in units: from here on quotients round
to infinity. -/
def overflow : Nat := (2 ^ 54 - 1) * Nat.pow 2 2044

theorem nearest_bits_lt (hden : 0 < den) (h : num < den * overflow) :
    placeOf num den * 2 ^ 52 + significandOf num den < infinityBits := by
  have hinfinity : infinityBits = 2047 * 2 ^ 52 := rfl
  have hsignificand : significandOf num den ≤ 2 ^ 53 := significandOf_le hden
  -- The exponent is a variable here, so that no step computes its power.
  rw [overflow] at h
  generalize hk : 2044 = k at h
  have hunit : Nat.pow 2 k = 2 ^ k := rfl
  rw [hunit, Nat.mul_left_comm] at h
  have hplace : placeOf num den ≤ k + 1 := by
    apply Nat.le_of_not_lt
    intro hlarge
    have hle := placeOf_le hden (Nat.lt_of_le_of_lt (Nat.zero_le _) hlarge)
    have hpow : 2 ^ (k + 2) ≤ 2 ^ placeOf num den := Nat.pow_le_pow_right (by decide) hlarge
    have htop : den * 2 ^ (k + 2) ≤ den * 2 ^ placeOf num den := Nat.mul_le_mul_left _ hpow
    have hscaled : den * 2 ^ (k + 2) = den * 2 ^ k * 4 := by rw [Nat.pow_add, Nat.mul_assoc]
    omega
  rcases Nat.lt_or_eq_of_le hplace with hless | hlast
  · omega
  · have hmost : significandOf num den ≤ 2 ^ 53 - 1 := by
      apply roundQuotient_le (Nat.mul_pos hden (Nat.two_pow_pos _))
      have hscaled : den * 2 ^ (k + 1) = den * 2 ^ k * 2 := by rw [Nat.pow_succ, Nat.mul_assoc]
      rw [hlast, hscaled]
      omega
    omega

variable (negative : Bool)

theorem isFinite_nearest (hden : 0 < den) (h : num < den * overflow) :
    (nearest negative num den).isFinite = true := by
  have hbits := nearest_bits_lt hden h
  rw [nearest_eq, Nat.min_eq_left (Nat.le_of_lt hbits)]
  exact isFinite_signed negative hbits

theorem bits_lt_of_isFinite_nearest (h : (nearest negative num den).isFinite = true) :
    placeOf num den * 2 ^ 52 + significandOf num den < infinityBits := by
  apply Nat.lt_of_not_le
  intro hinfinite
  rw [nearest_eq, Nat.min_eq_right hinfinite, isFinite,
    exponentField_signed negative (by decide)] at h
  exact absurd h (by decide)

theorem units_nearest_of_isFinite (hden : 0 < den)
    (h : (nearest negative num den).isFinite = true) :
    (nearest negative num den).units = significandOf num den * 2 ^ placeOf num den := by
  have hbits := bits_lt_of_isFinite_nearest negative h
  rw [nearest_eq, Nat.min_eq_left (Nat.le_of_lt hbits)]
  exact units_signed negative hbits (significandOf_le hden) (normal_significandOf hden)

theorem units_nearest (hden : 0 < den) (h : num < den * overflow) :
    (nearest negative num den).units = significandOf num den * 2 ^ placeOf num den :=
  units_nearest_of_isFinite negative hden (isFinite_nearest negative hden h)

theorem units_nearest_le (h : num < overflow) :
    2 ^ 53 * (nearest negative num 1).units ≤ (2 ^ 53 + 1) * num := by
  rw [units_nearest negative Nat.one_pos (by omega)]
  have hspec := (roundQuotient_spec num (Nat.two_pow_pos (placeOf num 1))).2
  rw [significandOf, Nat.one_mul]
  rcases Nat.eq_zero_or_pos (placeOf num 1) with hzero | hpos
  · rw [hzero] at hspec ⊢
    omega
  · have hle := placeOf_le Nat.one_pos hpos
    rw [Nat.one_mul] at hle
    omega

end Nearest

/-! Products with a power of ten -/

theorem isNaN_of_isFinite {x : Binary64} (h : x.isFinite = true) : x.isNaN = false := by
  rw [isFinite, decide_eq_true_eq] at h
  rw [isNaN, decide_eq_false_iff_not]
  omega

theorem mul_of_isFinite {x y : Binary64} (hx : x.isFinite = true) (hy : y.isFinite = true) :
    x.mul y = nearest (x.negative != y.negative) (x.units * y.units) one := by
  simp [mul, isNaN_of_isFinite hx, isNaN_of_isFinite hy, hx, hy]

theorem one_pos : 0 < one := by
  unfold one
  generalize 1074 = k
  exact Nat.pow_pos (by decide)

/-- Far enough below `overflow` that two roundings and a third stay below it. -/
def productLimit : Nat := (2 ^ 54 - 8) * Nat.pow 2 2044

theorem productLimit_lt_overflow : productLimit < overflow := by
  unfold productLimit overflow
  generalize 2044 = k
  exact Nat.mul_lt_mul_of_pos_right (by decide) (Nat.pow_pos (by decide))

theorem ofNat_spec {n : Nat} (h : n * one < overflow) :
    (ofNat n).isFinite = true ∧ 2 ^ 53 * (ofNat n).units ≤ (2 ^ 53 + 1) * (n * one) :=
  ⟨isFinite_nearest false Nat.one_pos (by omega), units_nearest_le false h⟩

theorem isFinite_mul_tenPow {c e : Nat} (hc : 0 < c)
    (h : c * Nat.pow 10 e * one ≤ productLimit) : ((ofNat c).mul (tenPow e)).isFinite = true := by
  have hlimit := productLimit_lt_overflow
  have hten : 0 < Nat.pow 10 e := Nat.pow_pos (by decide)
  have hcoefficient : c * one ≤ c * Nat.pow 10 e * one :=
    Nat.mul_le_mul_right _ (Nat.le_mul_of_pos_right c hten)
  have hpower : Nat.pow 10 e * one ≤ c * Nat.pow 10 e * one :=
    Nat.mul_le_mul_right _ (Nat.le_mul_of_pos_left _ hc)
  obtain ⟨hxfinite, hx⟩ := ofNat_spec (n := c) (by omega)
  obtain ⟨hyfinite, hy⟩ := ofNat_spec (n := Nat.pow 10 e) (by omega)
  rw [tenPow, mul_of_isFinite hxfinite hyfinite]
  apply isFinite_nearest _ one_pos
  have hproduct := Nat.mul_le_mul hx hy
  have hexact : c * one * (Nat.pow 10 e * one) = c * Nat.pow 10 e * one * one := by
    rw [Nat.mul_mul_mul_comm, ← Nat.mul_assoc]
  have hbound : c * Nat.pow 10 e * one * one ≤ productLimit * one := Nat.mul_le_mul_right one h
  rw [Nat.mul_mul_mul_comm, Nat.mul_mul_mul_comm (2 ^ 53 + 1), hexact] at hproduct
  -- Both bounds in multiples of one unit, a variable so that it is not computed.
  obtain ⟨unit, hunit⟩ : ∃ unit, unit = Nat.pow 2 2044 := ⟨_, rfl⟩
  have hunitpos : 0 < unit := by
    rw [hunit]
    generalize 2044 = k
    exact Nat.pow_pos (by decide)
  have hpos : 0 < unit * one := Nat.mul_pos hunitpos one_pos
  have hless : productLimit = (2 ^ 54 - 8) * unit := by rw [hunit, productLimit]
  have hmore : overflow = (2 ^ 54 - 1) * unit := by rw [hunit, overflow]
  rw [hless, Nat.mul_assoc (2 ^ 54 - 8)] at hbound
  rw [hmore, Nat.mul_left_comm, Nat.mul_comm one]
  omega

end MeshTelemetry.Binary64
