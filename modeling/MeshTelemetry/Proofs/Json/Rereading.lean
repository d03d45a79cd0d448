import MeshTelemetry.Proofs.Json.Reading
import MeshTelemetry.Proofs.Numeric.Hundredths

/-! What a number is after it was written and read. Its text is the shortest that stands
for it, but is read as one rounded product or quotient of two rounded factors, which can
give a neighbour. It gives the number itself where both factors are held exactly, so for
integers and for readings rounded to two decimal places, if they are not very large. -/

set_option autoImplicit false

namespace MeshTelemetry

namespace Decimal

/-- Whether the significand and the power of ten that are read from a decimal's text are
held exactly. -/
def IsHeldExactly (d : Decimal) : Prop := d.written.1 < 2 ^ 53 ∧ d.written.2.natAbs ≤ 22

instance (d : Decimal) : Decidable d.IsHeldExactly := inferInstanceAs (Decidable (_ ∧ _))

theorem written_value (d : Decimal) :
    d.written.1 * 10 ^ d.written.2.toNat * 10 ^ (-d.exponent).toNat =
      d.coefficient * 10 ^ d.exponent.toNat * 10 ^ (-d.written.2).toNat := by
  unfold written
  split
  · rename_i hwhole
    have hnone : (-d.exponent).toNat = 0 := by omega
    rw [hnone]
    show d.coefficient * 10 ^ (d.exponent.toNat + 1) * 10 ^ 0 * 10 ^ 0 =
      d.coefficient * 10 ^ d.exponent.toNat * 10 ^ 1
    rw [Nat.pow_zero, Nat.mul_one, Nat.mul_one, Nat.mul_assoc, Nat.pow_add]
  · rfl

theorem isHeldExactly_of_le {d : Decimal} (hcoefficient : d.coefficient ≤ 10 ^ 15)
    (hexponent : d.exponent.natAbs ≤ 22)
    (hwhole : 0 ≤ d.exponent → d.coefficient * 10 ^ d.exponent.toNat ≤ 10 ^ 14) :
    d.IsHeldExactly := by
  unfold IsHeldExactly written
  split
  · rename_i hplain
    have hvalue := hwhole hplain.1
    have hzero : d.coefficient * Nat.pow 10 (d.exponent.toNat + 1) =
        d.coefficient * 10 ^ d.exponent.toNat * 10 := by
      rw [Nat.mul_assoc]
      rfl
    refine ⟨?_, show 1 ≤ 22 by decide⟩
    show d.coefficient * Nat.pow 10 (d.exponent.toNat + 1) < 2 ^ 53
    omega
  · exact ⟨Nat.lt_of_le_of_lt hcoefficient (by decide), hexponent⟩

open Binary64 in
theorem isHeldExactly_gridPoint {x : Binary64} {n c : Nat} (hn : n ≤ 15) (hc : c ≤ Nat.pow 10 n)
    (hlow : -7 ≤ x.pointPlace) (hhigh : x.pointPlace ≤ 14) : (x.gridPoint n c).IsHeldExactly := by
  have hpow : ∀ {a b : Nat}, a ≤ b → 10 ^ a ≤ 10 ^ b := fun h => Nat.pow_le_pow_right (by decide) h
  rw [gridPoint, gridExponent]
  generalize x.pointPlace = p at hlow hhigh ⊢
  split
  · refine isHeldExactly_of_le (show 1 ≤ 10 ^ 15 by decide)
      (show (p - n + n).natAbs ≤ 22 by omega) fun hwhole => ?_
    have hplace : 0 ≤ p - n + n := hwhole
    show 1 * 10 ^ (p - n + n).toNat ≤ 10 ^ 14
    rw [Nat.one_mul]
    exact hpow (by omega)
  · refine isHeldExactly_of_le (Nat.le_trans hc (hpow hn)) (show (p - n).natAbs ≤ 22 by omega)
      fun hwhole => ?_
    have hplace : 0 ≤ p - n := hwhole
    calc c * 10 ^ (p - n).toNat
        ≤ 10 ^ n * 10 ^ (p - n).toNat := Nat.mul_le_mul_right _ hc
      _ = 10 ^ (n + (p - n).toNat) := (Nat.pow_add ..).symm
      _ ≤ 10 ^ 14 := hpow (by omega)

end Decimal

namespace Json

open Binary64

/-- With both factors held exactly, a significand and a power of ten are read as the
number nearest to their product. -/
theorem Numeral.scale_exact {s : Nat} {e : Int} (hs : s < 2 ^ 53) (he : e.natAbs ≤ 22) :
    scale scaleSteps (Binary64.ofNat s) e =
      some (nearest false (s * 10 ^ e.toNat * one) (10 ^ (-e).toNat)) := by
  rw [scaleSteps, scale, if_pos (by omega)]
  rcases Int.lt_or_le e 0 with hneg | hpos
  · have hplace : e.toNat = 0 ∧ (-e).toNat = e.natAbs := by omega
    rw [if_neg (Int.not_le.mpr hneg), div_tenPow hs he, hplace.1, hplace.2, Nat.pow_zero, Nat.mul_one]
  · have hplace : (-e).toNat = 0 ∧ e.toNat ≤ 22 := by omega
    have hfinite := isFinite_mul_tenPow_exact hs hplace.2
    rw [if_pos hpos]
    simp only
    rw [if_pos hfinite, mul_tenPow hs hplace.2, hplace.1, Nat.pow_zero]

theorem rereadFloat_eq {x y : Binary64}
    (h : Numeral.scale Numeral.scaleSteps (Binary64.ofNat (x.shortest .toEven).written.1)
      (x.shortest .toEven).written.2 = some y) :
    rereadFloat x = if x.negative then y.neg else y := by
  rw [rereadFloat, Number.value?_numeral_float, magnitude?_shortest, h]
  rfl

theorem rereadFloat_of_isHeldExactly {x : Binary64} (h : x.isFinite = true)
    (exact : (x.shortest .toEven).IsHeldExactly) : rereadFloat x = x := by
  have hten : ∀ k, 0 < 10 ^ k := fun k => Nat.pow_pos (by decide)
  have hmagnitude : Numeral.scale Numeral.scaleSteps
      (Binary64.ofNat (x.shortest .toEven).written.1) (x.shortest .toEven).written.2 =
        some (signed false x.magnitudeBits) := by
    rw [Numeral.scale_exact exact.1 exact.2, ← nearest_shortest .toEven false h]
    apply congrArg
    apply nearest_congr false (hten _) (hten _)
    rw [Nat.mul_right_comm, Decimal.written_value, Nat.mul_right_comm]
  have hbits : x.magnitudeBits < 2 ^ 63 := Nat.lt_trans (magnitudeBits_lt h) (by decide)
  have hx := eq_signed x
  rw [rereadFloat_eq hmagnitude]
  cases hnegative : x.negative with
  | false =>
    rw [hnegative] at hx
    exact hx.symm
  | true =>
    rw [hnegative] at hx
    rw [if_pos rfl, neg_signed hbits]
    exact hx.symm

/-! Numbers of few digits -/

theorem rereadFloat_of_isZero {x : Binary64} (h : x.isZero = true) : rereadFloat x = x := by
  have hfinite : x.isFinite = true := by
    rw [isZero, decide_eq_true_eq] at h
    rw [isFinite, h.1]
    rfl
  apply rereadFloat_of_isHeldExactly hfinite
  rw [shortest_of_isZero .toEven h]
  decide

/-- The number nearest to a decimal of fifteen digits and moderate size is read as itself. -/
theorem rereadFloat_of_decimal {x : Binary64} (d : Decimal) (negative : Bool)
    (hx : x = nearest negative (d.coefficient * 10 ^ d.exponent.toNat * one)
      (10 ^ (-d.exponent).toNat)) (hfinite : x.isFinite = true) (hzero : x.isZero = false)
    (hlow : -7 ≤ x.pointPlace) (hhigh : x.pointPlace ≤ 14) (hgrid : x.pointPlace ≤ d.exponent + 15) :
    rereadFloat x = x := by
  have hsign : x.negative = negative := by rw [hx, negative_nearest]
  have hbits := eq_signed x
  rw [hsign] at hbits
  have hpoint : x.gridExponent (14 + 1) ≤ d.exponent := by
    rw [gridExponent]
    omega
  obtain ⟨n, c, hn, hc, hshortest⟩ := shortest_eq_gridPoint .toEven negative hfinite hzero
    (by decide) hpoint (hx.symm.trans hbits)
  apply rereadFloat_of_isHeldExactly hfinite
  rw [hshortest]
  exact Decimal.isHeldExactly_gridPoint hn hc hlow hhigh

theorem rereadFloat_ofInt {i : Int} (h : i.natAbs < 10 ^ 14) : rereadFloat (ofInt i) = ofInt i := by
  have hfinite := (nearest_whole_spec (decide (i < 0)) (Nat.lt_trans h (by decide))).1
  rw [ofInt, ofRatio]
  rcases Nat.eq_zero_or_pos i.natAbs with hnone | hpos
  · apply rereadFloat_of_isZero
    rw [hnone, Nat.zero_mul]
    cases decide (i < 0) <;> decide
  · obtain ⟨hzero, hlow, hhigh⟩ := pointPlace_whole (decide (i < 0)) hpos h
    apply rereadFloat_of_decimal ⟨i.natAbs, 0⟩ (decide (i < 0)) _ hfinite hzero
    · omega
    · exact hhigh
    · show _ ≤ (0 : Int) + 15
      omega
    · show _ = nearest _ (i.natAbs * 10 ^ 0 * one) (10 ^ 0)
      rw [Nat.pow_zero, Nat.mul_one]

theorem rereadFloat_round2 {y : Binary64} (hy : y.isFinite = true)
    (hsmall : y.units < 10 ^ 12 * one) : rereadFloat y.round2 = y.round2 := by
  obtain ⟨k, hk, hround⟩ := round2_eq_nearest hy hsmall
  rw [hround]
  rcases Nat.eq_zero_or_pos k with rfl | hpos
  · apply rereadFloat_of_isZero
    rw [Nat.zero_mul]
    cases y.negative <;> decide
  · obtain ⟨hfinite, hzero, hlow, hhigh⟩ := hundredths_spec y.negative hpos hk
    apply rereadFloat_of_decimal ⟨k, -2⟩ y.negative _ hfinite hzero
    · omega
    · omega
    · exact hhigh
    · have hhundred : 10 ^ 2 = 100 := rfl
      show _ = nearest _ (k * 10 ^ 0 * one) (10 ^ 2)
      rw [Nat.pow_zero, Nat.mul_one, hhundred]

/-- Numbers that come back from their text as they were. -/
inductive IsSteady : Binary64 → Prop
  | short {x : Binary64} (h : (x.shortest .toEven).IsHeldExactly) : IsSteady x
  /-- Times, and readings sent as integers. -/
  | integer {i : Int} (h : i.natAbs < 10 ^ 14) : IsSteady (ofInt i)
  /-- Readings that are rounded before they are stored. -/
  | hundredths {y : Binary64} (hy : y.isFinite = true) (hsmall : y.units < 10 ^ 12 * one) :
    IsSteady y.round2

theorem rereadFloat_of_isSteady {x : Binary64} (hfinite : x.isFinite = true) (h : IsSteady x) :
    rereadFloat x = x := by
  cases h with
  | short h => exact rereadFloat_of_isHeldExactly hfinite h
  | integer h => exact rereadFloat_ofInt h
  | hundredths hy hsmall => exact rereadFloat_round2 hy hsmall

end Json
end MeshTelemetry
