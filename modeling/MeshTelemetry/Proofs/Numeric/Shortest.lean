import MeshTelemetry.Numeric.Shortest
import MeshTelemetry.Proofs.Numeric.Rounding

/-! The shortest decimal of a number. It has at most seventeen digits, it is zero only
for zero, and its value lies within the borders between which everything rounds to the
number. -/

set_option autoImplicit false

namespace MeshTelemetry.Binary64

variable {x : Binary64}

/-! Bounds of a number -/

theorem significand_pos (h : x.isZero = false) : 0 < x.significand := by
  rw [isZero, decide_eq_false_iff_not] at h
  rw [significand]
  split
  · rename_i hfield
    exact Nat.pos_of_ne_zero fun hfraction => h ⟨hfield, hfraction⟩
  · have hpow : 0 < Nat.pow 2 52 := by decide
    omega

theorem significand_lt (x : Binary64) : x.significand < 2 ^ 53 := by
  have hfraction : x.fraction < 2 ^ 52 := Nat.mod_lt _ (by decide)
  have hpow : Nat.pow 2 52 = 2 ^ 52 := rfl
  rw [significand, hpow]
  split <;> omega

theorem scale_le (h : x.isFinite = true) : x.scale ≤ 2045 := by
  rw [isFinite, decide_eq_true_eq] at h
  rw [Binary64.scale]
  omega

theorem units_pos (h : x.isZero = false) : 0 < x.units :=
  Nat.mul_pos (significand_pos h) (Nat.pow_pos (by decide))

theorem gapBelow_lt_quarters (h : x.isZero = false) : x.gapBelow < x.quarters := by
  have hsignificand := significand_pos h
  have hpow : 0 < Nat.pow 2 x.scale := Nat.pow_pos (by decide)
  have hunits : Nat.pow 2 x.scale ≤ x.units := Nat.le_mul_of_pos_left _ hsignificand
  rw [gapBelow, quarters]
  split <;> omega

/-! Borders -/

theorem roundsHere_le {num den : Nat} (h : x.roundsHere num den = true) :
    num ≤ (x.quarters + x.gapAbove) * den := by
  unfold roundsHere at h
  split at h <;> simp only [decide_eq_true_eq] at h <;> omega

theorem not_roundsHere_zero (h : x.isZero = false) {den : Nat} (hden : 0 < den) :
    x.roundsHere 0 den = false := by
  have hlow : 0 < (x.quarters - x.gapBelow) * den :=
    Nat.mul_pos (Nat.sub_pos_of_lt (gapBelow_lt_quarters h)) hden
  unfold roundsHere
  split <;> simp only [decide_eq_false_iff_not] <;> omega

/-! The place of the point -/

/-- Below `10 ^ p`, said without fractions. -/
theorem units_lt_pointPlace (h : x.isZero = false) :
    x.units * 10 ^ (-x.pointPlace).toNat < 10 ^ x.pointPlace.toNat * one := by
  have hpos := units_pos h
  unfold pointPlace
  split
  · have hlt : x.units / one < 10 ^ (Nat.toDigits 10 (x.units / one)).length :=
      (Nat.length_toDigits_le_iff (by decide) Nat.length_toDigits_pos).mp (Nat.le_refl _)
    have hmul := (Nat.div_lt_iff_lt_mul one_pos).mp hlt
    have hneg : (-((Nat.toDigits 10 (x.units / one)).length : Int)).toNat = 0 := by omega
    rw [hneg, Nat.pow_zero, Nat.mul_one, Int.toNat_natCast]
    exact hmul
  · rename_i hless
    have hone := one_pos
    have hcover : x.units * ((one - 1) / x.units) ≤ one - 1 := Nat.mul_div_le ..
    generalize hk : (one - 1) / x.units = k at hcover ⊢
    have hlength : 0 < (Nat.toDigits 10 k).length := Nat.length_toDigits_pos
    have hplace : (1 - ((Nat.toDigits 10 k).length : Int)).toNat = 0 := by omega
    have hneg : (-(1 - ((Nat.toDigits 10 k).length : Int))).toNat =
        (Nat.toDigits 10 k).length - 1 := by omega
    rw [hplace, hneg, Nat.pow_zero, Nat.one_mul]
    rcases Nat.eq_zero_or_pos ((Nat.toDigits 10 k).length - 1) with hone | hmore
    · rw [hone, Nat.pow_zero, Nat.mul_one]
      exact Nat.lt_of_not_le hless
    · have hle : 10 ^ ((Nat.toDigits 10 k).length - 1) ≤ k := by
        apply Nat.le_of_not_lt
        intro hlt
        have hshort := (Nat.length_toDigits_le_iff (by decide) hmore).mpr hlt
        omega
      have hmul := Nat.mul_le_mul_left x.units hle
      omega

theorem units_lt_of_scale_le {k : Nat} (h : x.scale ≤ k) : x.units < 2 ^ 53 * Nat.pow 2 k :=
  Nat.mul_lt_mul_of_lt_of_le (significand_lt x) (Nat.pow_le_pow_right (by decide) h)
    (Nat.pow_pos (by decide))

/-- The border above the greatest finite number, in quarter units, and a little more. -/
def borderLimit : Nat := (2 ^ 55 + 2) * Nat.pow 2 2045

theorem powers_of_ten :
    2 ^ 53 * Nat.pow 2 2046 ≤ 10 ^ 309 * one ∧
      borderLimit < Nat.pow 10 309 * quarterOne ∧
      Nat.pow 10 308 * one < overflow ∧
      one - 1 < 10 ^ 324 := by
  decide +kernel

theorem units_lt (x : Binary64) : x.units < 10 ^ 309 * one := by
  have hfield : x.exponentField < 2048 := Nat.mod_lt _ (by decide)
  have hscale : x.scale ≤ 2046 := by
    rw [Binary64.scale]
    omega
  have htop := powers_of_ten.1
  generalize 2046 = k at hscale htop
  exact Nat.lt_of_lt_of_le (units_lt_of_scale_le hscale) htop

theorem pointPlace_le (x : Binary64) : x.pointPlace ≤ 309 := by
  unfold pointPlace
  split
  · have hdiv : x.units / one < 10 ^ 309 :=
      (Nat.div_lt_iff_lt_mul one_pos).mpr (units_lt x)
    have hlength := (Nat.length_toDigits_le_iff (by decide) (by decide)).mpr hdiv
    omega
  · have hlength : 0 < (Nat.toDigits 10 ((one - 1) / x.units)).length := Nat.length_toDigits_pos
    omega

theorem le_pointPlace (x : Binary64) : -323 ≤ x.pointPlace := by
  unfold pointPlace
  split
  · omega
  · have hdiv : (one - 1) / x.units < 10 ^ 324 :=
      Nat.lt_of_le_of_lt (Nat.div_le_self ..) powers_of_ten.2.2.2
    have hlength := (Nat.length_toDigits_le_iff (by decide) (by decide)).mpr hdiv
    omega

/-! Decimals on a grid -/

def gridExponent (x : Binary64) (n : Nat) : Int := x.pointPlace - n

def gridFloor (x : Binary64) (n : Nat) : Nat :=
  x.quarters * Nat.pow 10 (-x.gridExponent n).toNat / (Nat.pow 10 (x.gridExponent n).toNat * quarterOne)

theorem quarterOne_pos : 0 < quarterOne := Nat.mul_pos (by decide) one_pos

theorem gridFloor_lt (h : x.isZero = false) (n : Nat) : x.gridFloor n < Nat.pow 10 n := by
  have hplace := units_lt_pointPlace h
  have hten : ∀ k, 0 < 10 ^ k := fun k => Nat.pow_pos (by decide)
  have hregroup : ∀ p q r unit : Nat,
      4 * (p * unit * (q * r)) = q * (r * (4 * unit)) * p := by
    intro p q r unit
    ac_rfl
  apply (Nat.div_lt_iff_lt_mul (Nat.mul_pos (hten _) quarterOne_pos)).mpr
  -- The four powers of ten differ by what the place of the point and the digits say.
  have hpowers : (-x.gridExponent n).toNat + x.pointPlace.toNat =
      (-x.pointPlace).toNat + (n + (x.gridExponent n).toNat) := by
    rw [gridExponent]
    omega
  generalize (-x.gridExponent n).toNat = u at hpowers ⊢
  generalize (x.gridExponent n).toNat = v at hpowers ⊢
  generalize (-x.pointPlace).toNat = a at hpowers hplace
  generalize x.pointPlace.toNat = b at hpowers hplace
  apply Nat.lt_of_mul_lt_mul_right (a := 10 ^ b)
  calc x.quarters * 10 ^ u * 10 ^ b
      = 4 * (x.units * 10 ^ a * 10 ^ (n + v)) := by
        rw [Nat.mul_assoc, ← Nat.pow_add, hpowers, Nat.pow_add, quarters, Nat.mul_assoc,
          Nat.mul_assoc]
    _ < 4 * (10 ^ b * one * 10 ^ (n + v)) :=
        Nat.mul_lt_mul_of_pos_left (Nat.mul_lt_mul_of_pos_right hplace (hten _)) (by decide)
    _ = 10 ^ n * (10 ^ v * quarterOne) * 10 ^ b := by
        rw [Nat.pow_add, quarterOne]
        exact hregroup ..

/-- A point of the grid, a carry into the next power of ten being one digit. -/
def gridPoint (x : Binary64) (n c : Nat) : Decimal :=
  if c = Nat.pow 10 n then ⟨1, x.gridExponent n + n⟩ else ⟨c, x.gridExponent n⟩

def readsBack (x : Binary64) (n c : Nat) : Bool :=
  x.roundsHere (c * (Nat.pow 10 (x.gridExponent n).toNat * quarterOne)) (Nat.pow 10 (-x.gridExponent n).toNat)

theorem ofDigits?_eq (tie : TieRule) (x : Binary64) (n : Nat) :
    ∃ above : Bool, x.ofDigits? tie n =
      match x.readsBack n (x.gridFloor n), x.readsBack n (x.gridFloor n + 1) with
      | true, true =>
        some (x.gridPoint n (if above then x.gridFloor n + 1 else x.gridFloor n))
      | true, false => some (x.gridPoint n (x.gridFloor n))
      | false, true => some (x.gridPoint n (x.gridFloor n + 1))
      | false, false => none := by
  exact ⟨_, rfl⟩

theorem ofDigits?_spec {tie : TieRule} {n : Nat} {d : Decimal} (h : x.ofDigits? tie n = some d) :
    ∃ c ≤ x.gridFloor n + 1, d = x.gridPoint n c ∧ x.readsBack n c = true := by
  obtain ⟨above, heq⟩ := ofDigits?_eq tie x n
  generalize hfloor : x.readsBack n (x.gridFloor n) = atFloor at heq
  generalize habove : x.readsBack n (x.gridFloor n + 1) = atAbove at heq
  have hd := heq.symm.trans h
  generalize x.gridFloor n = floor at hfloor habove hd ⊢
  cases atFloor <;> cases atAbove
  · cases hd
  · exact ⟨floor + 1, Nat.le_refl _, (Option.some.inj hd).symm, habove⟩
  · exact ⟨floor, Nat.le_succ _, (Option.some.inj hd).symm, hfloor⟩
  · have hd' := (Option.some.inj hd).symm
    split at hd'
    · exact ⟨floor + 1, Nat.le_refl _, hd', habove⟩
    · exact ⟨floor, Nat.le_succ _, hd', hfloor⟩

theorem not_readsBack_zero (h : x.isZero = false) (n : Nat) : x.readsBack n 0 = false := by
  rw [readsBack, Nat.zero_mul]
  exact not_roundsHere_zero h (Nat.pow_pos (by decide))

/-- A decimal that reads back, on its own grid or carried to one digit, does not exceed
the border above the number. -/
theorem gridPoint_le {n c : Nat} (h : x.readsBack n c = true)
    (hexponent : 0 ≤ (x.gridPoint n c).exponent) :
    (x.gridPoint n c).coefficient * Nat.pow 10 (x.gridPoint n c).exponent.toNat * quarterOne ≤
      x.quarters + x.gapAbove := by
  have hle := roundsHere_le h
  have hten : ∀ k, 0 < Nat.pow 10 k := fun k => Nat.pow_pos (by decide)
  unfold gridPoint at hexponent ⊢
  split
  · rename_i hcarry
    rw [if_pos hcarry] at hexponent
    have hsum : 0 ≤ x.gridExponent n + n := hexponent
    have hpowers : n + (x.gridExponent n).toNat =
        (x.gridExponent n + n).toNat + (-x.gridExponent n).toNat := by omega
    apply Nat.le_of_mul_le_mul_right _ (hten (-x.gridExponent n).toNat)
    calc 1 * 10 ^ (x.gridExponent n + n).toNat * quarterOne * 10 ^ (-x.gridExponent n).toNat
        = 10 ^ (n + (x.gridExponent n).toNat) * quarterOne := by
          rw [hpowers, Nat.pow_add, Nat.one_mul, Nat.mul_right_comm]
      _ = c * (10 ^ (x.gridExponent n).toNat * quarterOne) := by
          rw [Nat.pow_add, Nat.mul_assoc, hcarry]
          rfl
      _ ≤ (x.quarters + x.gapAbove) * 10 ^ (-x.gridExponent n).toNat := hle
  · rename_i hcarry
    rw [if_neg hcarry] at hexponent
    have hgrid : 0 ≤ x.gridExponent n := hexponent
    have hden : (-x.gridExponent n).toNat = 0 := by omega
    rw [hden, Nat.pow_eq, Nat.pow_eq, Nat.pow_zero, Nat.mul_one] at hle
    rw [Nat.mul_assoc]
    exact hle

/-! The shortest decimal -/

theorem shortest_spec (tie : TieRule) (h : x.isZero = false) :
    x.shortest tie = ⟨0, 0⟩ ∨ ∃ n c, 1 ≤ n ∧ n ≤ 17 ∧ 0 < c ∧ c ≤ Nat.pow 10 n ∧
      x.readsBack n c = true ∧ x.shortest tie = x.gridPoint n c := by
  unfold shortest
  rw [h, if_neg (by decide)]
  cases hfound : (List.range 17).findSome? fun n => x.ofDigits? tie (n + 1) with
  | none => exact .inl rfl
  | some d =>
    obtain ⟨n, hn, hd⟩ := List.exists_of_findSome?_eq_some hfound
    obtain ⟨c, hc, hpoint, hback⟩ := ofDigits?_spec hd
    have hfloor := gridFloor_lt h (n + 1)
    have hdigits : n < 17 := List.mem_range.mp hn
    refine .inr ⟨n + 1, c, by omega, by omega, ?_, by omega, hback, hpoint⟩
    apply Nat.pos_of_ne_zero
    rintro rfl
    rw [not_readsBack_zero h] at hback
    cases hback

theorem shortest_of_isZero (tie : TieRule) (h : x.isZero = true) : x.shortest tie = ⟨0, 0⟩ := by
  rw [shortest, if_pos h]

theorem shortest_coefficient_lt (tie : TieRule) (x : Binary64) :
    (x.shortest tie).coefficient < Nat.pow 10 17 := by
  cases h : x.isZero with
  | true =>
    rw [shortest_of_isZero tie h]
    decide
  | false =>
    rcases shortest_spec tie h with hzero | ⟨n, c, _, hn, _, hc, _, hpoint⟩
    · rw [hzero]
      decide
    · have hpow : Nat.pow 10 n ≤ Nat.pow 10 17 := Nat.pow_le_pow_right (by decide) hn
      rw [hpoint, gridPoint]
      split
      · show 1 < Nat.pow 10 17
        decide
      · show c < Nat.pow 10 17
        omega

theorem shortest_coefficient_eq_zero {tie : TieRule}
    (h : (x.shortest tie).coefficient = 0) : x.shortest tie = ⟨0, 0⟩ := by
  cases hx : x.isZero with
  | true => exact shortest_of_isZero tie hx
  | false =>
    rcases shortest_spec tie hx with hzero | ⟨n, c, _, _, hpos, _, _, hpoint⟩
    · exact hzero
    · rw [hpoint, gridPoint] at h
      split at h
      · cases h
      · have hc : c = 0 := h
        omega

theorem shortest_exponent_natAbs_le (tie : TieRule) (x : Binary64) :
    (x.shortest tie).exponent.natAbs ≤ 1000 := by
  cases h : x.isZero with
  | true =>
    rw [shortest_of_isZero tie h]
    decide
  | false =>
    rcases shortest_spec tie h with hzero | ⟨n, c, _, hn, _, _, _, hpoint⟩
    · rw [hzero]
      decide
    · have hhigh := pointPlace_le x
      have hlow := le_pointPlace x
      rw [hpoint, gridPoint, gridExponent]
      split
      · show (x.pointPlace - n + n).natAbs ≤ 1000
        omega
      · show (x.pointPlace - n).natAbs ≤ 1000
        omega

theorem shortest_le (tie : TieRule) (hexponent : 0 ≤ (x.shortest tie).exponent) :
    (x.shortest tie).coefficient * Nat.pow 10 (x.shortest tie).exponent.toNat * quarterOne ≤
      x.quarters + x.gapAbove := by
  cases h : x.isZero with
  | true =>
    rw [shortest_of_isZero tie h, Nat.zero_mul, Nat.zero_mul]
    exact Nat.zero_le _
  | false =>
    rcases shortest_spec tie h with hzero | ⟨n, c, _, _, _, _, hback, hpoint⟩
    · rw [hzero, Nat.zero_mul, Nat.zero_mul]
      exact Nat.zero_le _
    · rw [hpoint] at hexponent ⊢
      exact gridPoint_le hback hexponent

theorem border_lt_of_scale_le {k : Nat} (h : x.scale ≤ k) :
    x.quarters + x.gapAbove < (2 ^ 55 + 2) * Nat.pow 2 k := by
  have hunits := units_lt_of_scale_le h
  have hpow : Nat.pow 2 x.scale ≤ Nat.pow 2 k := Nat.pow_le_pow_right (by decide) h
  rw [quarters, gapAbove]
  omega

theorem border_lt (h : x.isFinite = true) : x.quarters + x.gapAbove < borderLimit := by
  have hscale := scale_le h
  rw [borderLimit]
  generalize 2045 = k at hscale ⊢
  exact border_lt_of_scale_le hscale

theorem shortest_exponent_le (tie : TieRule) (h : x.isFinite = true)
    (hexponent : 0 ≤ (x.shortest tie).exponent) : (x.shortest tie).exponent ≤ 308 := by
  rcases Nat.eq_zero_or_pos (x.shortest tie).coefficient with hzero | hpos
  · rw [shortest_coefficient_eq_zero hzero]
    decide
  · have hborder := Nat.lt_of_le_of_lt (shortest_le tie hexponent) (border_lt h)
    have hpower : Nat.pow 10 (x.shortest tie).exponent.toNat * quarterOne <
        Nat.pow 10 309 * quarterOne := by
      apply Nat.lt_of_le_of_lt (Nat.mul_le_mul_right _ (Nat.le_mul_of_pos_left _ hpos))
      exact Nat.lt_trans hborder powers_of_ten.2.1
    have hless : ∀ e k, Nat.pow 10 e < Nat.pow 10 k → e < k :=
      fun e k => (Nat.pow_lt_pow_iff_right (by decide)).mp
    have hexp := hless _ _ (Nat.lt_of_mul_lt_mul_right hpower)
    omega

/-! Reading the digits of a finite number as a product. Two roundings of the factors
could push the greatest numbers over the border, so those four are computed. -/

/-- Whether the digits of a number times their power of ten are finite. -/
def hasFiniteProduct (x : Binary64) : Bool :=
  ((ofNat (x.shortest .toEven).coefficient).mul
    (tenPow (x.shortest .toEven).exponent.toNat)).isFinite

theorem hasFiniteProduct_computed :
    ((ofNat 0).mul (tenPow 0)).isFinite = true ∧
      ∀ negative, ∀ k < 4, (signed negative (infinityBits - 1 - k)).hasFiniteProduct = true := by
  decide +kernel

theorem eq_signed_of_fields {field fraction : Nat} (hfield : x.exponentField = field)
    (hfraction : x.fraction = fraction) : x = signed x.negative (field * 2 ^ 52 + fraction) := by
  have hbits : x.bits.toNat < 2 ^ 64 := x.bits.toNat_lt
  have h11 : Nat.pow 2 11 = 2 ^ 11 := rfl
  have h52 : Nat.pow 2 52 = 2 ^ 52 := rfl
  have h63 : Nat.pow 2 63 = 2 ^ 63 := rfl
  rw [exponentField, h11, h52] at hfield
  rw [Binary64.fraction, h52] at hfraction
  have hsmall : field * 2 ^ 52 + fraction < 2 ^ 63 := by omega
  have hsame : (signed x.negative (field * 2 ^ 52 + fraction)).bits.toNat = x.bits.toNat := by
    rw [toNat_signed _ hsmall, negative, h63]
    by_cases hneg : 2 ^ 63 ≤ x.bits.toNat
    · rw [if_pos (decide_eq_true hneg)]
      omega
    · rw [if_neg (by simpa using hneg)]
      omega
  cases x
  exact congrArg Binary64.mk (UInt64.toNat_inj.mp hsame.symm)

/-- A number whose upper border leaves the safe range is one of the four greatest. -/
theorem greatest_of_productLimit_lt (h : x.isFinite = true)
    (hborder : 4 * productLimit < x.quarters + x.gapAbove) :
    ∃ k < 4, x = signed x.negative (infinityBits - 1 - k) := by
  have hsignificand := significand_lt x
  have hscale := scale_le h
  have hinfinity : infinityBits = 2047 * 2 ^ 52 := rfl
  rw [productLimit, quarters, gapAbove, units] at hborder
  have hlast : x.scale = 2045 ∧ 2 ^ 53 - 4 ≤ x.significand := by
    generalize hk : 2044 = k at hborder
    rcases Nat.lt_or_ge k x.scale with hplace | hplace
    · have heq : x.scale = k + 1 := by omega
      have hstep : Nat.pow 2 x.scale = Nat.pow 2 k * 2 := by
        rw [heq]
        rfl
      have hscaled : x.significand * (Nat.pow 2 k * 2) = 2 * x.significand * Nat.pow 2 k := by
        rw [Nat.mul_comm (Nat.pow 2 k), ← Nat.mul_assoc, Nat.mul_comm x.significand]
      have hmul : (4 * (2 ^ 54 - 8)) * Nat.pow 2 k < (8 * x.significand + 4) * Nat.pow 2 k := by
        rw [hstep, hscaled] at hborder
        rw [Nat.add_mul, Nat.mul_assoc 8]
        rw [Nat.mul_assoc 2] at hborder
        omega
      have hless := Nat.lt_of_mul_lt_mul_right hmul
      omega
    · have hpow : Nat.pow 2 x.scale ≤ Nat.pow 2 k := Nat.pow_le_pow_right (by decide) hplace
      have hpos : 0 < Nat.pow 2 k := Nat.pow_pos (by decide)
      have hunits : x.significand * Nat.pow 2 x.scale ≤ (2 ^ 53 - 1) * Nat.pow 2 k :=
        Nat.mul_le_mul (by omega) hpow
      omega
  have hfield : x.exponentField = 2046 := by
    rw [Binary64.scale] at hlast
    omega
  have hfraction : x.fraction < 2 ^ 52 := Nat.mod_lt _ (by decide)
  have hhidden : Nat.pow 2 52 = 2 ^ 52 := rfl
  rw [significand, hfield, if_neg (by decide), hhidden] at hlast
  refine ⟨2 ^ 52 - 1 - x.fraction, by omega, ?_⟩
  have hbits : infinityBits - 1 - (2 ^ 52 - 1 - x.fraction) = 2046 * 2 ^ 52 + x.fraction := by omega
  rw [hbits]
  exact eq_signed_of_fields hfield rfl

theorem hasFiniteProduct_of_isFinite (h : x.isFinite = true)
    (hexponent : 0 ≤ (x.shortest .toEven).exponent) : x.hasFiniteProduct = true := by
  rcases Nat.eq_zero_or_pos (x.shortest .toEven).coefficient with hzero | hpos
  · rw [hasFiniteProduct, shortest_coefficient_eq_zero hzero]
    exact hasFiniteProduct_computed.1
  · rcases Nat.lt_or_ge productLimit ((x.shortest .toEven).coefficient *
        Nat.pow 10 (x.shortest .toEven).exponent.toNat * one) with hlarge | hsafe
    · have hborder := shortest_le .toEven hexponent
      rw [quarterOne, Nat.mul_left_comm] at hborder
      obtain ⟨k, hk, hx⟩ := greatest_of_productLimit_lt h (by omega)
      rw [hx]
      exact hasFiniteProduct_computed.2 _ k hk
    · exact isFinite_mul_tenPow hpos hsafe

end MeshTelemetry.Binary64
