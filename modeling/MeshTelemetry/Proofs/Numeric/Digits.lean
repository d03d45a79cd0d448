import MeshTelemetry.Proofs.Numeric.Borders

/-! Seventeen digits suffice. The grid of seventeen digits is finer than the distance of
a number's borders, so a point of it lies between them. The shortest decimal of a number
is such a point, and its exact value rounds to the number. -/

set_option autoImplicit false

namespace MeshTelemetry.Binary64

variable {x : Binary64}

/-! The lower end of a decade -/

theorem pow_length_le {n : Nat} (hn : 0 < n) : 10 ^ ((Nat.toDigits 10 n).length - 1) ≤ n := by
  rcases Nat.eq_zero_or_pos ((Nat.toDigits 10 n).length - 1) with hone | hmore
  · rw [hone]
    exact hn
  · apply Nat.le_of_not_lt
    intro hlt
    have hshort := (Nat.length_toDigits_le_iff (by decide) hmore).mpr hlt
    omega

/-- At least `10 ^ (p - 1)`, said without fractions. -/
theorem pointPlace_le_units (h : x.isZero = false) :
    10 ^ (x.pointPlace - 1).toNat * one ≤ x.units * 10 ^ (1 - x.pointPlace).toNat := by
  have hpos := units_pos h
  unfold pointPlace
  split
  · rename_i hlarge
    have hpower := pow_length_le (Nat.div_pos hlarge one_pos)
    have hplace : ((Nat.toDigits 10 (x.units / one)).length - 1 : Int).toNat =
        (Nat.toDigits 10 (x.units / one)).length - 1 := by omega
    have hnone : (1 - ((Nat.toDigits 10 (x.units / one)).length : Int)).toNat = 0 := by
      have hlength : 0 < (Nat.toDigits 10 (x.units / one)).length := Nat.length_toDigits_pos
      omega
    rw [hplace, hnone, Nat.pow_zero, Nat.mul_one]
    exact (Nat.le_div_iff_mul_le one_pos).mp hpower
  · have hlt : (one - 1) / x.units < 10 ^ (Nat.toDigits 10 ((one - 1) / x.units)).length :=
      (Nat.length_toDigits_le_iff (by decide) Nat.length_toDigits_pos).mp (Nat.le_refl _)
    have hmul := (Nat.div_lt_iff_lt_mul hpos).mp hlt
    generalize (Nat.toDigits 10 ((one - 1) / x.units)).length = length at hmul ⊢
    have hplace : (1 - (length : Int) - 1).toNat = 0 := by omega
    have hlength : (1 - (1 - (length : Int))).toNat = length := by omega
    rw [hplace, hlength, Nat.pow_zero, Nat.one_mul, Nat.mul_comm x.units]
    omega

/-! Seventeen digits -/

theorem gridStep_le_quarters (h : x.isZero = false) (n : Nat) :
    10 ^ n * (Nat.pow 10 (x.gridExponent (n + 1)).toNat * quarterOne) ≤
      x.quarters * Nat.pow 10 (-x.gridExponent (n + 1)).toNat := by
  have hplace := pointPlace_le_units h
  have hpowers : n + (x.gridExponent (n + 1)).toNat + (1 - x.pointPlace).toNat =
      (x.pointPlace - 1).toNat + (-x.gridExponent (n + 1)).toNat := by
    rw [gridExponent]
    omega
  generalize (x.gridExponent (n + 1)).toNat = u at hpowers ⊢
  generalize (-x.gridExponent (n + 1)).toNat = v at hpowers ⊢
  generalize (x.pointPlace - 1).toNat = a at hpowers hplace
  generalize (1 - x.pointPlace).toNat = b at hpowers hplace
  have hregroup : ∀ p q unit : Nat, p * q * (4 * unit) = 4 * (p * unit) * q := by
    intro p q unit
    ac_rfl
  have hten : 0 < 10 ^ b := Nat.pow_pos (by decide)
  apply Nat.le_of_mul_le_mul_right (c := 10 ^ b) _ hten
  calc 10 ^ n * (10 ^ u * quarterOne) * 10 ^ b
      = 10 ^ (n + u + b) * quarterOne := by
        rw [← Nat.mul_assoc, ← Nat.pow_add, Nat.mul_right_comm, ← Nat.pow_add]
    _ = 4 * (10 ^ a * one) * 10 ^ v := by
        rw [hpowers, Nat.pow_add, quarterOne]
        exact hregroup ..
    _ ≤ 4 * (x.units * 10 ^ b) * 10 ^ v :=
        Nat.mul_le_mul_right _ (Nat.mul_le_mul_left 4 hplace)
    _ = x.quarters * 10 ^ v * 10 ^ b := by
        rw [quarters, ← Nat.mul_assoc, Nat.mul_right_comm]

/-- The distance of the borders is more than one part in 10^16. -/
theorem quarters_lt_gaps (x : Binary64) : x.quarters < 10 ^ 16 * (x.gapBelow + x.gapAbove) := by
  have hpos : 0 < 2 ^ x.scale := Nat.two_pow_pos _
  have habove : x.gapAbove = 2 * 2 ^ x.scale := rfl
  have hquarters : x.quarters = 4 * (x.significand * 2 ^ x.scale) := rfl
  rw [habove, hquarters, gapBelow_eq]
  split
  · rename_i hleast
    rw [hleast.1]
    omega
  · have hmul : x.significand * 2 ^ x.scale < 2 ^ 53 * 2 ^ x.scale :=
      Nat.mul_lt_mul_of_pos_right (significand_lt x) hpos
    omega

theorem gapAbove_pos (x : Binary64) : 0 < x.gapAbove :=
  Nat.mul_pos (by decide) (Nat.two_pow_pos x.scale)

theorem gapBelow_pos (x : Binary64) : 0 < x.gapBelow := by
  have hpos : 0 < 2 ^ x.scale := Nat.two_pow_pos x.scale
  rw [gapBelow_eq]
  split <;> omega

theorem roundsHere_of_lt {num den : Nat} (h : x.isZero = false)
    (hlow : x.quarters * den < num + x.gapBelow * den)
    (hhigh : num < x.quarters * den + x.gapAbove * den) : x.roundsHere num den = true := by
  have hgap : x.gapBelow * den ≤ x.quarters * den :=
    Nat.mul_le_mul_right den (Nat.le_of_lt (gapBelow_lt_quarters h))
  unfold roundsHere
  simp only [Nat.sub_mul, Nat.add_mul]
  split <;> rw [decide_eq_true_eq] <;> omega

theorem readsBack_seventeen (h : x.isZero = false) :
    x.readsBack 17 (x.gridFloor 17) = true ∨ x.readsBack 17 (x.gridFloor 17 + 1) = true := by
  have hfine := gridStep_le_quarters h 16
  have hwide := quarters_lt_gaps x
  rw [readsBack, readsBack, gridFloor]
  have hden : 0 < Nat.pow 10 (-x.gridExponent 17).toNat := Nat.pow_pos (by decide)
  have hstep : 0 < Nat.pow 10 (x.gridExponent 17).toNat * quarterOne :=
    Nat.mul_pos (Nat.pow_pos (by decide)) quarterOne_pos
  generalize Nat.pow 10 (-x.gridExponent 17).toNat = den at hfine hden ⊢
  generalize Nat.pow 10 (x.gridExponent 17).toNat * quarterOne = step at hfine hstep ⊢
  have hfloor : x.quarters * den / step * step ≤ x.quarters * den := Nat.div_mul_le_self ..
  have hnext := Nat.lt_mul_div_succ (x.quarters * den) hstep
  rw [Nat.mul_comm step, Nat.add_mul, Nat.one_mul] at hnext
  have hwidth : x.quarters * den < 10 ^ 16 * (x.gapBelow * den + x.gapAbove * den) := by
    rw [← Nat.add_mul, ← Nat.mul_assoc]
    exact Nat.mul_lt_mul_of_pos_right hwide hden
  have habove : 0 < x.gapAbove * den := Nat.mul_pos (gapAbove_pos x) hden
  rcases Nat.lt_or_ge (x.quarters * den) (x.quarters * den / step * step + x.gapBelow * den) with
    hnear | hfar
  · exact .inl (roundsHere_of_lt h hnear (by omega))
  · refine .inr (roundsHere_of_lt h ?_ ?_) <;> rw [Nat.add_mul, Nat.one_mul] <;> omega

theorem isSome_ofDigits? (tie : TieRule) {n : Nat}
    (h : x.readsBack n (x.gridFloor n) = true ∨ x.readsBack n (x.gridFloor n + 1) = true) :
    (x.ofDigits? tie n).isSome = true := by
  obtain ⟨above, heq⟩ := ofDigits?_eq tie x n
  rw [heq]
  rcases h with hfloor | habove
  · rw [hfloor]
    cases x.readsBack n (x.gridFloor n + 1) <;> rfl
  · rw [habove]
    cases x.readsBack n (x.gridFloor n) <;> rfl

/-! The shortest decimal -/

/-- The search for the shortest decimal ends on the first grid that has a point between the
borders. -/
theorem ofDigits?_shortest (tie : TieRule) (h : x.isZero = false) {k : Nat} (hk : k < 17)
    (hback : x.readsBack (k + 1) (x.gridFloor (k + 1)) = true ∨
      x.readsBack (k + 1) (x.gridFloor (k + 1) + 1) = true) :
    ∃ n ≤ k, x.ofDigits? tie (n + 1) = some (x.shortest tie) := by
  have hsome := isSome_ofDigits? tie hback
  have hrange : k ∈ List.range 17 := List.mem_range.mpr hk
  unfold shortest
  rw [h, if_neg (by decide)]
  cases hfound : (List.range 17).findSome? fun n => x.ofDigits? tie (n + 1) with
  | none =>
    rw [List.findSome?_eq_none_iff.mp hfound k hrange] at hsome
    cases hsome
  | some d =>
    obtain ⟨before, n, after, hsplit, hd, hnone⟩ := List.findSome?_eq_some_iff.mp hfound
    refine ⟨n, ?_, hd⟩
    have hsorted : (before ++ n :: after).Pairwise (· < ·) := hsplit ▸ List.pairwise_lt_range
    rw [hsplit, List.mem_append, List.mem_cons] at hrange
    rcases hrange with hbefore | rfl | hafter
    · rw [hnone k hbefore] at hsome
      cases hsome
    · exact Nat.le_refl k
    · have hlater := (List.pairwise_cons.mp (List.pairwise_append.mp hsorted).2.1).1
      exact Nat.le_of_lt (hlater k hafter)

theorem gridPoint_value (x : Binary64) (n c : Nat) :
    (x.gridPoint n c).coefficient * 10 ^ (x.gridPoint n c).exponent.toNat *
        10 ^ (-x.gridExponent n).toNat =
      c * 10 ^ (x.gridExponent n).toNat * 10 ^ (-(x.gridPoint n c).exponent).toNat := by
  unfold gridPoint
  split
  · rename_i hcarry
    have hpowers : (x.gridExponent n + n).toNat + (-x.gridExponent n).toNat =
        n + (x.gridExponent n).toNat + (-(x.gridExponent n + n)).toNat := by omega
    rw [hcarry, Nat.one_mul]
    calc 10 ^ (x.gridExponent n + n).toNat * 10 ^ (-x.gridExponent n).toNat
        = 10 ^ (n + (x.gridExponent n).toNat + (-(x.gridExponent n + n)).toNat) := by
          rw [← Nat.pow_add, hpowers]
      _ = 10 ^ n * 10 ^ (x.gridExponent n).toNat * 10 ^ (-(x.gridExponent n + n)).toNat := by
          rw [Nat.pow_add, Nat.pow_add]
  · rfl

theorem nearest_shortest (tie : TieRule) (negative : Bool) (h : x.isFinite = true) :
    nearest negative
      ((x.shortest tie).coefficient * 10 ^ (x.shortest tie).exponent.toNat * one)
      (10 ^ (-(x.shortest tie).exponent).toNat) = signed negative x.magnitudeBits := by
  cases hzero : x.isZero with
  | true =>
    have hfields := hzero
    rw [isZero, decide_eq_true_eq] at hfields
    rw [shortest_of_isZero tie hzero, magnitudeBits_eq_fields, hfields.1, hfields.2, Nat.zero_mul,
      Nat.zero_mul]
    rfl
  | false =>
    obtain ⟨n, _, hn⟩ := ofDigits?_shortest tie hzero (by decide) (readsBack_seventeen hzero)
    obtain ⟨c, _, hpoint, hback⟩ := ofDigits?_spec hn
    have hten : ∀ k, 0 < 10 ^ k := fun k => Nat.pow_pos (by decide)
    rw [← nearest_of_roundsHere negative h (hten _) hback, hpoint]
    apply nearest_congr negative (hten _) (Nat.mul_pos (by decide) (hten _))
    have hvalue := gridPoint_value x (n + 1) c
    generalize x.gridPoint (n + 1) c = d at hvalue ⊢
    calc d.coefficient * 10 ^ d.exponent.toNat * one * (4 * 10 ^ (-x.gridExponent (n + 1)).toNat)
        = d.coefficient * 10 ^ d.exponent.toNat * 10 ^ (-x.gridExponent (n + 1)).toNat *
            (4 * one) := by rw [Nat.mul_mul_mul_comm, Nat.mul_comm one, Nat.mul_mul_mul_comm]
      _ = c * 10 ^ (x.gridExponent (n + 1)).toNat * 10 ^ (-d.exponent).toNat * quarterOne := by
        rw [hvalue, quarterOne]
      _ = c * (10 ^ (x.gridExponent (n + 1)).toNat * quarterOne) * 10 ^ (-d.exponent).toNat := by
        rw [Nat.mul_right_comm, Nat.mul_assoc c]

/-! Shorter decimals -/

theorem roundsHere_between {a b num den : Nat} (ha : x.roundsHere a den = true)
    (hb : x.roundsHere b den = true) (hle : a ≤ num) (hge : num ≤ b) :
    x.roundsHere num den = true := by
  unfold roundsHere at ha hb ⊢
  by_cases heven : x.significand % 2 = 0
  · simp only [heven, if_true, decide_eq_true_eq] at ha hb ⊢
    omega
  · simp only [heven, if_false, decide_eq_true_eq] at ha hb ⊢
    omega

/-- If a grid has a point between the borders, a neighbour of the number is one. -/
theorem readsBack_neighbour (h : x.isZero = false) {n c : Nat} (hc : x.readsBack n c = true) :
    x.readsBack n (x.gridFloor n) = true ∨ x.readsBack n (x.gridFloor n + 1) = true := by
  have hden : 0 < Nat.pow 10 (-x.gridExponent n).toNat := Nat.pow_pos (by decide)
  have hstep : 0 < Nat.pow 10 (x.gridExponent n).toNat * quarterOne :=
    Nat.mul_pos (Nat.pow_pos (by decide)) quarterOne_pos
  rw [readsBack] at hc
  rw [readsBack, readsBack, gridFloor]
  generalize Nat.pow 10 (-x.gridExponent n).toNat = den at hc hden ⊢
  generalize Nat.pow 10 (x.gridExponent n).toNat * quarterOne = step at hc hstep ⊢
  have hself : x.roundsHere (x.quarters * den) den = true := by
    have hbelow := Nat.mul_pos (gapBelow_pos x) hden
    have habove := Nat.mul_pos (gapAbove_pos x) hden
    exact roundsHere_of_lt h (by omega) (by omega)
  rcases Nat.lt_or_ge (x.quarters * den / step) c with habove | hbelow
  · have hnext := Nat.lt_mul_div_succ (x.quarters * den) hstep
    rw [Nat.mul_comm step] at hnext
    exact .inr (roundsHere_between hself hc (Nat.le_of_lt hnext) (Nat.mul_le_mul_right step habove))
  · exact .inl (roundsHere_between hc hself (Nat.mul_le_mul_right step hbelow)
      (Nat.div_mul_le_self ..))

/-- A decimal that rounds to a number gives a point of each grid on which it lies. -/
theorem readsBack_of_nearest {d : Decimal} {n : Nat} (negative : Bool) (hfinite : x.isFinite = true)
    (hgrid : x.gridExponent n ≤ d.exponent)
    (h : nearest negative (d.coefficient * 10 ^ d.exponent.toNat * one) (10 ^ (-d.exponent).toNat) =
      signed negative x.magnitudeBits) : ∃ c, x.readsBack n c = true := by
  have hten : ∀ k, 0 < 10 ^ k := fun k => Nat.pow_pos (by decide)
  refine ⟨d.coefficient * 10 ^ (d.exponent - x.gridExponent n).toNat, ?_⟩
  apply roundsHere_of_nearest negative hfinite (hten _)
  rw [← h]
  apply nearest_congr negative (Nat.mul_pos (by decide) (hten _)) (hten _)
  have hpowers : (d.exponent - x.gridExponent n).toNat + (x.gridExponent n).toNat +
      (-d.exponent).toNat = d.exponent.toNat + (-x.gridExponent n).toNat := by omega
  have hregroup : ∀ c p q unit : Nat, c * (p * q) * (4 * unit) = c * p * unit * (4 * q) := by
    intro c p q unit
    ac_rfl
  generalize (d.exponent - x.gridExponent n).toNat = a at hpowers ⊢
  generalize (x.gridExponent n).toNat = u at hpowers ⊢
  generalize (-x.gridExponent n).toNat = v at hpowers ⊢
  calc d.coefficient * 10 ^ a * (10 ^ u * quarterOne) * 10 ^ (-d.exponent).toNat
      = d.coefficient * 10 ^ (a + u + (-d.exponent).toNat) * quarterOne := by
        rw [Nat.pow_add, Nat.pow_add, ← Nat.mul_assoc, Nat.mul_right_comm, ← Nat.mul_assoc,
          ← Nat.mul_assoc]
    _ = d.coefficient * (10 ^ d.exponent.toNat * 10 ^ v) * (4 * one) := by
        rw [hpowers, Nat.pow_add, quarterOne]
    _ = d.coefficient * 10 ^ d.exponent.toNat * one * (4 * 10 ^ v) := hregroup ..

/-- The shortest decimal has no more digits than a decimal that rounds to the number. -/
theorem shortest_eq_gridPoint (tie : TieRule) {d : Decimal} {k : Nat} (negative : Bool)
    (hfinite : x.isFinite = true) (h : x.isZero = false) (hk : k < 17)
    (hgrid : x.gridExponent (k + 1) ≤ d.exponent)
    (hd : nearest negative (d.coefficient * 10 ^ d.exponent.toNat * one)
      (10 ^ (-d.exponent).toNat) = signed negative x.magnitudeBits) :
    ∃ n c, n ≤ k + 1 ∧ c ≤ Nat.pow 10 n ∧ x.shortest tie = x.gridPoint n c := by
  obtain ⟨c, hc⟩ := readsBack_of_nearest negative hfinite hgrid hd
  obtain ⟨n, hn, hshortest⟩ := ofDigits?_shortest tie h hk (readsBack_neighbour h hc)
  obtain ⟨c', hc', hpoint, _⟩ := ofDigits?_spec hshortest
  have hfloor := gridFloor_lt h (n + 1)
  exact ⟨n + 1, c', by omega, by omega, hpoint⟩

end MeshTelemetry.Binary64
