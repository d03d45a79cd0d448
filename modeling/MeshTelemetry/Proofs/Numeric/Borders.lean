import MeshTelemetry.Proofs.Numeric.Shortest

/-! The borders of a number. Rounding depends on the value of a quotient only, and every
quotient between the borders of a number rounds to that number: under a power of two the
last place is one lower, and the significand carries. -/

set_option autoImplicit false

namespace MeshTelemetry.Binary64

/-! Magnitude bits -/

def magnitudeBits (x : Binary64) : Nat := x.scale * 2 ^ 52 + x.significand

theorem significand_eq (x : Binary64) :
    x.significand = if x.exponentField = 0 then x.fraction else x.fraction + 2 ^ 52 := rfl

theorem magnitudeBits_eq_fields (x : Binary64) :
    x.magnitudeBits = x.exponentField * 2 ^ 52 + x.fraction := by
  rw [magnitudeBits, significand_eq, Binary64.scale]
  split <;> omega

theorem eq_signed (x : Binary64) : x = signed x.negative x.magnitudeBits := by
  rw [magnitudeBits_eq_fields]
  exact eq_signed_of_fields rfl rfl

theorem magnitudeBits_lt {x : Binary64} (h : x.isFinite = true) : x.magnitudeBits < infinityBits := by
  have hfraction : x.fraction < 2 ^ 52 := Nat.mod_lt _ (by decide)
  have hinfinity : infinityBits = 2047 * 2 ^ 52 := rfl
  rw [isFinite, decide_eq_true_eq] at h
  rw [magnitudeBits_eq_fields]
  omega

theorem signed_injective (negative : Bool) {m m' : Nat} (hm : m < 2 ^ 63) (hm' : m' < 2 ^ 63)
    (h : signed negative m = signed negative m') : m = m' := by
  have hbits := congrArg (fun x => x.bits.toNat) h
  simp only [toNat_signed negative hm, toNat_signed negative hm'] at hbits
  split at hbits <;> omega

/-- Below 2^52 a significand stands at the least place. -/
theorem normal_significand (x : Binary64) : 2 ^ 52 ≤ x.significand ∨ x.scale = 0 := by
  rw [significand_eq, Binary64.scale]
  split <;> omega

/-! Rounding a value -/

section Values

variable {num den : Nat}

theorem roundQuotient_eq {m : Nat} (hden : 0 < den) (hlow : 2 * (m * den) ≤ 2 * num + den)
    (hhigh : 2 * num ≤ 2 * (m * den) + den)
    (tie : m % 2 = 1 → 2 * (m * den) ≠ 2 * num + den ∧ 2 * num ≠ 2 * (m * den) + den) :
    roundQuotient num den = m := by
  have hdiv := Nat.div_add_mod num den
  have hmod := Nat.mod_lt num hden
  rw [Nat.mul_comm] at hdiv
  have habove : num / den ≤ m := by
    apply Nat.le_of_lt_succ
    apply Nat.lt_of_not_le
    intro hle
    have hmul := Nat.mul_le_mul_right den hle
    rw [Nat.succ_mul] at hmul
    omega
  have hbelow : m ≤ num / den + 1 := by
    apply Nat.le_of_lt_succ
    apply Nat.lt_of_not_le
    intro hle
    have hmul := Nat.mul_le_mul_right den hle
    rw [Nat.succ_mul, Nat.add_mul, Nat.one_mul] at hmul
    omega
  unfold roundQuotient
  simp only
  rcases Nat.eq_or_lt_of_le habove with hsame | hless
  · rw [hsame] at hdiv ⊢
    rw [if_neg]
    omega
  · have hnext : m = num / den + 1 := by omega
    rw [hnext, Nat.add_mul, Nat.one_mul] at hlow hhigh tie
    rw [if_pos, hnext]
    omega

theorem even_roundQuotient (num : Nat) (hden : 0 < den)
    (tie : 2 * num = 2 * (roundQuotient num den * den) + den ∨
      2 * (roundQuotient num den * den) = 2 * num + den) : roundQuotient num den % 2 = 0 := by
  have hdiv := Nat.div_add_mod num den
  have hmod := Nat.mod_lt num hden
  rw [Nat.mul_comm] at hdiv
  unfold roundQuotient at tie ⊢
  simp only at tie ⊢
  split at tie
  · rename_i hup
    rw [Nat.add_mul, Nat.one_mul] at tie
    rw [if_pos hup]
    omega
  · rename_i hdown
    rw [if_neg hdown]
    omega

theorem roundQuotient_mul_left {k : Nat} (hk : 0 < k) (num den : Nat) :
    roundQuotient (k * num) (k * den) = roundQuotient num den := by
  unfold roundQuotient
  simp only [Nat.mul_div_mul_left num den hk, Nat.mul_mod_mul_left]
  have htwice : 2 * (k * (num % den)) = k * (2 * (num % den)) := Nat.mul_left_comm ..
  simp only [htwice, Nat.mul_lt_mul_left hk, Nat.mul_right_inj (Nat.ne_of_gt hk)]

theorem nearest_mul_left {k : Nat} (hk : 0 < k) (negative : Bool) (num den : Nat) :
    nearest negative (k * num) (k * den) = nearest negative num den := by
  have hplace : placeOf (k * num) (k * den) = placeOf num den := by
    rw [placeOf, Nat.mul_div_mul_left num den hk, placeOf]
  rw [nearest_eq, nearest_eq, significandOf, significandOf, hplace, Nat.mul_assoc,
    roundQuotient_mul_left hk]

theorem nearest_congr (negative : Bool) {num' den' : Nat} (hden : 0 < den) (hden' : 0 < den')
    (h : num * den' = num' * den) : nearest negative num den = nearest negative num' den' := by
  rw [← nearest_mul_left hden', ← nearest_mul_left hden negative num', Nat.mul_comm den' num, h,
    Nat.mul_comm num', Nat.mul_comm den']

theorem placeOf_eq {p : Nat} (hden : 0 < den) (hlt : num < 2 ^ 53 * (den * 2 ^ p))
    (hle : 2 ^ 52 * (den * 2 ^ p) ≤ num ∨ p = 0) : placeOf num den = p := by
  have hstep : ∀ q, den * 2 ^ (q + 1) = den * 2 ^ q * 2 := fun q => by
    rw [Nat.pow_succ, Nat.mul_assoc]
  have hmono : ∀ {q q' : Nat}, q ≤ q' → den * 2 ^ q ≤ den * 2 ^ q' := fun h =>
    Nat.mul_le_mul_left den (Nat.pow_le_pow_right (by decide) h)
  apply Nat.le_antisymm
  · apply Nat.le_of_not_lt
    intro hlarge
    have hplace := placeOf_le hden (Nat.lt_of_le_of_lt (Nat.zero_le p) hlarge)
    have hnext := hmono (Nat.succ_le_of_lt hlarge)
    rw [hstep] at hnext
    omega
  · apply Nat.le_of_not_lt
    intro hsmall
    have hplace := lt_placeOf num hden
    have hnext := hmono (Nat.succ_le_of_lt hsmall)
    rw [hstep] at hnext
    rcases hle with hle | hzero
    · omega
    · omega

end Values

/-! Between the borders -/

variable {x : Binary64} {num den : Nat}

theorem gapBelow_eq (x : Binary64) :
    x.gapBelow = if x.significand = 2 ^ 52 ∧ 0 < x.scale then 2 ^ x.scale else 2 * 2 ^ x.scale := by
  have hscale : x.scale = x.exponentField - 1 := rfl
  have hpower : x.fraction = 0 ∧ 0 < x.scale ↔ x.significand = 2 ^ 52 ∧ 0 < x.scale := by
    rw [significand_eq]
    split <;> omega
  rw [gapBelow]
  simp only [hpower]
  rfl

/-- The borders in quarters of the last place, with no difference that is cut off at zero. -/
theorem roundsHere_iff {unit : Nat} (hunit : unit = den * 2 ^ x.scale) :
    x.roundsHere num den = true ↔
      4 * (x.significand * unit) ≤
        num + (if x.significand = 2 ^ 52 ∧ 0 < x.scale then unit else 2 * unit) ∧
      num ≤ 4 * (x.significand * unit) + 2 * unit ∧
      (x.significand % 2 = 1 →
        4 * (x.significand * unit) ≠ num + 2 * unit ∧ num ≠ 4 * (x.significand * unit) + 2 * unit) := by
  have hscaled : ∀ k, k * 2 ^ x.scale * den = k * unit := fun k => by
    rw [hunit, Nat.mul_assoc, Nat.mul_comm den]
  have hquarters : x.quarters * den = 4 * (x.significand * unit) := by
    rw [quarters, units, ← hscaled, Nat.mul_assoc]
    rfl
  have habove : x.gapAbove * den = 2 * unit := hscaled 2
  have hbelow : x.gapBelow * den =
      if x.significand = 2 ^ 52 ∧ 0 < x.scale then unit else 2 * unit := by
    rw [gapBelow_eq]
    split
    · rw [Nat.mul_comm, hunit]
    · exact hscaled 2
  have hodd : x.significand % 2 = 1 → unit ≤ x.significand * unit := fun hodd =>
    Nat.le_mul_of_pos_left unit (by omega)
  unfold roundsHere
  simp only [Nat.sub_mul, Nat.add_mul, hquarters, habove, hbelow]
  split <;> simp only [decide_eq_true_eq] <;> split <;> omega

/-- What lies between the borders of a number has its place, or lies under the power of two
that the number is and has the place below. -/
theorem placeOf_of_roundsHere (hden : 0 < den) (h : x.roundsHere num den = true) :
    placeOf num (4 * den) = x.scale ∧ significandOf num (4 * den) = x.significand ∨
      x.significand = 2 ^ 52 ∧ placeOf num (4 * den) + 1 = x.scale ∧
        significandOf num (4 * den) = 2 ^ 53 := by
  have hsignificand := significand_lt x
  have hnormal := normal_significand x
  obtain ⟨unit, hunit⟩ : ∃ unit, unit = den * 2 ^ x.scale := ⟨_, rfl⟩
  obtain ⟨hlow, hhigh, hodd⟩ := (roundsHere_iff hunit).mp h
  have hpos : 0 < unit := hunit ▸ Nat.mul_pos hden (Nat.two_pow_pos _)
  have hmul : x.significand * unit ≤ (2 ^ 53 - 1) * unit := Nat.mul_le_mul_right _ (by omega)
  have hfour : 0 < 4 * den := by omega
  rcases Classical.em (2 ^ 54 * unit ≤ num ∨ x.scale = 0) with hinside | houtside
  · have hplace : placeOf num (4 * den) = x.scale := by
      apply placeOf_eq hfour <;> rw [Nat.mul_assoc 4, ← hunit]
      · omega
      · exact hinside.imp_left fun _ => by omega
    refine .inl ⟨hplace, ?_⟩
    rw [significandOf, hplace, Nat.mul_assoc, ← hunit]
    have hcomm : x.significand * (4 * unit) = 4 * (x.significand * unit) := Nat.mul_left_comm ..
    split at hlow <;> apply roundQuotient_eq <;> omega
  · have hleast : x.significand = 2 ^ 52 := by
      apply Nat.le_antisymm _ (by omega)
      apply Nat.le_of_not_lt
      intro hlarge
      have hnext : (2 ^ 52 + 1) * unit ≤ x.significand * unit := Nat.mul_le_mul_right _ hlarge
      split at hlow <;> omega
    obtain ⟨p, hp⟩ : ∃ p, x.scale = p + 1 := Nat.exists_eq_succ_of_ne_zero (by omega)
    rw [if_pos ⟨hleast, by omega⟩, hleast] at hlow
    have hhalf : unit = 2 * (den * 2 ^ p) := by
      rw [hunit, hp, Nat.pow_succ, ← Nat.mul_assoc, Nat.mul_comm 2]
    have hplace : placeOf num (4 * den) = p := by
      apply placeOf_eq hfour <;> rw [Nat.mul_assoc 4] <;> omega
    refine .inr ⟨hleast, by rw [hplace, hp], ?_⟩
    rw [significandOf, hplace, Nat.mul_assoc]
    apply roundQuotient_eq <;> omega

theorem nearest_of_roundsHere (negative : Bool) (hfinite : x.isFinite = true) (hden : 0 < den)
    (h : x.roundsHere num den = true) :
    nearest negative num (4 * den) = signed negative x.magnitudeBits := by
  have hbits : placeOf num (4 * den) * 2 ^ 52 + significandOf num (4 * den) = x.magnitudeBits := by
    rw [magnitudeBits]
    rcases placeOf_of_roundsHere hden h with ⟨hplace, hsignificand⟩ | ⟨hleast, hplace, hcarry⟩
    · rw [hplace, hsignificand]
    · rw [hleast, ← hplace, hcarry]
      omega
  rw [nearest_eq, hbits, Nat.min_eq_left (Nat.le_of_lt (magnitudeBits_lt hfinite))]

/-- What rounds to a number has its place, or the place below. -/
theorem placeOf_of_nearest (negative : Bool) (hfinite : x.isFinite = true) (hden : 0 < den)
    (h : nearest negative num den = signed negative x.magnitudeBits) :
    placeOf num den = x.scale ∧ significandOf num den = x.significand ∨
      x.significand = 2 ^ 52 ∧ placeOf num den + 1 = x.scale ∧ significandOf num den = 2 ^ 53 := by
  have hbits := magnitudeBits_lt hfinite
  have hinfinity : infinityBits = 2047 * 2 ^ 52 := rfl
  have hsignificand := significand_lt x
  have hnormal := normal_significand x
  have hle : significandOf num den ≤ 2 ^ 53 := significandOf_le hden
  have hnormal' : 2 ^ 52 ≤ significandOf num den ∨ placeOf num den = 0 := normal_significandOf hden
  rw [nearest_eq] at h
  have hmin := signed_injective negative (by omega) (by omega) h
  rw [magnitudeBits] at hmin hbits
  omega

theorem roundsHere_of_nearest (negative : Bool) (hfinite : x.isFinite = true) (hden : 0 < den)
    (h : nearest negative num (4 * den) = signed negative x.magnitudeBits) :
    x.roundsHere num den = true := by
  have hfour : 0 < 4 * den := by omega
  obtain ⟨unit, hunit⟩ : ∃ unit, unit = den * 2 ^ x.scale := ⟨_, rfl⟩
  rw [roundsHere_iff hunit]
  rcases placeOf_of_nearest negative hfinite hfour h with
    ⟨hplace, hsignificand⟩ | ⟨hleast, hplace, hcarry⟩
  · have hpos : 0 < 4 * den * 2 ^ x.scale := Nat.mul_pos hfour (Nat.two_pow_pos _)
    rw [significandOf, hplace] at hsignificand
    obtain ⟨hbelow, habove⟩ := roundQuotient_spec num hpos
    have htie := even_roundQuotient num hpos
    have hle : 0 < placeOf num (4 * den) → 2 ^ 52 * (4 * den * 2 ^ placeOf num (4 * den)) ≤ num :=
      placeOf_le hfour
    rw [hplace] at hle
    rw [hsignificand] at hbelow habove htie
    have hcomm : x.significand * (4 * unit) = 4 * (x.significand * unit) := Nat.mul_left_comm ..
    rw [Nat.mul_assoc, ← hunit] at hbelow habove htie hle
    rw [hcomm] at hbelow habove htie
    refine ⟨?_, by omega, by omega⟩
    split
    · rename_i hleast
      have hnum := hle hleast.2
      rw [hleast.1]
      omega
    · omega
  · have hpos : 0 < 4 * den * 2 ^ placeOf num (4 * den) := Nat.mul_pos hfour (Nat.two_pow_pos _)
    have hhalf : unit = 2 * (den * 2 ^ placeOf num (4 * den)) := by
      rw [hunit, ← hplace, Nat.pow_succ, ← Nat.mul_assoc, Nat.mul_comm 2]
    rw [significandOf] at hcarry
    obtain ⟨hbelow, habove⟩ := roundQuotient_spec num hpos
    rw [hcarry, Nat.mul_assoc] at hbelow habove
    rw [hleast, if_pos ⟨rfl, by omega⟩]
    omega

end MeshTelemetry.Binary64
