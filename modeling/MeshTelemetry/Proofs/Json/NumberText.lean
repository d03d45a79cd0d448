import MeshTelemetry.Json.Printer
import MeshTelemetry.Proofs.Json.Numerals
import MeshTelemetry.Proofs.Numeric.Shortest

/-! The text of a number is a numeral with a sign. Integers are bare digits; a decimal
has a point, an exponent part, or both, and the significand and the power of ten that
are read from it are its own, up to zeros at the end of a whole number. -/

set_option autoImplicit false

namespace MeshTelemetry.Json

open Text (Symbol)

/-! Values of digits -/

namespace Numeral

theorem absorb_digitValues {ds : List Char} {s : Nat}
    (h : Nat.ofDigitChars 10 ds s < significandLimit) :
    absorb s (digitValues ds) = (Nat.ofDigitChars 10 ds s, []) := by
  induction ds generalizing s with
  | nil => rw [digitValues, List.map_nil, absorb, Nat.ofDigitChars_nil]
  | cons d ds ih =>
    rw [Nat.ofDigitChars_cons] at h ⊢
    have hstep : s * 10 + (d.toNat - 48) = 10 * s + (d.toNat - '0'.toNat) := by
      rw [Nat.mul_comm]
      rfl
    have hle := le_ofDigitChars ds (10 * s + (d.toNat - '0'.toNat))
    rw [digitValues, List.map_cons, absorb, hstep, if_pos (Nat.lt_of_le_of_lt hle h)]
    exact ih h

theorem exponentValue_digitValues (ds : List Char) :
    exponentValue (digitValues ds) = min (Nat.ofDigitChars 10 ds 0) (exponentLimit + 1) := by
  have hall : ∀ s, (digitValues ds).foldl (fun n d => min (n * 10 + d) (exponentLimit + 1))
      (min s (exponentLimit + 1)) = min (Nat.ofDigitChars 10 ds s) (exponentLimit + 1) := by
    induction ds with
    | nil =>
      intro s
      rw [digitValues, List.map_nil, List.foldl_nil, Nat.ofDigitChars_nil]
    | cons d ds ih =>
      intro s
      have hstep : min (min s (exponentLimit + 1) * 10 + (d.toNat - 48)) (exponentLimit + 1) =
          min (10 * s + (d.toNat - '0'.toNat)) (exponentLimit + 1) := by
        have hzero : '0'.toNat = 48 := rfl
        simp only [exponentLimit, hzero]
        omega
      rw [digitValues, List.map_cons, List.foldl_cons, hstep, Nat.ofDigitChars_cons]
      exact ih _
  exact hall 0

end Numeral

/-! Integers -/

namespace Spelling

def ofNat (n : Nat) : Spelling := { whole := Nat.toDigits 10 n }

theorem wellFormed_ofNat (n : Nat) : (ofNat n).WellFormed where
  whole := areDigits_toDigits n
  leading := by
    intro h
    rcases Nat.eq_zero_or_pos n with rfl | hn
    · exact Nat.toDigits_zero 10
    · exact absurd h (head_toDigits hn)
  fraction := by intro ds h; cases h
  exponent := by intro e h; cases h

theorem value?_ofNat {i : Int} (hlow : leastSigned64 ≤ i) (hhigh : i ≤ greatestUnsigned64) :
    ((ofNat i.natAbs).numeral (decide (i < 0))).value? = some (.int i) := by
  have hlimit : Nat.ofDigitChars 10 (Nat.toDigits 10 i.natAbs) 0 < Numeral.significandLimit := by
    rw [Nat.ofDigitChars_ten_toDigits]
    simp only [leastSigned64, greatestUnsigned64, Numeral.significandLimit, UInt64.size] at *
    omega
  have habsorb := Numeral.absorb_digitValues hlimit
  rw [Nat.ofDigitChars_ten_toDigits] at habsorb
  simp only [numeral, ofNat, Numeral.value?, Option.map_none, habsorb, List.isEmpty_nil, Bool.not_true,
    Bool.false_eq_true, if_false, decide_eq_true_eq]
  by_cases hneg : i < 0
  · have hlow' : 0 < i.natAbs ∧ leastSigned64 ≤ -(i.natAbs : Int) := by omega
    rw [if_pos hneg, if_pos hlow']
    congr 2
    omega
  · rw [if_neg hneg]
    congr 2
    omega

end Spelling
end Json

/-! Decimals -/

namespace Decimal

open Json

def point (d : Decimal) : Int := (Nat.toDigits 10 d.coefficient).length + d.exponent

def wholeSpelling (d : Decimal) : Spelling where
  whole := Nat.toDigits 10 d.coefficient ++ List.replicate d.exponent.toNat '0'
  fraction := some ['0']

def mixedSpelling (d : Decimal) : Spelling where
  whole := (Nat.toDigits 10 d.coefficient).take d.point.toNat
  fraction := some ((Nat.toDigits 10 d.coefficient).drop d.point.toNat)

def smallSpelling (d : Decimal) : Spelling where
  whole := ['0']
  fraction := some (List.replicate (-d.point).toNat '0' ++ Nat.toDigits 10 d.coefficient)

def scientificSpelling (d : Decimal) : Spelling where
  whole := (Nat.toDigits 10 d.coefficient).take 1
  fraction :=
    if ((Nat.toDigits 10 d.coefficient).drop 1).isEmpty then none
    else some ((Nat.toDigits 10 d.coefficient).drop 1)
  exponent := some (decide (d.point - 1 < 0), Nat.toDigits 10 (d.point - 1).natAbs)

def spelling (d : Decimal) : Spelling :=
  if -5 ≤ d.point - 1 ∧ d.point - 1 ≤ 15 then
    if 0 ≤ d.exponent then d.wholeSpelling
    else if 0 < d.point then d.mixedSpelling
    else d.smallSpelling
  else d.scientificSpelling

theorem magnitude_json (d : Decimal) : NumberLayout.json.magnitude d = d.spelling.chars := by
  have hpoint : ((Nat.toDigits 10 d.coefficient).length + d.exponent : Int) = d.point := rfl
  unfold NumberLayout.magnitude spelling
  simp only [NumberLayout.json, decide_eq_true_eq, hpoint]
  split
  · unfold NumberLayout.plain
    simp only [hpoint]
    split
    · simp [Spelling.chars, wholeSpelling, Spelling.fractionChars, Spelling.exponentChars]
    · split
      · simp [Spelling.chars, mixedSpelling, Spelling.fractionChars, Spelling.exponentChars]
      · simp [Spelling.chars, smallSpelling, Spelling.fractionChars, Spelling.exponentChars]
  · simp only [NumberLayout.scientific, scientificSpelling, Spelling.chars,
      Spelling.fractionChars, Spelling.exponentChars, decide_eq_true_eq, List.append_assoc]
    congr 1
    split <;> simp

/-- Zero has one form; every other decimal begins with a digit that is not zero. -/
def IsNormal (d : Decimal) : Prop := d.coefficient = 0 → d.exponent = 0

variable {d : Decimal}

theorem head_coefficient (h : d.IsNormal)
    (hhead : (Nat.toDigits 10 d.coefficient).head? = some '0') :
    d.coefficient = 0 ∧ d.exponent = 0 := by
  rcases Nat.eq_zero_or_pos d.coefficient with hzero | hpos
  · exact ⟨hzero, h hzero⟩
  · exact absurd hhead (head_toDigits hpos)

theorem isDigit_of_mem {c : Char} (hc : c ∈ Nat.toDigits 10 d.coefficient) : c.isDigit = true :=
  (areDigits_toDigits _).2 c hc

theorem isDigit_replicate_zero {n : Nat} : ∀ c ∈ List.replicate n '0', c.isDigit = true := by
  intro c hc
  rw [List.eq_of_mem_replicate hc]
  rfl

theorem wellFormed_wholeSpelling (h : d.IsNormal) : d.wholeSpelling.WellFormed where
  whole := by
    refine ⟨List.append_ne_nil_of_left_ne_nil Nat.toDigits_ne_nil _, ?_⟩
    intro c hc
    rcases List.mem_append.mp hc with hc | hc
    · exact isDigit_of_mem hc
    · exact isDigit_replicate_zero c hc
  leading := by
    intro hhead
    rw [wholeSpelling, List.head?_append] at hhead
    rcases Option.or_eq_some_iff.mp hhead with hfirst | ⟨hnil, _⟩
    · obtain ⟨hzero, hexponent⟩ := head_coefficient h hfirst
      rw [wholeSpelling, hzero, hexponent]
      rfl
    · exact absurd (List.head?_eq_none_iff.mp hnil) Nat.toDigits_ne_nil
  fraction := by
    rintro ds ⟨⟩
    refine ⟨List.cons_ne_nil _ _, ?_⟩
    intro c hc
    rw [List.mem_singleton.mp hc]
    rfl
  exponent := by rintro e ⟨⟩

theorem areDigits_take {n : Nat} (hn : 0 < n) :
    AreDigits ((Nat.toDigits 10 d.coefficient).take n) := by
  refine ⟨?_, fun c hc => isDigit_of_mem (List.mem_of_mem_take hc)⟩
  intro hnil
  rcases List.take_eq_nil_iff.mp hnil with hzero | hnil
  · omega
  · exact Nat.toDigits_ne_nil hnil

theorem areDigits_drop {n : Nat} (hn : n < (Nat.toDigits 10 d.coefficient).length) :
    AreDigits ((Nat.toDigits 10 d.coefficient).drop n) := by
  refine ⟨?_, fun c hc => isDigit_of_mem (List.mem_of_mem_drop hc)⟩
  intro hnil
  have hle := List.drop_eq_nil_iff.mp hnil
  omega

theorem head_take {n : Nat} (hn : 0 < n) :
    ((Nat.toDigits 10 d.coefficient).take n).head? = (Nat.toDigits 10 d.coefficient).head? := by
  rw [List.head?_take, if_neg (Nat.pos_iff_ne_zero.mp hn)]

theorem wellFormed_mixedSpelling (h : d.IsNormal) (hexponent : d.exponent < 0)
    (hpoint : 0 < d.point) : d.mixedSpelling.WellFormed where
  whole := areDigits_take (by omega)
  leading := by
    intro hhead
    rw [mixedSpelling, head_take (by omega)] at hhead
    have hzero := (head_coefficient h hhead).2
    omega
  fraction := by
    rintro ds ⟨⟩
    apply areDigits_drop
    simp only [point] at hpoint ⊢
    omega
  exponent := by rintro e ⟨⟩

theorem wellFormed_smallSpelling : d.smallSpelling.WellFormed where
  whole := ⟨List.cons_ne_nil _ _, by simp [smallSpelling]⟩
  leading := fun _ => rfl
  fraction := by
    rintro ds ⟨⟩
    refine ⟨List.append_ne_nil_of_right_ne_nil _ Nat.toDigits_ne_nil, ?_⟩
    intro c hc
    rcases List.mem_append.mp hc with hc | hc
    · exact isDigit_replicate_zero c hc
    · exact isDigit_of_mem hc
  exponent := by rintro e ⟨⟩

theorem wellFormed_scientificSpelling (h : d.IsNormal)
    (hplace : ¬ (-5 ≤ d.point - 1 ∧ d.point - 1 ≤ 15)) : d.scientificSpelling.WellFormed where
  whole := areDigits_take (by omega)
  leading := by
    intro hhead
    rw [scientificSpelling, head_take (by omega)] at hhead
    obtain ⟨hzero, hexponent⟩ := head_coefficient h hhead
    rw [point, hzero, hexponent, Nat.toDigits_zero] at hplace
    exact absurd (by decide) hplace
  fraction := by
    intro ds hds
    simp only [scientificSpelling] at hds
    split at hds
    · cases hds
    · rename_i hrest
      cases hds
      refine ⟨?_, fun c hc => isDigit_of_mem (List.mem_of_mem_drop hc)⟩
      intro hnil
      exact hrest (List.isEmpty_iff.mpr hnil)
  exponent := by
    rintro e ⟨⟩
    exact areDigits_toDigits _

theorem wellFormed_spelling (h : d.IsNormal) : d.spelling.WellFormed := by
  unfold spelling
  split
  · split
    · exact wellFormed_wholeSpelling h
    · split
      · rename_i hexponent hpoint
        exact wellFormed_mixedSpelling h (Int.not_le.mp hexponent) hpoint
      · exact wellFormed_smallSpelling
  · rename_i hplace
    exact wellFormed_scientificSpelling h hplace

/-! What is read from a decimal -/

theorem scaled_numeral {s : Spelling} (negative : Bool)
    (h : Nat.ofDigitChars 10 (s.whole ++ s.fraction.getD []) 0 < Numeral.significandLimit) :
    (s.numeral negative).scaled =
      (Nat.ofDigitChars 10 (s.whole ++ s.fraction.getD []) 0,
        -((s.fraction.getD []).length : Int)) := by
  rw [Nat.ofDigitChars_append] at h ⊢
  have hwhole : Nat.ofDigitChars 10 s.whole 0 < Numeral.significandLimit :=
    Nat.lt_of_le_of_lt (le_ofDigitChars _ _) h
  unfold Numeral.scaled Spelling.numeral
  simp only [Numeral.absorb_digitValues hwhole]
  cases hfraction : s.fraction with
  | none => simp
  | some ds =>
    rw [hfraction, Option.getD_some] at h
    simp only [Option.map_some, Numeral.absorb_digitValues h, Option.getD_some]
    simp [digitValues]

theorem coefficient_lt (d : Decimal) :
    d.coefficient < Nat.pow 10 (Nat.toDigits 10 d.coefficient).length :=
  (Nat.length_toDigits_le_iff (by decide) Nat.length_toDigits_pos).mp (Nat.le_refl _)

theorem magnitude?_wholeSpelling (negative : Bool) (hexponent : 0 ≤ d.exponent)
    (hpoint : d.point ≤ 16) :
    (d.wholeSpelling.numeral negative).magnitude? =
      Numeral.scale Numeral.scaleSteps
        (Binary64.ofNat (d.coefficient * Nat.pow 10 (d.exponent.toNat + 1))) (-1) := by
  have hvalue : Nat.ofDigitChars 10 (d.wholeSpelling.whole ++ d.wholeSpelling.fraction.getD []) 0 =
      d.coefficient * Nat.pow 10 (d.exponent.toNat + 1) := by
    have hdigits : d.wholeSpelling.whole ++ d.wholeSpelling.fraction.getD [] =
        Nat.toDigits 10 d.coefficient ++ List.replicate (d.exponent.toNat + 1) '0' := by
      simp [wholeSpelling, List.replicate_succ']
    rw [hdigits, Nat.ofDigitChars_append, Nat.ofDigitChars_ten_toDigits,
      Nat.ofDigitChars_replicate_zero, Nat.mul_comm]
    rfl
  have hlimit : d.coefficient * Nat.pow 10 (d.exponent.toNat + 1) < Numeral.significandLimit := by
    have hlength : (Nat.toDigits 10 d.coefficient).length + (d.exponent.toNat + 1) ≤ 17 := by
      simp only [point] at hpoint
      omega
    calc d.coefficient * 10 ^ (d.exponent.toNat + 1)
        < 10 ^ (Nat.toDigits 10 d.coefficient).length * 10 ^ (d.exponent.toNat + 1) :=
          Nat.mul_lt_mul_of_pos_right d.coefficient_lt (Nat.pow_pos (by decide))
      _ = 10 ^ ((Nat.toDigits 10 d.coefficient).length + (d.exponent.toNat + 1)) :=
          (Nat.pow_add ..).symm
      _ ≤ 10 ^ 17 := Nat.pow_le_pow_right (by decide) hlength
      _ < Numeral.significandLimit := by decide
  rw [Numeral.magnitude?, scaled_numeral negative (hvalue ▸ hlimit), hvalue]
  rfl

theorem magnitude?_of_digits {s : Spelling} (negative : Bool) (hexponent : s.exponent = none)
    (hdigits : Nat.ofDigitChars 10 (s.whole ++ s.fraction.getD []) 0 = d.coefficient)
    (hlength : ((s.fraction.getD []).length : Int) = -d.exponent)
    (hlimit : d.coefficient < Numeral.significandLimit) :
    (s.numeral negative).magnitude? =
      Numeral.scale Numeral.scaleSteps (Binary64.ofNat d.coefficient) d.exponent := by
  rw [Numeral.magnitude?, scaled_numeral negative (hdigits ▸ hlimit), hdigits, hlength, Int.neg_neg]
  simp only [Spelling.numeral, hexponent, Option.map_none]

theorem magnitude?_mixedSpelling (negative : Bool) (hexponent : d.exponent < 0)
    (hpoint : 0 < d.point) (hlimit : d.coefficient < Numeral.significandLimit) :
    (d.mixedSpelling.numeral negative).magnitude? =
      Numeral.scale Numeral.scaleSteps (Binary64.ofNat d.coefficient) d.exponent := by
  apply magnitude?_of_digits negative rfl _ _ hlimit
  · rw [mixedSpelling, Option.getD_some, List.take_append_drop, Nat.ofDigitChars_ten_toDigits]
  · rw [mixedSpelling, Option.getD_some, List.length_drop]
    simp only [point] at hpoint ⊢
    omega

theorem magnitude?_smallSpelling (negative : Bool) (hpoint : d.point ≤ 0)
    (hlimit : d.coefficient < Numeral.significandLimit) :
    (d.smallSpelling.numeral negative).magnitude? =
      Numeral.scale Numeral.scaleSteps (Binary64.ofNat d.coefficient) d.exponent := by
  apply magnitude?_of_digits negative rfl _ _ hlimit
  · rw [smallSpelling, Option.getD_some, ← List.append_assoc, Nat.ofDigitChars_append,
      Nat.ofDigitChars_append, Nat.ofDigitChars_replicate_zero, Nat.ofDigitChars_cons,
      Nat.ofDigitChars_nil]
    exact Nat.ofDigitChars_ten_toDigits
  · rw [smallSpelling, Option.getD_some, List.length_append, List.length_replicate]
    simp only [point] at hpoint ⊢
    omega

theorem magnitude?_scientificSpelling (negative : Bool) (hrange : d.exponent.natAbs ≤ 1000)
    (hlimit : d.coefficient < Numeral.significandLimit) :
    (d.scientificSpelling.numeral negative).magnitude? =
      Numeral.scale Numeral.scaleSteps (Binary64.ofNat d.coefficient) d.exponent := by
  have hfraction : d.scientificSpelling.fraction.getD [] =
      (Nat.toDigits 10 d.coefficient).drop 1 := by
    simp only [scientificSpelling]
    split
    · rename_i hempty
      rw [List.isEmpty_iff.mp hempty]
      rfl
    · rfl
  have hdigits : Nat.ofDigitChars 10
      (d.scientificSpelling.whole ++ d.scientificSpelling.fraction.getD []) 0 = d.coefficient := by
    rw [hfraction, scientificSpelling, List.take_append_drop, Nat.ofDigitChars_ten_toDigits]
  have hlength : (Nat.toDigits 10 d.coefficient).length ≤ 20 :=
    (Nat.length_toDigits_le_iff (by decide) (by decide)).mpr
      (Nat.lt_trans hlimit (by decide))
  have hpositive : 0 < (Nat.toDigits 10 d.coefficient).length := Nat.length_toDigits_pos
  have hplace : Numeral.exponentValue (digitValues (Nat.toDigits 10 (d.point - 1).natAbs)) =
      (d.point - 1).natAbs := by
    rw [Numeral.exponentValue_digitValues, Nat.ofDigitChars_ten_toDigits, Nat.min_eq_left]
    simp only [point, Numeral.exponentLimit]
    omega
  rw [Numeral.magnitude?, scaled_numeral negative (hdigits ▸ hlimit), hdigits, hfraction]
  simp only [Spelling.numeral, scientificSpelling, Option.map_some, hplace, List.length_drop]
  have hsmall : ¬ Numeral.exponentLimit < (d.point - 1).natAbs := by
    simp only [point, Numeral.exponentLimit]
    omega
  rw [if_neg hsmall]
  congr 1
  rcases Int.lt_or_le (d.point - 1) 0 with hneg | hneg
  · rw [if_pos (decide_eq_true hneg)]
    simp only [point, Numeral.exponentLimit] at hneg ⊢
    omega
  · rw [if_neg (by simpa using hneg)]
    simp only [point, Numeral.exponentLimit] at hneg ⊢
    omega

/-- The significand and the power of ten that are read from a decimal's text. A whole
number without an exponent part brings the zeros that it is written with. -/
def written (d : Decimal) : Nat × Int :=
  if 0 ≤ d.exponent ∧ d.point ≤ 16 then (d.coefficient * Nat.pow 10 (d.exponent.toNat + 1), -1)
  else (d.coefficient, d.exponent)

theorem magnitude?_spelling (negative : Bool) (hrange : d.exponent.natAbs ≤ 1000)
    (hlimit : d.coefficient < Numeral.significandLimit) :
    (d.spelling.numeral negative).magnitude? =
      Numeral.scale Numeral.scaleSteps (Binary64.ofNat d.written.1) d.written.2 := by
  unfold spelling
  split
  · rename_i hplain
    split
    · rename_i hexponent
      have hpoint : d.point ≤ 16 := by omega
      rw [written, if_pos ⟨hexponent, hpoint⟩]
      exact magnitude?_wholeSpelling negative hexponent hpoint
    · rename_i hexponent
      have hfraction : ¬ (0 ≤ d.exponent ∧ d.point ≤ 16) := fun h => hexponent h.1
      rw [written, if_neg hfraction]
      split
      · rename_i hpoint
        exact magnitude?_mixedSpelling negative (Int.not_le.mp hexponent) hpoint hlimit
      · rename_i hpoint
        exact magnitude?_smallSpelling negative (Int.not_lt.mp hpoint) hlimit
  · rename_i hplace
    have hlength : 0 < (Nat.toDigits 10 d.coefficient).length := Nat.length_toDigits_pos
    have hlarge : ¬ (0 ≤ d.exponent ∧ d.point ≤ 16) := by
      rw [point] at hplace ⊢
      omega
    rw [written, if_neg hlarge]
    exact magnitude?_scientificSpelling negative hrange hlimit

end Decimal

/-! Numbers -/

namespace Json

theorem Numeral.isSome_scale_of_neg (steps : Nat) (f : Binary64) {e : Int} (h : e < 0) :
    (Numeral.scale steps f e).isSome = true := by
  induction steps generalizing f e with
  | zero => rfl
  | succ steps ih =>
    rw [Numeral.scale, if_neg (by omega : ¬ 0 ≤ e)]
    split
    · rfl
    · rename_i hfar
      rw [if_neg (by omega : ¬ 0 < e)]
      split
      · rfl
      · exact ih _ (by omega)

theorem Numeral.scale_of_isFinite {f : Binary64} {e : Int} (hlow : 0 ≤ e) (hhigh : e ≤ 308)
    (h : (f.mul (Binary64.tenPow e.toNat)).isFinite = true) :
    (Numeral.scale Numeral.scaleSteps f e).isSome = true := by
  rw [Numeral.scaleSteps, Numeral.scale, if_pos (by omega), if_pos hlow, if_pos h]
  rfl

open Binary64 in
theorem magnitude?_shortest (x : Binary64) (negative : Bool) :
    ((x.shortest .toEven).spelling.numeral negative).magnitude? =
      Numeral.scale Numeral.scaleSteps (Binary64.ofNat (x.shortest .toEven).written.1)
        (x.shortest .toEven).written.2 :=
  Decimal.magnitude?_spelling negative (shortest_exponent_natAbs_le .toEven x)
    (Nat.lt_trans (shortest_coefficient_lt .toEven x) (by decide))

open Binary64 in
theorem isSome_magnitude?_shortest {x : Binary64} (h : x.isFinite = true) (negative : Bool) :
    ((x.shortest .toEven).spelling.numeral negative).magnitude?.isSome = true := by
  rw [magnitude?_shortest, Decimal.written]
  split
  · exact Numeral.isSome_scale_of_neg _ _ (Int.negSucc_lt_zero 0)
  · rcases Int.lt_or_le (x.shortest .toEven).exponent 0 with hneg | hpos
    · exact Numeral.isSome_scale_of_neg _ _ hneg
    · exact Numeral.scale_of_isFinite hpos (shortest_exponent_le .toEven h hpos)
        (hasFiniteProduct_of_isFinite h hpos)

namespace Number

/-- Whether the text of a number is a numeral. What is not finite is written as null. -/
def hasNumeral : Number → Bool
  | .int _ => true
  | .float x => x.isFinite

def isNegative : Number → Bool
  | .int i => decide (i < 0)
  | .float x => x.negative

def spelling : Number → Spelling
  | .int i => .ofNat i.natAbs
  | .float x => (x.shortest .toEven).spelling

def numeral (n : Number) : Numeral := n.spelling.numeral n.isNegative

theorem wellFormed_spelling (n : Number) : n.spelling.WellFormed := by
  cases n with
  | int i => exact Spelling.wellFormed_ofNat i.natAbs
  | float x =>
    apply Decimal.wellFormed_spelling
    intro hzero
    rw [Binary64.shortest_coefficient_eq_zero hzero]

theorem text_of_hasNumeral {n : Number} (h : n.hasNumeral = true) :
    n.text.toList = if n.isNegative then '-' :: n.spelling.chars else n.spelling.chars := by
  cases n with
  | int i =>
    rw [text, Int.toString_eq_repr, Int.repr_eq_if, isNegative, spelling, Spelling.ofNat]
    rcases Int.lt_or_le i 0 with hneg | hpos
    · have habs : (-i).toNat = i.natAbs := by omega
      rw [if_neg (Int.not_le.mpr hneg), if_pos (decide_eq_true hneg), String.toList_append,
        Nat.toList_repr, habs]
      simp [Spelling.chars, Spelling.fractionChars, Spelling.exponentChars]
    · have habs : i.toNat = i.natAbs := by omega
      rw [if_pos hpos, if_neg (by simpa using hpos), Nat.toList_repr, habs]
      simp [Spelling.chars, Spelling.fractionChars, Spelling.exponentChars]
  | float x =>
    have hfinite : x.isFinite = true := h
    rw [text, NumberLayout.text, Binary64.isNaN_of_isFinite hfinite, hfinite]
    simp only [Bool.false_eq_true, if_false, Bool.not_true, String.toList_ofList,
      Decimal.magnitude_json]
    rfl

theorem text_of_not_hasNumeral {n : Number} (h : n.hasNumeral = false) : n.text = "null" := by
  cases n with
  | int i => cases h
  | float x =>
    have hinfinite : x.isFinite = false := h
    rw [text, NumberLayout.text, hinfinite]
    cases x.isNaN <;> cases x.negative <;> rfl

theorem value?_numeral_int {i : Int} (hlow : leastSigned64 ≤ i) (hhigh : i ≤ greatestUnsigned64) :
    (Number.int i).numeral.value? = some (.int i) := Spelling.value?_ofNat hlow hhigh

theorem value?_of_parts {n : Numeral} (h : n.fraction ≠ none ∨ n.exponent ≠ none) :
    n.value? = n.magnitude?.map fun x => .float (if n.negative then x.neg else x) := by
  unfold Numeral.value?
  simp only
  split
  · rename_i hfraction hexponent
    exact absurd h (by simp [hfraction, hexponent])
  · rfl

theorem parts_spelling (d : Decimal) :
    d.spelling.fraction ≠ none ∨ d.spelling.exponent ≠ none := by
  unfold Decimal.spelling
  split
  · split
    · exact .inl nofun
    · split
      · exact .inl nofun
      · exact .inl nofun
  · exact .inr nofun

theorem value?_numeral_float (x : Binary64) :
    (Number.float x).numeral.value? =
      (((x.shortest .toEven).spelling.numeral x.negative).magnitude?).map fun y =>
        .float (if x.negative then y.neg else y) := by
  apply value?_of_parts
  rcases parts_spelling (x.shortest .toEven) with hfraction | hexponent
  · exact .inl fun hnone => hfraction (Option.map_eq_none_iff.mp hnone)
  · exact .inr fun hnone => hexponent (Option.map_eq_none_iff.mp hnone)

theorem isSome_value?_numeral_float {x : Binary64} (h : x.isFinite = true) :
    (Number.float x).numeral.value?.isSome = true := by
  rw [value?_numeral_float, Option.isSome_map]
  exact isSome_magnitude?_shortest h x.negative

end Number
end Json
end MeshTelemetry
