import MeshTelemetry.Numeric.Binary64

/-! The shortest decimal that reads back as a given number. A grid of n digits
holds such a decimal only if one of the number's two neighbours on that grid is
one, so the grids are tried from the coarsest and two points decide each. -/

set_option autoImplicit false

namespace MeshTelemetry

structure Decimal where
  coefficient : Nat
  exponent : Int
deriving DecidableEq

inductive TieRule
  | toEven
  | up
deriving DecidableEq

namespace Binary64

/-- Quarter units in one: the borders between neighbouring numbers are whole
numbers of quarter units. -/
def quarterOne : Nat := 4 * one

def quarters (x : Binary64) : Nat := 4 * x.units

def gapAbove (x : Binary64) : Nat := 2 * Nat.pow 2 x.scale

/-- Distance to the border below. Under a power of two the gap is halved, except
at the least normal number, where the subnormals keep it. -/
def gapBelow (x : Binary64) : Nat :=
  if x.fraction = 0 ∧ 0 < x.scale then Nat.pow 2 x.scale else 2 * Nat.pow 2 x.scale

/-- Whether `num / den` quarter units round to the magnitude of `x`: the borders
themselves do when the significand is even. -/
def roundsHere (x : Binary64) (num den : Nat) : Bool :=
  let low := (x.quarters - x.gapBelow) * den
  let high := (x.quarters + x.gapAbove) * den
  if x.significand % 2 = 0 then decide (low ≤ num ∧ num ≤ high)
  else decide (low < num ∧ num < high)

def pointPlace (x : Binary64) : Int :=
  if one ≤ x.units then (Nat.toDigits 10 (x.units / one)).length
  else 1 - ((Nat.toDigits 10 ((one - 1) / x.units)).length : Int)

/-- The nearest decimal of `n` digits that reads back as the magnitude of `x`, if
one of the two neighbours does. A carry into the next power of ten is one digit. -/
def ofDigits? (tie : TieRule) (x : Binary64) (n : Nat) : Option Decimal :=
  let e := x.pointPlace - n
  let den := Nat.pow 10 (-e).toNat
  let step := Nat.pow 10 e.toNat * quarterOne
  let c := x.quarters * den / step
  let point (c : Nat) : Decimal := if c = Nat.pow 10 n then ⟨1, e + n⟩ else ⟨c, e⟩
  let twice := 2 * (x.quarters * den)
  let middle := (2 * c + 1) * step
  let takeAbove : Bool :=
    decide (middle < twice) || (twice == middle && (tie == .up || c % 2 == 1))
  match x.roundsHere (c * step) den, x.roundsHere ((c + 1) * step) den with
  | true, true => some (point (if takeAbove then c + 1 else c))
  | true, false => some (point c)
  | false, true => some (point (c + 1))
  | false, false => none

/-- The shortest decimal that reads back as the magnitude of a finite number;
seventeen digits always do. -/
def shortest (tie : TieRule) (x : Binary64) : Decimal :=
  if x.isZero then ⟨0, 0⟩
  else ((List.range 17).findSome? fun n => x.ofDigits? tie (n + 1)).getD ⟨0, 0⟩

end Binary64
end MeshTelemetry
