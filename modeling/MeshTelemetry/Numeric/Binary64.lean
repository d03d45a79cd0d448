/-! Floating-point numbers as exact integers. Every finite magnitude is a whole
number of units of 2^-1074, so each operation works on units without error and
rounds its result once, ties to even. -/

set_option autoImplicit false

namespace MeshTelemetry

def leastSigned64 : Int := -9223372036854775808

def greatestSigned64 : Int := 9223372036854775807

def greatestUnsigned64 : Int := 18446744073709551615

/-- A 64-bit floating-point number, held as its bits: sign, eleven exponent
bits, fifty-two fraction bits. -/
structure Binary64 where
  bits : UInt64
deriving DecidableEq, Inhabited

namespace Binary64

/-- The number of units in one. -/
def one : Nat := Nat.pow 2 1074

def negative (x : Binary64) : Bool := decide (Nat.pow 2 63 ≤ x.bits.toNat)

def exponentField (x : Binary64) : Nat := x.bits.toNat / Nat.pow 2 52 % Nat.pow 2 11

def fraction (x : Binary64) : Nat := x.bits.toNat % Nat.pow 2 52

def isFinite (x : Binary64) : Bool := decide (x.exponentField < 2047)

def isNaN (x : Binary64) : Bool := decide (x.exponentField = 2047 ∧ x.fraction ≠ 0)

def significand (x : Binary64) : Nat :=
  if x.exponentField = 0 then x.fraction else x.fraction + Nat.pow 2 52

/-- The place of the significand's last bit: a finite magnitude is
`significand * 2 ^ scale` units. -/
def scale (x : Binary64) : Nat := x.exponentField - 1

def units (x : Binary64) : Nat := x.significand * Nat.pow 2 x.scale

def isZero (x : Binary64) : Bool := decide (x.exponentField = 0 ∧ x.fraction = 0)

def signedUnits (x : Binary64) : Int :=
  if x.negative then -(x.units : Int) else x.units

def signed (negative : Bool) (magnitude : Nat) : Binary64 :=
  ⟨UInt64.ofNat (if negative then Nat.pow 2 63 + magnitude else magnitude)⟩

def infinityBits : Nat := 2047 * Nat.pow 2 52

def infinity (negative : Bool) : Binary64 := signed negative infinityBits

def nan : Binary64 := signed false (infinityBits + Nat.pow 2 51)

def roundQuotient (num den : Nat) : Nat :=
  let q := num / den
  let r := num % den
  if den < 2 * r ∨ (2 * r = den ∧ q % 2 = 1) then q + 1 else q

/-- The number nearest to `num / den` units, ties to even. A significand that
rounds up to the next power of two carries into the exponent field by itself,
since the two fields are adjacent; at or above 2^1024 the result is infinite. -/
def nearest (negative : Bool) (num den : Nat) : Binary64 :=
  let scale := Nat.log2 (num / den) - 52
  let m := roundQuotient num (den * Nat.pow 2 scale)
  signed negative (min (scale * Nat.pow 2 52 + m) infinityBits)

def ofRatio (negative : Bool) (num den : Nat) : Binary64 := nearest negative (num * one) den

def ofNat (n : Nat) : Binary64 := ofRatio false n 1

def ofInt (i : Int) : Binary64 := ofRatio (decide (i < 0)) i.natAbs 1

def tenPow (k : Nat) : Binary64 := ofNat (Nat.pow 10 k)

def neg (x : Binary64) : Binary64 :=
  ⟨x.bits ^^^ UInt64.ofNat (Nat.pow 2 63)⟩

def mul (x y : Binary64) : Binary64 :=
  let s := x.negative != y.negative
  if x.isNaN || y.isNaN then nan
  else if x.isFinite && y.isFinite then nearest s (x.units * y.units) one
  else if x.isZero || y.isZero then nan
  else infinity s

def div (x y : Binary64) : Binary64 :=
  let s := x.negative != y.negative
  if x.isNaN || y.isNaN then nan
  else if !x.isFinite then if y.isFinite then infinity s else nan
  else if !y.isFinite then signed s 0
  else if y.isZero then if x.isZero then nan else infinity s
  else nearest s (x.units * one) y.units

def dist (x y : Binary64) : Binary64 :=
  if x.isNaN || y.isNaN then nan
  else if x.isFinite && y.isFinite then nearest false (x.signedUnits - y.signedUnits).natAbs 1
  else if !x.isFinite && !y.isFinite && x.negative == y.negative then nan
  else infinity false

def lt (x y : Binary64) : Bool :=
  if x.isNaN || y.isNaN then false
  else if x.isFinite && y.isFinite then decide (x.signedUnits < y.signedUnits)
  else if x.isFinite then !y.negative
  else if y.isFinite then x.negative
  else x.negative && !y.negative

/-- The nearest integer, halves away from zero; the sign of zero is kept. -/
def round (x : Binary64) : Binary64 :=
  if x.isFinite then nearest x.negative ((2 * x.units + one) / (2 * one) * one) 1 else x

def isWhole (x : Binary64) : Bool := x.isFinite && decide (x.units % one = 0)

def integerPart (x : Binary64) : Int :=
  let n : Int := (x.units / one : Nat)
  if x.negative then -n else n

/-- The integer part, held between two bounds; a NaN gives zero. -/
def clampTo (low high : Int) (x : Binary64) : Int :=
  if x.isNaN then 0
  else if x.isFinite then max low (min high x.integerPart)
  else if x.negative then low else high

def toSigned64 (x : Binary64) : Int := x.clampTo leastSigned64 greatestSigned64

def toUnsigned64 (x : Binary64) : Nat := (x.clampTo 0 greatestUnsigned64).toNat

def round2 (x : Binary64) : Binary64 :=
  let hundred := ofNat 100
  (x.mul hundred).round.div hundred

end Binary64
end MeshTelemetry
