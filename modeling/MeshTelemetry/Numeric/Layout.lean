import MeshTelemetry.Numeric.Shortest

/-! How a shortest decimal is laid out as text. The digits are the same in every
format; a layout says where the point and the exponent part go. -/

set_option autoImplicit false

namespace MeshTelemetry

structure NumberLayout where
  /-- Whether a number whose first digit stands for `10 ^ place` has no exponent part. -/
  isPlain : Int → Bool
  wholeSuffix : List Char
  tie : TieRule
  nan : String
  positiveInfinity : String
  negativeInfinity : String

namespace NumberLayout

def plain (l : NumberLayout) (d : Decimal) : List Char :=
  let digits := Nat.toDigits 10 d.coefficient
  let point : Int := digits.length + d.exponent
  if 0 ≤ d.exponent then
    digits ++ List.replicate d.exponent.toNat '0' ++ l.wholeSuffix
  else if 0 < point then
    digits.take point.toNat ++ '.' :: digits.drop point.toNat
  else
    '0' :: '.' :: (List.replicate (-point).toNat '0' ++ digits)

def scientific (d : Decimal) (place : Int) : List Char :=
  let digits := Nat.toDigits 10 d.coefficient
  let rest := digits.drop 1
  digits.take 1 ++ (if rest.isEmpty then [] else '.' :: rest) ++
    'e' :: (if place < 0 then '-' else '+') :: Nat.toDigits 10 place.natAbs

def magnitude (l : NumberLayout) (d : Decimal) : List Char :=
  let place : Int := (Nat.toDigits 10 d.coefficient).length + d.exponent - 1
  if l.isPlain place then l.plain d else scientific d place

def text (l : NumberLayout) (x : Binary64) : String :=
  if x.isNaN then l.nan
  else if !x.isFinite then if x.negative then l.negativeInfinity else l.positiveInfinity
  else
    let body := l.magnitude (x.shortest l.tie)
    String.ofList (if x.negative then '-' :: body else body)

def metric : NumberLayout where
  isPlain _ := true
  wholeSuffix := []
  tie := .up
  nan := "NaN"
  positiveInfinity := "inf"
  negativeInfinity := "-inf"

/-- JSON has no text for numbers that are not finite; they become null. Plain from
10^-5 up to below 10^16, where a whole number keeps one decimal. -/
def json : NumberLayout where
  isPlain place := decide (-5 ≤ place ∧ place ≤ 15)
  wholeSuffix := ['.', '0']
  tie := .toEven
  nan := "null"
  positiveInfinity := "null"
  negativeInfinity := "null"

end NumberLayout
end MeshTelemetry
