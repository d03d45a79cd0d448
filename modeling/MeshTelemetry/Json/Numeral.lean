import MeshTelemetry.Json.Value

/-! JSON numerals and their values. A numeral without point or exponent is an
integer when it fits 64 bits. Any other is read into a 64-bit significand and a
power of ten: digits past the significand's room are dropped, and the result is
one rounded product or quotient, not the number nearest to the numeral. -/

set_option autoImplicit false

namespace MeshTelemetry.Json

structure Numeral where
  negative : Bool
  whole : List Nat
  fraction : Option (List Nat)
  exponent : Option (Bool × List Nat)
deriving DecidableEq

namespace Numeral

def significandLimit : Nat := UInt64.size

/-- Take digits into the significand while it has room; the digits left over. -/
def absorb (s : Nat) : List Nat → Nat × List Nat
  | [] => (s, [])
  | d :: ds => if s * 10 + d < significandLimit then absorb (s * 10 + d) ds else (s, d :: ds)

/-- The significand and its power of ten, the exponent part aside: a whole digit
left over adds one to the power, a fraction digit taken subtracts one. -/
def scaled (n : Numeral) : Nat × Int :=
  let (s, dropped) := absorb 0 n.whole
  match n.fraction with
  | none => (s, dropped.length)
  | some ds =>
    let (s', unread) := absorb s ds
    (s', (dropped.length : Int) - (ds.length - unread.length : Nat))

def exponentLimit : Nat := 2147483647

def exponentValue (ds : List Nat) : Nat :=
  ds.foldl (fun n d => min (n * 10 + d) (exponentLimit + 1)) 0

/-- A significand times a power of ten. Powers past 10^308 are reached in steps
of 10^308, and a product that is infinite is no number. -/
def scale : Nat → Binary64 → Int → Option Binary64
  | 0, f, _ => some f
  | fuel + 1, f, e =>
    if e.natAbs ≤ 308 then
      if 0 ≤ e then
        let product := f.mul (Binary64.tenPow e.toNat)
        if product.isFinite then some product else none
      else some (f.div (Binary64.tenPow e.natAbs))
    else if f.isZero then some f
    else if 0 < e then none
    else scale fuel (f.div (Binary64.tenPow 308)) (e + 308)

/-- A 64-bit significand over 10^308 is zero by the third step. -/
def scaleSteps : Nat := 4

def magnitude? (n : Numeral) : Option Binary64 :=
  let (s, power) := n.scaled
  match n.exponent with
  | none => scale scaleSteps (Binary64.ofNat s) power
  | some (down, ds) =>
    let e := exponentValue ds
    if exponentLimit < e then
      if s = 0 ∨ down then some (Binary64.ofNat 0) else none
    else
      let total : Int := if down then power - e else power + e
      let total := max (-(exponentLimit : Int) - 1) (min exponentLimit total)
      scale scaleSteps (Binary64.ofNat s) total

/-- The value of a numeral; none when it is out of range. Minus zero is a float. -/
def value? (n : Numeral) : Option Number :=
  let float? := n.magnitude?.map fun x => Number.float (if n.negative then x.neg else x)
  match n.fraction, n.exponent with
  | none, none =>
    let (whole, unread) := absorb 0 n.whole
    if !unread.isEmpty then float?
    else if n.negative then
      if 0 < whole ∧ leastSigned64 ≤ -(whole : Int) then some (.int (-whole)) else float?
    else some (.int whole)
  | _, _ => float?

end Numeral
end MeshTelemetry.Json
