/-! Natural numbers written in a radix: digits only, the first the most significant.
Letters of either case stand for the digits from ten on. -/

set_option autoImplicit false

namespace MeshTelemetry.Radix

def digitValue? (c : Char) : Option Nat :=
  if '0' ≤ c ∧ c ≤ '9' then some (c.toNat - '0'.toNat)
  else if 'a' ≤ c ∧ c ≤ 'z' then some (c.toNat - 'a'.toNat + 10)
  else if 'A' ≤ c ∧ c ≤ 'Z' then some (c.toNat - 'A'.toNat + 10)
  else none

def digit? (radix : Nat) (c : Char) : Option Nat := (digitValue? c).filter (· < radix)

def continue? (radix limit : Nat) (n : Nat) : List Char → Option Nat
  | [] => some n
  | c :: cs =>
    match digit? radix c with
    | some d =>
      if n * radix + d < limit then continue? radix limit (n * radix + d) cs else none
    | none => none

def read? (radix limit : Nat) (cs : List Char) : Option Nat :=
  if cs.isEmpty then none else continue? radix limit 0 cs

def dropPlus : List Char → List Char
  | '+' :: cs => cs
  | cs => cs

def padded (radix width n : Nat) : List Char :=
  let digits := Nat.toDigits radix n
  List.replicate (width - digits.length) '0' ++ digits

end MeshTelemetry.Radix
