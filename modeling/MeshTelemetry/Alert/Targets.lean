import MeshTelemetry.Numeric.Radix
import MeshTelemetry.Text.Blank

/-! Lists of nodes as text: numbers between commas, in decimal or after `!` in
hexadecimal. What is no such number is passed over, and zero names no node. -/

set_option autoImplicit false

namespace MeshTelemetry.Targets

def number? (radix : Nat) (cs : List Char) : Option Nat :=
  Radix.read? radix UInt32.size (Radix.dropPlus cs)

def item? (cs : List Char) : Option UInt32 :=
  let number := match Text.trimChars cs with
    | '!' :: hex => number? 16 hex
    | decimal => number? 10 decimal
  (number.filter (· ≠ 0)).map UInt32.ofNat

def ofText (s : String) : List UInt32 := (s.toList.splitOn ',').filterMap item?

end MeshTelemetry.Targets
