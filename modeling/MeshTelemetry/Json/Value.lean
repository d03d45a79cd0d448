import MeshTelemetry.Data.KeyMap
import MeshTelemetry.Numeric.Binary64

/-! JSON values. Integers that fit 64 bits stay integers, every other number is a
floating-point number; the members of a decoded object are in the order of their
keys, each key once. -/

set_option autoImplicit false

namespace MeshTelemetry

namespace Json

inductive Number
  | int (i : Int)
  | float (x : Binary64)
deriving DecidableEq, Inhabited

def Number.unsigned64? : Number → Option Nat
  | .int i => if 0 ≤ i ∧ i ≤ greatestUnsigned64 then some i.toNat else none
  | .float _ => none

def Number.signed64? : Number → Option Int
  | .int i => if leastSigned64 ≤ i ∧ i ≤ greatestSigned64 then some i else none
  | .float _ => none

def Number.toFloat : Number → Binary64
  | .int i => Binary64.ofInt i
  | .float x => x

end Json

inductive Json
  | null
  | bool (b : Bool)
  | number (n : Json.Number)
  | string (s : String)
  | array (items : List Json)
  | object (members : List (String × Json))
deriving Inhabited

namespace Json

abbrev Members := List (String × Json)

/-- Members in key order; of equal keys the last counts. -/
def collect (ms : Members) : Members := ms.foldl (fun acc m => KeyMap.put m.1 m.2 acc) []

def member? (ms : Members) (key : String) : Option Json := ms.lookup key

def ofMembers (ms : Members) : Json := .object (collect ms)

/-- A float as a value; what is not finite has no JSON form. -/
def ofFloat (x : Binary64) : Json := if x.isFinite then .number (.float x) else .null

def ofNat (n : Nat) : Json := .number (.int n)

def asString? : Json → Option String
  | .string s => some s
  | _ => none

def asObject? : Json → Option Members
  | .object ms => some ms
  | _ => none

def asNumber? : Json → Option Number
  | .number n => some n
  | _ => none

def asFinite? (v : Json) : Option Binary64 :=
  v.asNumber?.map Number.toFloat |>.filter Binary64.isFinite

def asSigned64? (v : Json) : Option Int := v.asNumber?.bind Number.signed64?

end Json
end MeshTelemetry
