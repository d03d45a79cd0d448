import MeshTelemetry.Data.Table

/-! When each node was last heard. Instants are nanoseconds on a clock that only
measures spans, so an instant may be negative and may lie ahead of the present. -/

set_option autoImplicit false

namespace MeshTelemetry

structure Activity where
  seen : Table String Int := ∅
deriving DecidableEq

namespace Activity

def touch (a : Activity) (node : String) (instant : Int) : Activity :=
  { a with seen := a.seen.insert node instant }

def contains (a : Activity) (node : String) : Bool := a.seen.contains node

def size (a : Activity) : Nat := a.seen.size

/-- Whether an instant lies more than a span before another. One that lies ahead
is no time ago. -/
def isStale (ttl : Nat) (now seen : Int) : Bool := decide (seen + ttl < now)

def silent (a : Activity) (ttl : Nat) (now : Int) : List (String × Int) :=
  a.seen.entries.filter fun e => isStale ttl now e.2

/-- Forget a node, unless it was heard again since the instant given. -/
def forget? (a : Activity) (candidate : String × Int) : Option Activity :=
  if a.seen.get? candidate.1 = some candidate.2 then
    some { a with seen := a.seen.erase candidate.1 }
  else none

end Activity
end MeshTelemetry
