/-! Cutting a text to a number of characters. -/

set_option autoImplicit false

namespace MeshTelemetry.Text

def ellipsis : List Char := ['.', '.', '.']

/-- At most `limit` characters. What is cut ends in an ellipsis if one fits. -/
def truncateChars (limit : Nat) (cs : List Char) : List Char :=
  if cs.length ≤ limit then cs
  else if limit < ellipsis.length then cs.take limit
  else cs.take (limit - ellipsis.length) ++ ellipsis

def truncate (limit : Nat) (s : String) : String := String.ofList (truncateChars limit s.toList)

end MeshTelemetry.Text
