/-! Topics and the patterns that select them. A topic is a path of segments; in a
pattern `+` stands for one segment and a last `#` for any number of them. -/

set_option autoImplicit false

namespace MeshTelemetry.Topic

def segments (topic : String) : List (List Char) :=
  if topic.isEmpty then [] else topic.toList.splitOn '/'

def patternSegments (pattern : String) : List (List Char) := pattern.toList.splitOn '/'

/-- Whether topic segments are what a pattern's segments stand for. `#` takes the
rest, and only as the last segment. -/
def segmentsMatch : (pattern topic : List (List Char)) → Bool
  | [], [] => true
  | [], _ :: _ => false
  | p :: ps, ts =>
    if p = ['#'] then ps.isEmpty
    else
      match ts with
      | [] => false
      | t :: ts => (p == ['+'] || p == t) && segmentsMatch ps ts

/-- Whether a topic matches a pattern; the empty pattern takes every topic. -/
def matchesPattern (topic pattern : String) : Bool :=
  pattern.isEmpty || segmentsMatch (patternSegments pattern) (segments topic)

def passes (topic : String) (patterns : List String) : Bool :=
  patterns.isEmpty || patterns.any (matchesPattern topic)

end MeshTelemetry.Topic
