/-! Bytes as characters. A byte sequence that is not UTF-8 throughout still has
readable stretches, so each byte that belongs to no character is kept as a gap. -/

set_option autoImplicit false

namespace MeshTelemetry.Text

/-- A character of the input, or a gap where a byte belongs to none. -/
abbrev Symbol := Option Char

/-- The symbols from byte `i` on, newest first on `acc`. Each turn reads at least
one of the `fuel` bytes that are left. -/
def symbolsFrom (bytes : ByteArray) : Nat → Nat → List Symbol → List Symbol
  | 0, _, acc => acc.reverse
  | fuel + 1, i, acc =>
    if i < bytes.size then
      match bytes.utf8DecodeChar? i with
      | some c => symbolsFrom bytes fuel (i + c.utf8Size) (some c :: acc)
      | none => symbolsFrom bytes fuel (i + 1) (none :: acc)
    else acc.reverse

def symbols (bytes : ByteArray) : List Symbol :=
  match String.fromUTF8? bytes with
  | some s => s.toList.map some
  | none => symbolsFrom bytes bytes.size 0 []

def symbolsOf (s : String) : List Symbol := s.toList.map some

end MeshTelemetry.Text
