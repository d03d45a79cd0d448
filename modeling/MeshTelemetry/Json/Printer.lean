import MeshTelemetry.Json.Value
import MeshTelemetry.Numeric.Layout

/-! JSON text of a value, compact or indented. Each writer adds to the end of the
text so far, so a long text costs no stack. -/

set_option autoImplicit false

namespace MeshTelemetry.Json

def hexDigit (n : Nat) : Char := (Nat.digitChar (n % 16))

def escapeLetter? : Char → Option Char
  | '"' => some '"'
  | '\\' => some '\\'
  | '\x08' => some 'b'
  | '\x0c' => some 'f'
  | '\n' => some 'n'
  | '\r' => some 'r'
  | '\t' => some 't'
  | _ => none

def escape (c : Char) : List Char :=
  match escapeLetter? c with
  | some letter => ['\\', letter]
  | none =>
    if ' ' ≤ c then [c]
    else ['\\', 'u', '0', '0', hexDigit (c.toNat / 16), hexDigit c.toNat]

def quoteChars (s : String) : List Char := '"' :: (s.toList.flatMap escape ++ ['"'])

def quote (s : String) : String := String.ofList (quoteChars s)

def Number.text : Number → String
  | .int i => toString i
  | .float x => NumberLayout.json.text x

mutual

/-- The compact text of a value, after `out`. -/
def writeCompact (out : String) : Json → String
  | .null => out ++ "null"
  | .bool b => out ++ (if b then "true" else "false")
  | .number n => out ++ n.text
  | .string s => out ++ quote s
  | .array [] => out ++ "[]"
  | .array (v :: vs) => writeItems (writeCompact (out ++ "[") v) vs ++ "]"
  | .object [] => out ++ "\x7b\x7d"
  | .object ((k, v) :: ms) =>
    writeMembers (writeCompact (out ++ "\x7b" ++ quote k ++ ":") v) ms ++ "\x7d"

def writeItems (out : String) : List Json → String
  | [] => out
  | v :: vs => writeItems (writeCompact (out ++ ",") v) vs

def writeMembers (out : String) : List (String × Json) → String
  | [] => out
  | (k, v) :: ms => writeMembers (writeCompact (out ++ "," ++ quote k ++ ":") v) ms

end

def compact (v : Json) : String := writeCompact "" v

/-- A new line at a depth of two blanks each. -/
def newLine (depth : Nat) : String := String.ofList ('\n' :: List.replicate (2 * depth) ' ')

mutual

def writePretty (depth : Nat) (out : String) : Json → String
  | .null => out ++ "null"
  | .bool b => out ++ (if b then "true" else "false")
  | .number n => out ++ n.text
  | .string s => out ++ quote s
  | .array [] => out ++ "[]"
  | .array (v :: vs) =>
    writePrettyItems (depth + 1) (writePretty (depth + 1) (out ++ "[" ++ newLine (depth + 1)) v) vs
      ++ newLine depth ++ "]"
  | .object [] => out ++ "\x7b\x7d"
  | .object ((k, v) :: ms) =>
    writePrettyMembers (depth + 1)
      (writePretty (depth + 1) (out ++ "\x7b" ++ newLine (depth + 1) ++ quote k ++ ": ") v) ms
      ++ newLine depth ++ "\x7d"

def writePrettyItems (depth : Nat) (out : String) : List Json → String
  | [] => out
  | v :: vs => writePrettyItems depth (writePretty depth (out ++ "," ++ newLine depth) v) vs

def writePrettyMembers (depth : Nat) (out : String) : List (String × Json) → String
  | [] => out
  | (k, v) :: ms =>
    writePrettyMembers depth
      (writePretty depth (out ++ "," ++ newLine depth ++ quote k ++ ": ") v) ms

end

def pretty (v : Json) : String := writePretty 0 "" v

end MeshTelemetry.Json
