/-! A place in a YAML text: what is still to be read, and where that is. Indentation
is told by columns, and whether a key may end here by lines and distances. -/

set_option autoImplicit false

namespace MeshTelemetry.Yaml

def isPrintable (c : Char) : Bool :=
  c == '\t' || c == '\n' || c == '\r' || c == '\u0085' ||
    decide (' ' ≤ c ∧ c ≤ '~') || decide ('\u00a0' ≤ c ∧ c.toNat ≤ 0xFFFD) ||
    decide (0x10000 ≤ c.toNat)

def isBlank (c : Char) : Bool := c == ' ' || c == '\t'

def isBreak (c : Char) : Bool :=
  c == '\n' || c == '\r' || c == '\u0085' || c == '\u2028' || c == '\u2029'

def isNameChar (c : Char) : Bool := c.isAlphanum || c == '_' || c == '-'

def atGap : List Char → Bool
  | [] => true
  | c :: _ => isBlank c || isBreak c

def isDocumentMark : List Char → Bool
  | '-' :: '-' :: '-' :: cs | '.' :: '.' :: '.' :: cs => atGap cs
  | _ => false

structure Cursor where
  rest : List Char
  column : Nat := 0
  line : Nat := 0
  offset : Nat := 0

namespace Cursor

def skip (c : Cursor) (n : Nat) : Cursor :=
  { c with rest := c.rest.drop n, column := c.column + n, offset := c.offset + n }

def takeWhile (c : Cursor) (p : Char → Bool) : List Char × Cursor :=
  let (taken, rest) := c.rest.span p
  (taken, {
    c with rest, column := c.column + taken.length, offset := c.offset + taken.length })

def skipWhile (c : Cursor) (p : Char → Bool) : Cursor := (c.takeWhile p).2

def startLine (c : Cursor) (rest : List Char) (passed : Nat) : Cursor :=
  ⟨rest, 0, c.line + 1, c.offset + passed⟩

/-- Pass a line break, and tell which character it leaves in a text. Only line and
paragraph separators stay as they are. -/
def takeBreak? (c : Cursor) : Option (Char × Cursor) :=
  match c.rest with
  | '\r' :: '\n' :: rest => some ('\n', c.startLine rest 2)
  | x :: rest =>
    if x = '\u2028' ∨ x = '\u2029' then some (x, c.startLine rest 1)
    else if isBreak x then some ('\n', c.startLine rest 1)
    else none
  | [] => none

def skipLineEnd? (c : Cursor) : Option Cursor :=
  let c := c.skipWhile isBlank
  let c := if c.rest.head? = some '#' then c.skipWhile (fun x => !isBreak x) else c
  match c.takeBreak? with
  | some (_, c) => some c
  | none => if c.rest.isEmpty then some c else none

def atDocumentMark (c : Cursor) : Bool := c.column == 0 && isDocumentMark c.rest

end Cursor
end MeshTelemetry.Yaml
