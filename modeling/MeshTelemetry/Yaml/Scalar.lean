import MeshTelemetry.Numeric.Radix
import MeshTelemetry.Yaml.Cursor

/-! Scalars: texts without quotes, in quotes, and in blocks of lines. A text that
runs over several lines is folded: a single break becomes a blank, and of more
breaks all but the first stay. Texts are gathered backwards. -/

set_option autoImplicit false

namespace MeshTelemetry.Yaml

inductive ScalarStyle
  | plain
  | quoted
  | literal
  | folded
deriving DecidableEq

/-- What lies between two words of a text. -/
structure Gap where
  blanks : List Char := []
  isBroken : Bool := false
  first : Option Char := none
  more : List Char := []

namespace Gap

/-- What a gap leaves in the text, backwards. -/
def folded (g : Gap) : List Char :=
  if !g.isBroken then g.blanks
  else
    match g.first with
    | some '\n' => if g.more.isEmpty then [' '] else g.more
    | some c => g.more ++ [c]
    | none => g.more

def addBreak (g : Gap) (c : Char) : Gap :=
  if g.isBroken then { g with more := c :: g.more }
  else { g with blanks := [], isBroken := true, first := some c }

/-- Take blanks and breaks. Before the column `floor` of a new line no tab may stand. -/
def take (floor : Nat) : Nat → Gap → Cursor → Option (Gap × Cursor)
  | 0, g, c => some (g, c)
  | fuel + 1, g, c =>
    match c.takeBreak? with
    | some (x, c) => take floor fuel (g.addBreak x) c
    | none =>
      match c.rest with
      | ' ' :: _ =>
        take floor fuel (if g.isBroken then g else { g with blanks := ' ' :: g.blanks }) (c.skip 1)
      | '\t' :: _ =>
        if g.isBroken then
          if c.column < floor then none else take floor fuel g (c.skip 1)
        else take floor fuel { g with blanks := '\t' :: g.blanks } (c.skip 1)
      | _ => some (g, c)

end Gap

namespace Scalar

/-! Without quotes -/

def isFlowMark (c : Char) : Bool :=
  c == ',' || c == '[' || c == ']' || c == '\x7b' || c == '\x7d'

def plainWord (inFlow : Bool) (word : List Char) : List Char → Option (List Char)
  | [] => some word
  | c :: cs =>
    if atGap (c :: cs) then some word
    else if inFlow && c == ':' && cs.head?.any (fun x => isFlowMark x || x == '?') then none
    else if (c == ':' && atGap cs) || (inFlow && isFlowMark c) then some word
    else plainWord inFlow (c :: word) cs

/-- A text without quotes: its characters backwards, the gap after it, and where it
ends. It goes on while lines are indented at least to `floor`. -/
def plain (inFlow : Bool) (floor : Nat) :
    Nat → List Char → Gap → Cursor → Option (List Char × Gap × Cursor)
  | 0, text, g, c => some (text, g, c)
  | fuel + 1, text, g, c =>
    if c.atDocumentMark || c.rest.head? == some '#' then some (text, g, c)
    else do
      let word ← plainWord inFlow [] c.rest
      let c := c.skip word.length
      let (text, g) := if word.isEmpty then (text, g) else (word ++ (g.folded ++ text), {})
      if !c.rest.isEmpty && atGap c.rest then
        let (g, c) ← g.take floor c.rest.length c
        if !inFlow && c.column < floor then some (text, g, c)
        else plain inFlow floor fuel text g c
      else some (text, g, c)

/-! In quotes -/

def shortEscapes : List (Char × Char) :=
  [('0', '\x00'), ('a', '\x07'), ('b', '\x08'), ('t', '\t'), ('\t', '\t'), ('n', '\n'),
   ('v', '\x0b'), ('f', '\x0c'), ('r', '\r'), ('e', '\x1b'), (' ', ' '), ('"', '"'), ('/', '/'),
   ('\\', '\\'), ('N', '\u0085'), ('_', '\u00a0'), ('L', '\u2028'), ('P', '\u2029')]

def longEscapes : List (Char × Nat) := [('x', 2), ('u', 4), ('U', 8)]

def hexEscape? (digits : List Char) (count : Nat) : Option Char :=
  if digits.length < count then none
  else
    match Radix.read? 16 UInt32.size digits with
    | some n => if n.isValidChar then some (Char.ofNat n) else none
    | none => none

def escape? : List Char → Option (Char × Nat)
  | [] => none
  | c :: cs =>
    match shortEscapes.lookup c with
    | some x => some (x, 1)
    | none =>
      match longEscapes.lookup c with
      | some n => (hexEscape? (cs.take n) n).map fun x => (x, n + 1)
      | none => none

def singleQuotedWord : Nat → List Char → Cursor → List Char × Cursor
  | 0, text, c => (text, c)
  | fuel + 1, text, c =>
    match c.rest with
    | '\'' :: '\'' :: _ => singleQuotedWord fuel ('\'' :: text) (c.skip 2)
    | '\'' :: _ => (text, c)
    | x :: _ =>
      if isBlank x || isBreak x then (text, c)
      else singleQuotedWord fuel (x :: text) (c.skip 1)
    | [] => (text, c)

/-- Take characters in double quotes, up to a blank, a break or the quote; and
whether an escaped line break ended them. -/
def doubleQuotedWord : Nat → List Char → Cursor → Option (List Char × Bool × Cursor)
  | 0, text, c => some (text, false, c)
  | fuel + 1, text, c =>
    match c.rest with
    | '"' :: _ => some (text, false, c)
    | '\\' :: cs =>
      match (c.skip 1).takeBreak? with
      | some (_, c) => some (text, true, c)
      | none =>
        match escape? cs with
        | some (x, n) => doubleQuotedWord fuel (x :: text) (c.skip (n + 1))
        | none => none
    | x :: _ =>
      if isBlank x || isBreak x then some (text, false, c)
      else doubleQuotedWord fuel (x :: text) (c.skip 1)
    | [] => some (text, false, c)

def quoted (single : Bool) : Nat → List Char → Cursor → Option (List Char × Cursor)
  | 0, _, _ => none
  | fuel + 1, text, c =>
    if c.atDocumentMark || c.rest.isEmpty then none
    else do
      let (text, isBroken, c) ←
        if single then
          let (text, c) := singleQuotedWord c.rest.length text c
          some (text, false, c)
        else doubleQuotedWord c.rest.length text c
      if c.rest.head? = some (if single then '\'' else '"') then some (text, c.skip 1)
      else
        let (g, c) ← Gap.take 0 c.rest.length { isBroken } c
        quoted single fuel (g.folded ++ text) c

/-! In blocks -/

inductive Chomp
  | strip
  | clip
  | keep
deriving DecidableEq

def takeChomp : List Char → Option Chomp × List Char
  | '+' :: cs => (some .keep, cs)
  | '-' :: cs => (some .strip, cs)
  | cs => (none, cs)

/-- The depth that a header gives; zero if it gives none, and it cannot give zero. -/
def takeDepth : List Char → Option (Nat × List Char)
  | '0' :: _ => none
  | c :: cs => if c.isDigit then some (c.toNat - '0'.toNat, cs) else some (0, c :: cs)
  | [] => some (0, [])

def blockHeader (c : Cursor) : Option (Chomp × Nat × Cursor) := do
  let (chomp, cs) := takeChomp c.rest
  let (depth, cs) ← takeDepth cs
  let (chomp, cs) := if chomp.isSome then (chomp, cs) else takeChomp cs
  let c ← (c.skip (c.rest.length - cs.length)).skipLineEnd?
  some (chomp.getD .clip, depth, c)

/-- Take empty lines and the indentation of the next one: the widest indentation,
the breaks backwards, and where that ends. A depth of zero is not known yet. -/
def blockBreaks (indent : Nat) :
    Nat → Nat → List Char → Cursor → Option (Nat × List Char × Cursor)
  | 0, widest, breaks, c => some (widest, breaks, c)
  | fuel + 1, widest, breaks, c =>
    let blanks := (c.rest.takeWhile (· == ' ')).length
    let c := c.skip (if indent = 0 then blanks else min blanks (indent - c.column))
    let widest := max widest c.column
    if c.rest.head? = some '\t' ∧ (indent = 0 ∨ c.column < indent) then none
    else
      match c.takeBreak? with
      | some (x, c) => blockBreaks indent fuel widest (x :: breaks) c
      | none => some (widest, breaks, c)

structure Block where
  text : List Char := []
  last : Option Char := none
  breaks : List Char := []
  /-- Whether the last line starts with a blank. Such lines are not folded. -/
  isIndented : Bool := false

def Block.joined (b : Block) (literal isIndented : Bool) : List Char :=
  if !literal && b.last == some '\n' && !b.isIndented && !isIndented then
    b.breaks ++ (if b.breaks.isEmpty then ' ' :: b.text else b.text)
  else b.breaks ++ (b.last.toList ++ b.text)

def blockLines (literal : Bool) (indent : Nat) : Nat → Block → Cursor → Option (Block × Cursor)
  | 0, b, c => some (b, c)
  | fuel + 1, b, c =>
    if c.column == indent && !c.rest.isEmpty then do
      let isIndented := c.rest.head?.any isBlank
      let (line, c) := c.takeWhile fun x => !isBreak x
      let (last, c) := match c.takeBreak? with
        | some (x, c) => (some x, c)
        | none => (none, c)
      let (_, breaks, c) ← blockBreaks indent c.rest.length 0 [] c
      let text := List.reverseAux line (b.joined literal isIndented)
      blockLines literal indent fuel ⟨text, last, breaks, isIndented⟩ c
    else some (b, c)

/-- A block from behind its first mark. Lines belong to it that are indented at least
to `floor`. -/
def block (literal : Bool) (floor : Nat) (c : Cursor) : Option (List Char × Cursor) := do
  let (chomp, depth, c) ← blockHeader c
  let given := if depth = 0 then 0 else (floor - 1) + depth
  let (widest, breaks, c) ← blockBreaks given c.rest.length 0 [] c
  let indent := if given = 0 then max widest (max floor 1) else given
  let (b, c) ← blockLines literal indent c.rest.length { breaks } c
  let text := match chomp with
    | .strip => b.text
    | .clip => b.last.toList ++ b.text
    | .keep => b.breaks ++ (b.last.toList ++ b.text)
  some (text.reverse, c)

end Scalar
end MeshTelemetry.Yaml
