import MeshTelemetry.Yaml.Scalar

/-! The tokens of a YAML text. Indentation becomes tokens of its own: a block opens
where a deeper column first holds an entry, and closes where a line starts before
that column. A key is only known by the colon after it, so its place among the
tokens is remembered until then. -/

set_option autoImplicit false

namespace MeshTelemetry.Yaml

inductive Token
  | version (major minor : Nat)
  | handle (name stem : String)
  | documentStart
  | documentEnd
  | blockSequenceStart
  | blockMappingStart
  | blockEnd
  | flowSequenceStart
  | flowSequenceEnd
  | flowMappingStart
  | flowMappingEnd
  | blockEntry
  | flowEntry
  | key
  | value
  | alias (name : String)
  | anchor (name : String)
  | tag (handle suffix : String)
  | scalar (text : String) (style : ScalarStyle)
deriving DecidableEq

/-- A place where a key may stand. -/
structure PendingKey where
  index : Nat
  column : Nat
  line : Nat
  offset : Nat
  required : Bool

structure Lexer where
  cursor : Cursor
  /-- The columns of the open blocks, innermost first. -/
  indents : List Nat := []
  pending : Option PendingKey := none
  /-- The pending keys outside the open brackets, innermost first. -/
  outer : List (Option PendingKey) := []
  keyAllowed : Bool := true
  tokens : List Token := []
  count : Nat := 0

namespace Lexer

def inFlow (l : Lexer) : Bool := !l.outer.isEmpty

def floor (l : Lexer) : Nat :=
  match l.indents with
  | [] => 0
  | i :: _ => i + 1

def emit (l : Lexer) (t : Token) : Lexer :=
  { l with tokens := t :: l.tokens, count := l.count + 1 }

/-- Put a token before all but the first `index`. -/
def emitAt (l : Lexer) (index : Nat) (t : Token) : Lexer :=
  let newer := l.count - index
  { l with tokens := l.tokens.take newer ++ t :: l.tokens.drop newer, count := l.count + 1 }

def skip (l : Lexer) (n : Nat) : Lexer := { l with cursor := l.cursor.skip n }

/-! Blocks -/

def openBlock (l : Lexer) (column index : Nat) (t : Token) : Lexer :=
  if l.inFlow || decide (column < l.floor) then l
  else { l with indents := column :: l.indents }.emitAt index t

def closeBlocks (l : Lexer) (p : Nat → Bool) : Lexer :=
  if l.inFlow then l
  else
    let closed := (l.indents.takeWhile p).length
    { l with
      indents := l.indents.drop closed
      tokens := List.replicate closed .blockEnd ++ l.tokens
      count := l.count + closed }

/-! Keys -/

/-- How far a key may lie before its colon. -/
def keyReach : Nat := 1024

/-- A key that can no longer end here, since it is on an earlier line or too far
back, is none. One that is required is missed. -/
def refreshKey (c : Cursor) : Option PendingKey → Option (Option PendingKey)
  | none => some none
  | some k =>
    if k.line < c.line ∨ k.offset + keyReach < c.offset then
      if k.required then none else some none
    else some (some k)

def refreshKeys (l : Lexer) : Option Lexer := do
  let pending ← refreshKey l.cursor l.pending
  let outer ← l.outer.mapM (refreshKey l.cursor)
  some { l with pending, outer }

def dropKey (l : Lexer) : Option Lexer :=
  if l.pending.any PendingKey.required then none else some { l with pending := none }

def saveKey (l : Lexer) : Option Lexer :=
  if l.keyAllowed then do
    let l ← l.dropKey
    let c := l.cursor
    some { l with
      pending := some {
        index := l.count, column := c.column, line := c.line, offset := c.offset
        required := !l.inFlow && l.indents.head? == some c.column } }
  else some l

/-! Space -/

/-- Pass blanks, comments and line breaks, and tell whether a key may start behind
them. Tabs are no indentation. -/
def space (inFlow : Bool) : Nat → Bool → Cursor → Bool × Cursor
  | 0, keyAllowed, c => (keyAllowed, c)
  | fuel + 1, keyAllowed, c =>
    let c := if c.column == 0 && c.rest.head? == some '\ufeff' then c.skip 1 else c
    let c := c.skipWhile fun x => x == ' ' || ((inFlow || !keyAllowed) && x == '\t')
    let c := if c.rest.head? == some '#' then c.skipWhile (fun x => !isBreak x) else c
    match c.takeBreak? with
    | some (_, c) => space inFlow fuel (keyAllowed || !inFlow) c
    | none => (keyAllowed, c)

def advance (l : Lexer) : Option Lexer := do
  let (keyAllowed, cursor) := space l.inFlow (l.cursor.rest.length + 1) l.keyAllowed l.cursor
  let l ← { l with keyAllowed, cursor }.refreshKeys
  some (l.closeBlocks fun i => decide (cursor.column < i))

/-! Marks -/

def mark (l : Lexer) : Option Lexer := do
  let l ← (l.closeBlocks fun _ => true).dropKey
  some { l with keyAllowed := false }

def takeDocumentMark (l : Lexer) (t : Token) : Option Lexer := do
  some ((← l.mark).emit t |>.skip 3)

def takeFlowStart (l : Lexer) (t : Token) : Option Lexer := do
  let l ← l.saveKey
  some ({ l with outer := l.pending :: l.outer, pending := none, keyAllowed := true }.emit t
    |>.skip 1)

def takeFlowEnd (l : Lexer) (t : Token) : Option Lexer := do
  let l ← l.dropKey
  let l := match l.outer with
    | pending :: outer => { l with pending, outer }
    | [] => l
  some ({ l with keyAllowed := false }.emit t |>.skip 1)

def takeFlowEntry (l : Lexer) : Option Lexer := do
  some ({ ← l.dropKey with keyAllowed := true }.emit .flowEntry |>.skip 1)

def takeBlockEntry (l : Lexer) : Option Lexer := do
  if !l.inFlow && !l.keyAllowed then none
  let l ← (l.openBlock l.cursor.column l.count .blockSequenceStart).dropKey
  some ({ l with keyAllowed := true }.emit .blockEntry |>.skip 1)

def takeKey (l : Lexer) : Option Lexer := do
  if !l.inFlow && !l.keyAllowed then none
  let l ← (l.openBlock l.cursor.column l.count .blockMappingStart).dropKey
  some ({ l with keyAllowed := !l.inFlow }.emit .key |>.skip 1)

/-- A colon makes a key of what is pending. Without that it stands for an empty key. -/
def takeValue (l : Lexer) : Option Lexer :=
  match l.pending with
  | some k =>
    let l := (l.emitAt k.index .key).openBlock k.column k.index .blockMappingStart
    some ({ l with pending := none, keyAllowed := false }.emit .value |>.skip 1)
  | none =>
    if !l.inFlow && !l.keyAllowed then none
    else
      let l := l.openBlock l.cursor.column l.count .blockMappingStart
      some ({ l with keyAllowed := !l.inFlow }.emit .value |>.skip 1)

/-! Names -/

def endsName (cs : List Char) : Bool :=
  atGap cs || cs.head?.any fun c => ['?', ':', ',', ']', '\x7d', '%', '@', '\x60'].contains c

def takeName (l : Lexer) (t : String → Token) : Option Lexer := do
  let l ← l.saveKey
  let (name, cursor) := (l.cursor.skip 1).takeWhile isNameChar
  if name.isEmpty || !endsName cursor.rest then none
  some ({ l with keyAllowed := false, cursor }.emit (t (String.ofList name)))

/-! Tags -/

def isTagChar (verbatim : Bool) (c : Char) : Bool :=
  isNameChar c ||
    [';', '/', '?', ':', '@', '&', '=', '+', '$', '.', '!', '~', '*', '\'', '(', ')'].contains c ||
    (verbatim && [',', '[', ']'].contains c)

def octet? : List Char → Option Nat
  | '%' :: a :: b :: _ => Radix.read? 16 256 [a, b]
  | _ => none

/-- Octets that continue a character, and the number that they complete. -/
def continueOctets : Nat → Nat → List Char → Option Nat
  | 0, n, _ => some n
  | count + 1, n, cs => do
    let o ← octet? cs
    if o / 64 = 2 then continueOctets count (n * 64 + o % 64) (cs.drop 3) else none

def percentChar? (cs : List Char) : Option (Char × Nat) := do
  let o ← octet? cs
  let (count, n) ←
    if o < 0x80 then some (0, o)
    else if o / 32 = 6 then some (1, o % 32)
    else if o / 16 = 14 then some (2, o % 16)
    else if o / 8 = 30 then some (3, o % 8)
    else none
  some (Char.ofNat (← continueOctets count n (cs.drop 3)), count + 1)

def tagChars (verbatim : Bool) : Nat → List Char → Cursor → Option (List Char × Cursor)
  | 0, text, c => some (text, c)
  | fuel + 1, text, c =>
    match c.rest with
    | '%' :: _ => do
      let (x, octets) ← percentChar? c.rest
      tagChars verbatim fuel (x :: text) (c.skip (3 * octets))
    | x :: _ =>
      if isTagChar verbatim x then tagChars verbatim fuel (x :: text) (c.skip 1)
      else some (text, c)
    | [] => some (text, c)

def tagText (verbatim : Bool) (c : Cursor) : Option (String × Cursor) := do
  let (text, c) ← tagChars verbatim c.rest.length [] c
  some (String.ofList text.reverse, c)

def tagHandle (c : Cursor) : List Char × Cursor :=
  let (name, c) := (c.skip 1).takeWhile isNameChar
  if c.rest.head? = some '!' then ('!' :: (name ++ ['!']), c.skip 1) else ('!' :: name, c)

def isHandle (h : List Char) : Bool := decide (1 < h.length) && h.getLast? == some '!'

def tagParts (c : Cursor) : Option (String × String × Cursor) :=
  match c.rest with
  | '!' :: '<' :: _ => do
    let (suffix, c) ← tagText true (c.skip 2)
    if suffix.isEmpty || c.rest.head? ≠ some '>' then none
    some ("", suffix, c.skip 1)
  | _ => do
    let (h, c) := tagHandle c
    let (suffix, c) ← tagText false c
    if isHandle h then
      if suffix.isEmpty then none
      some (String.ofList h, suffix, c)
    else
      let suffix := String.ofList (h.drop 1) ++ suffix
      if suffix.isEmpty then some ("", "!", c) else some ("!", suffix, c)

def takeTag (l : Lexer) : Option Lexer := do
  let l ← l.saveKey
  let (h, suffix, cursor) ← tagParts l.cursor
  if !atGap cursor.rest && !(l.inFlow && cursor.rest.head? == some ',') then none
  some ({ l with keyAllowed := false, cursor }.emit (.tag h suffix))

/-! Directives -/

def versionNumber (c : Cursor) : Option (Nat × Cursor) := do
  let (digits, c) := c.takeWhile Char.isDigit
  some (← Radix.read? 10 1000000000 (if digits.length ≤ 9 then digits else []), c)

def versionDirective (c : Cursor) : Option (Token × Cursor) := do
  let (major, c) ← versionNumber (c.skipWhile isBlank)
  if c.rest.head? ≠ some '.' then none
  let (minor, c) ← versionNumber (c.skip 1)
  some (.version major minor, c)

def handleDirective (c : Cursor) : Option (Token × Cursor) := do
  let c := c.skipWhile isBlank
  if c.rest.head? ≠ some '!' then none
  let (h, c) := tagHandle c
  if h ≠ ['!'] ∧ !isHandle h then none
  if !c.rest.head?.any isBlank then none
  let (stem, c) ← tagText true (c.skipWhile isBlank)
  if stem.isEmpty || !atGap c.rest then none
  some (.handle (String.ofList h) stem, c)

def takeDirective (l : Lexer) : Option Lexer := do
  let l ← l.mark
  let (name, c) := (l.cursor.skip 1).takeWhile isNameChar
  if !atGap c.rest then none
  let (t, c) ←
    if name = ['Y', 'A', 'M', 'L'] then versionDirective c
    else if name = ['T', 'A', 'G'] then handleDirective c
    else none
  some ({ l with cursor := ← c.skipLineEnd? }.emit t)

/-! Texts -/

def takeBlock (l : Lexer) (literal : Bool) : Option Lexer := do
  let l ← l.dropKey
  let (text, cursor) ← Scalar.block literal l.floor (l.cursor.skip 1)
  some ({ l with keyAllowed := true, cursor }.emit
    (.scalar (String.ofList text) (if literal then .literal else .folded)))

def takeQuoted (l : Lexer) (single : Bool) : Option Lexer := do
  let l ← l.saveKey
  let c := l.cursor.skip 1
  let (text, cursor) ← Scalar.quoted single (c.rest.length + 1) [] c
  some ({ l with keyAllowed := false, cursor }.emit
    (.scalar (String.ofList text.reverse) .quoted))

/-- After a text that ended with its line a key may start. -/
def takePlain (l : Lexer) : Option Lexer := do
  let l ← l.saveKey
  let (text, gap, cursor) ← Scalar.plain l.inFlow l.floor l.cursor.rest.length [] {} l.cursor
  some ({ l with keyAllowed := gap.isBroken, cursor }.emit
    (.scalar (String.ofList text.reverse) .plain))

def reserved : List Char :=
  ['-', '?', ':', ',', '[', ']', '\x7b', '\x7d', '#', '&', '*', '!', '|', '>', '\'', '"', '%', '@',
   '\x60']

def startsPlain (inFlow : Bool) (c : Char) (cs : List Char) : Bool :=
  !(isBlank c || isBreak c || reserved.contains c) ||
    (c == '-' && !cs.head?.any isBlank) ||
    (!inFlow && (c == '?' || c == ':') && !atGap cs)

def take (l : Lexer) (c : Char) (cs : List Char) : Option Lexer :=
  if l.cursor.column == 0 && c == '%' then l.takeDirective
  else if l.cursor.atDocumentMark then
    l.takeDocumentMark (if c = '-' then .documentStart else .documentEnd)
  else if c == '[' then l.takeFlowStart .flowSequenceStart
  else if c == '\x7b' then l.takeFlowStart .flowMappingStart
  else if c == ']' then l.takeFlowEnd .flowSequenceEnd
  else if c == '\x7d' then l.takeFlowEnd .flowMappingEnd
  else if c == ',' then l.takeFlowEntry
  else if c == '-' && atGap cs then l.takeBlockEntry
  else if c == '?' && (l.inFlow || atGap cs) then l.takeKey
  else if c == ':' && (l.inFlow || atGap cs) then l.takeValue
  else if c == '*' then l.takeName .alias
  else if c == '&' then l.takeName .anchor
  else if c == '!' then l.takeTag
  else if c == '|' && !l.inFlow then l.takeBlock true
  else if c == '>' && !l.inFlow then l.takeBlock false
  else if c == '\'' then l.takeQuoted true
  else if c == '"' then l.takeQuoted false
  else if startsPlain l.inFlow c cs then l.takePlain
  else none

def run : Nat → Lexer → Option (List Token)
  | 0, _ => none
  | fuel + 1, l => do
    let l ← l.advance
    match l.cursor.rest with
    | [] => (← l.mark).tokens.reverse
    | c :: cs => run fuel (← l.take c cs)

end Lexer

def Token.all (cs : List Char) : Option (List Token) :=
  if cs.all isPrintable then Lexer.run (cs.length + 1) { cursor := { rest := cs } } else none

end MeshTelemetry.Yaml
