import MeshTelemetry.Json.Numeral
import MeshTelemetry.Numeric.Radix
import MeshTelemetry.Text.Utf8

/-! The tokens of a JSON text. A token that is well formed but has no value, such
as a number out of range or a string with half a surrogate pair, is still a
token: whether that matters depends on whether anyone reads it. Where the text
itself breaks, the tokens end in a fault. -/

set_option autoImplicit false

namespace MeshTelemetry.Json

open Text (Symbol)

inductive Token
  | openArray
  | closeArray
  | openObject
  | closeObject
  | comma
  | colon
  | null
  | bool (b : Bool)
  | number (value : Option Number)
  | string (value : Option String)
  | fault
deriving Inhabited

def isSpace : Symbol → Bool
  | some c => c == ' ' || c == '\t' || c == '\n' || c == '\r'
  | none => false

namespace Token

/-! Numerals -/

def isDigit : Symbol → Bool
  | some c => c.isDigit
  | none => false

def digitValue : Symbol → Nat
  | some c => c.toNat - 48
  | none => 0

def digits (cs : List Symbol) : List Nat := (cs.takeWhile isDigit).map digitValue

def afterDigits (cs : List Symbol) : List Symbol := cs.dropWhile isDigit

theorem length_afterDigits (cs : List Symbol) : (afterDigits cs).length ≤ cs.length :=
  (List.dropWhile_sublist _).length_le

def wholePart (cs : List Symbol) : Option (List Nat × List Symbol) :=
  match digits cs with
  | [] => none
  | 0 :: _ :: _ => none
  | ds => some (ds, afterDigits cs)

def fractionPart : List Symbol → Option (Option (List Nat) × List Symbol)
  | some '.' :: cs =>
    match digits cs with
    | [] => none
    | ds => some (some ds, afterDigits cs)
  | cs => some (none, cs)

def exponentDigits (down : Bool) (cs : List Symbol) :
    Option (Option (Bool × List Nat) × List Symbol) :=
  match digits cs with
  | [] => none
  | ds => some (some (down, ds), afterDigits cs)

def exponentSign : List Symbol → Option (Option (Bool × List Nat) × List Symbol)
  | some '-' :: cs => exponentDigits true cs
  | some '+' :: cs => exponentDigits false cs
  | cs => exponentDigits false cs

def exponentPart : List Symbol → Option (Option (Bool × List Nat) × List Symbol)
  | some 'e' :: cs => exponentSign cs
  | some 'E' :: cs => exponentSign cs
  | cs => some (none, cs)

def numeral (negative : Bool) (cs : List Symbol) : Option (Numeral × List Symbol) := do
  let (whole, cs) ← wholePart cs
  let (fraction, cs) ← fractionPart cs
  let (exponent, cs) ← exponentPart cs
  pure (⟨negative, whole, fraction, exponent⟩, cs)

theorem length_afterDigits_lt {cs : List Symbol} (h : digits cs ≠ []) :
    (afterDigits cs).length < cs.length := by
  cases cs with
  | nil => simp [digits] at h
  | cons c cs =>
    by_cases hc : isDigit c
    · have := length_afterDigits cs
      simp only [afterDigits, List.dropWhile_cons, hc, if_true, List.length_cons] at this ⊢
      omega
    · simp [digits, hc] at h

theorem length_wholePart {cs rest : List Symbol} {ds : List Nat}
    (h : wholePart cs = some (ds, rest)) : rest.length < cs.length := by
  unfold wholePart at h
  split at h
  · cases h
  · cases h
  · rename_i hne _
    simp only [Option.some.injEq, Prod.mk.injEq] at h
    exact h.2 ▸ length_afterDigits_lt hne

theorem length_fractionPart {cs rest : List Symbol} {f : Option (List Nat)}
    (h : fractionPart cs = some (f, rest)) : rest.length ≤ cs.length := by
  unfold fractionPart at h
  split at h
  · rename_i tail
    split at h
    · cases h
    · simp only [Option.some.injEq, Prod.mk.injEq] at h
      have := length_afterDigits tail
      simp only [← h.2, List.length_cons]; omega
  · simp only [Option.some.injEq, Prod.mk.injEq] at h
    exact h.2 ▸ Nat.le_refl _

theorem length_exponentDigits {down : Bool} {cs rest : List Symbol} {e : Option (Bool × List Nat)}
    (h : exponentDigits down cs = some (e, rest)) : rest.length ≤ cs.length := by
  unfold exponentDigits at h
  split at h
  · cases h
  · simp only [Option.some.injEq, Prod.mk.injEq] at h
    exact h.2 ▸ length_afterDigits cs

theorem length_exponentSign {cs rest : List Symbol} {e : Option (Bool × List Nat)}
    (h : exponentSign cs = some (e, rest)) : rest.length ≤ cs.length := by
  unfold exponentSign at h
  split at h
  · exact Nat.le_succ_of_le (length_exponentDigits h)
  · exact Nat.le_succ_of_le (length_exponentDigits h)
  · exact length_exponentDigits h

theorem length_exponentPart {cs rest : List Symbol} {e : Option (Bool × List Nat)}
    (h : exponentPart cs = some (e, rest)) : rest.length ≤ cs.length := by
  unfold exponentPart at h
  split at h
  · have := length_exponentSign h; simp only [List.length_cons]; omega
  · have := length_exponentSign h; simp only [List.length_cons]; omega
  · simp only [Option.some.injEq, Prod.mk.injEq] at h
    exact h.2 ▸ Nat.le_refl _

theorem length_numeral {negative : Bool} {cs rest : List Symbol} {n : Numeral}
    (h : numeral negative cs = some (n, rest)) : rest.length < cs.length := by
  unfold numeral at h
  obtain ⟨⟨_, a⟩, ha, h⟩ := Option.bind_eq_some_iff.mp h
  obtain ⟨⟨_, b⟩, hb, h⟩ := Option.bind_eq_some_iff.mp h
  obtain ⟨⟨_, c⟩, hc, h⟩ := Option.bind_eq_some_iff.mp h
  simp only [Option.pure_def, Option.some.injEq, Prod.mk.injEq] at h
  have := length_wholePart ha
  have := length_fractionPart hb
  have := length_exponentPart hc
  rw [← h.2]; omega

/-! Strings -/

/-- A piece of a string: a character, a 16-bit unit given by its code, or a byte
that belongs to no character. -/
inductive Piece
  | char (c : Char)
  | unit (n : Nat)
  | gap

def hexUnit? (a b c d : Char) : Option Nat := Radix.read? 16 UInt16.size [a, b, c, d]

def shortEscape? : Char → Option Char
  | '"' => some '"'
  | '\\' => some '\\'
  | '/' => some '/'
  | 'b' => some '\x08'
  | 'f' => some '\x0c'
  | 'n' => some '\n'
  | 'r' => some '\r'
  | 't' => some '\t'
  | _ => none

/-- The pieces up to the closing quote, newest first on `acc`, and the rest. An
open end, a bare control character or an unknown escape breaks the text. -/
def pieces (acc : List Piece) : List Symbol → Option (List Piece × List Symbol)
  | [] => none
  | none :: cs => pieces (.gap :: acc) cs
  | some '"' :: cs => some (acc.reverse, cs)
  | some '\\' :: some 'u' :: some a :: some b :: some c :: some d :: cs =>
    match hexUnit? a b c d with
    | some n => pieces (.unit n :: acc) cs
    | none => none
  | some '\\' :: some e :: cs =>
    match shortEscape? e with
    | some c => pieces (.char c :: acc) cs
    | none => none
  | some '\\' :: _ => none
  | some c :: cs => if c < ' ' then none else pieces (.char c :: acc) cs

theorem length_pieces {cs rest : List Symbol} {acc ps : List Piece}
    (h : pieces acc cs = some (ps, rest)) : rest.length ≤ cs.length := by
  fun_induction pieces acc cs <;> simp_all only [Option.some.injEq, Prod.mk.injEq,
    List.length_cons, reduceCtorEq, forall_const] <;> omega

def isLeading (n : Nat) : Bool := decide (0xD800 ≤ n ∧ n ≤ 0xDBFF)

def isTrailing (n : Nat) : Bool := decide (0xDC00 ≤ n ∧ n ≤ 0xDFFF)

/-- The characters of a string: leading and trailing units pair up, and neither
stands alone. -/
def assemble (acc : List Char) : List Piece → Option (List Char)
  | [] => some acc.reverse
  | .char c :: ps => assemble (c :: acc) ps
  | .gap :: _ => none
  | .unit n :: .unit m :: ps =>
    if isLeading n then
      if isTrailing m then
        assemble (Char.ofNat (0x10000 + (n - 0xD800) * 0x400 + (m - 0xDC00)) :: acc) ps
      else none
    else if isTrailing n then none
    else assemble (Char.ofNat n :: acc) (.unit m :: ps)
  | .unit n :: ps =>
    if isLeading n || isTrailing n then none else assemble (Char.ofNat n :: acc) ps

/-! One token -/

def word? : List Char → List Symbol → Option (List Symbol)
  | [], cs => some cs
  | w :: ws, some c :: cs => if w = c then word? ws cs else none
  | _ :: _, _ => none

def ofWord (word : List Char) (token : Token) (cs : List Symbol) : Token × List Symbol :=
  match word? word cs with
  | some rest => (token, rest)
  | none => (fault, [])

def ofNumeral (negative : Bool) (cs : List Symbol) : Token × List Symbol :=
  match numeral negative cs with
  | some (n, rest) => (number n.value?, rest)
  | none => (fault, [])

def ofQuoted (cs : List Symbol) : Token × List Symbol :=
  match pieces [] cs with
  | some (ps, rest) => (string ((assemble [] ps).map String.ofList), rest)
  | none => (fault, [])

theorem length_word {word : List Char} {cs rest : List Symbol}
    (h : word? word cs = some rest) : rest.length ≤ cs.length := by
  fun_induction word? word cs <;> simp_all only [Option.some.injEq, List.length_cons,
    reduceCtorEq, forall_const] <;> omega

theorem length_ofWord (word : List Char) (token : Token) (cs : List Symbol) :
    (ofWord word token cs).2.length ≤ cs.length := by
  unfold ofWord; split
  · exact length_word ‹_›
  · simp

theorem length_ofNumeral (negative : Bool) (cs : List Symbol) :
    (ofNumeral negative cs).2.length ≤ cs.length - 1 := by
  unfold ofNumeral; split
  · have := length_numeral ‹_›; simp only; omega
  · simp

theorem length_ofQuoted (cs : List Symbol) : (ofQuoted cs).2.length ≤ cs.length := by
  unfold ofQuoted; split
  · exact length_pieces ‹_›
  · simp

def next (first : Symbol) (cs : List Symbol) : Token × List Symbol :=
  match first with
  | some '[' => (openArray, cs)
  | some ']' => (closeArray, cs)
  | some '\x7b' => (openObject, cs)
  | some '\x7d' => (closeObject, cs)
  | some ',' => (comma, cs)
  | some ':' => (colon, cs)
  | some 'n' => ofWord ['u', 'l', 'l'] null cs
  | some 't' => ofWord ['r', 'u', 'e'] (bool true) cs
  | some 'f' => ofWord ['a', 'l', 's', 'e'] (bool false) cs
  | some '"' => ofQuoted cs
  | some '-' => ofNumeral true cs
  | some c => if c.isDigit then ofNumeral false (first :: cs) else (fault, [])
  | none => (fault, [])

theorem length_next (first : Symbol) (cs : List Symbol) :
    (next first cs).2.length ≤ cs.length := by
  unfold next
  split <;> try simp only [Nat.le_refl]
  all_goals first
    | exact length_ofWord _ _ _
    | exact length_ofQuoted _
    | exact Nat.le_trans (length_ofNumeral _ _) (Nat.sub_le _ _)
    | (split
       · exact length_ofNumeral _ _
       · simp)
    | simp

/-- Append the tokens of a text to `acc`, newest first; nothing follows a fault. -/
def collect (acc : List Token) : List Symbol → List Token
  | [] => acc
  | c :: cs =>
    if isSpace c then collect acc cs
    else
      let step := next c cs
      match step.1 with
      | fault => fault :: acc
      | token => collect (token :: acc) step.2
termination_by cs => cs.length
decreasing_by
  · simp
  · have := length_next c cs
    simp only [List.length_cons]; omega

def all (cs : List Symbol) : List Token := (collect [] cs).reverse

end Token
end MeshTelemetry.Json
