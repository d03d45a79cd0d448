import MeshTelemetry.Json.Document
import MeshTelemetry.Proofs.Json.NumberText
import MeshTelemetry.Proofs.Json.Strings

/-! What a written value reads as. Its tokens are those of the value, item by item and
member by member, and they build the document that mirrors the value: the same shape,
keys and strings, each number as its numeral gives it, and null for a number that is
not finite. -/

set_option autoImplicit false

namespace MeshTelemetry.Json

open Text (Symbol symbolsOf)

namespace Number

def token (n : Number) : Token := if n.hasNumeral then .number n.numeral.value? else .null

def document (n : Number) : Document := if n.hasNumeral then .number n.numeral.value? else .null

end Number

mutual

def tokens : Json → List Token
  | .null => [.null]
  | .bool b => [.bool b]
  | .number n => [n.token]
  | .string s => [.string (some s)]
  | .array [] => [.openArray, .closeArray]
  | .array (v :: vs) => .openArray :: (tokens v ++ itemTokens vs ++ [.closeArray])
  | .object [] => [.openObject, .closeObject]
  | .object ((k, v) :: ms) =>
    .openObject :: .string (some k) :: .colon :: (tokens v ++ memberTokens ms ++ [.closeObject])

def itemTokens : List Json → List Token
  | [] => []
  | v :: vs => .comma :: (tokens v ++ itemTokens vs)

def memberTokens : List (String × Json) → List Token
  | [] => []
  | (k, v) :: ms => .comma :: .string (some k) :: .colon :: (tokens v ++ memberTokens ms)

end

mutual

def document : Json → Document
  | .null => .null
  | .bool b => .bool b
  | .number n => n.document
  | .string s => .string (some s)
  | .array items => .array (itemDocuments items) true
  | .object ms => .object (memberDocuments ms) true

def itemDocuments : List Json → List Document
  | [] => []
  | v :: vs => document v :: itemDocuments vs

def memberDocuments : List (String × Json) → List (Option String × Document)
  | [] => []
  | (k, v) :: ms => (some k, document v) :: memberDocuments ms

end

/-! Tokens of a text -/

theorem symbolsOf_append (a b : String) : symbolsOf (a ++ b) = symbolsOf a ++ symbolsOf b := by
  rw [symbolsOf, String.toList_append, List.map_append, symbolsOf, symbolsOf]

theorem collect_next {acc : List Token} {c : Symbol} {cs rest : List Symbol} {t : Token}
    (hspace : isSpace c = false) (hnext : Token.next c cs = (t, rest)) (ht : t ≠ .fault) :
    Token.collect acc (c :: cs) = Token.collect (t :: acc) rest := by
  rw [Token.collect, hspace, if_neg (by decide)]
  simp only [hnext]

theorem collect_space (acc : List Token) {c : Symbol} (hspace : isSpace c = true)
    (cs : List Symbol) : Token.collect acc (c :: cs) = Token.collect acc cs := by
  rw [Token.collect, if_pos hspace]

/-- A text that is one token, whatever stands around it. -/
def IsToken (w : String) (t : Token) : Prop :=
  ∀ acc rest, Token.collect acc (symbolsOf w ++ rest) = Token.collect (t :: acc) rest

theorem isToken_openArray : IsToken "[" .openArray :=
  fun _ _ => collect_next rfl rfl nofun

theorem isToken_closeArray : IsToken "]" .closeArray :=
  fun _ _ => collect_next rfl rfl nofun

theorem isToken_openObject : IsToken "\x7b" .openObject :=
  fun _ _ => collect_next rfl rfl nofun

theorem isToken_closeObject : IsToken "\x7d" .closeObject :=
  fun _ _ => collect_next rfl rfl nofun

theorem isToken_comma : IsToken "," .comma :=
  fun _ _ => collect_next rfl rfl nofun

theorem isToken_colon : IsToken ": " .colon := by
  intro acc rest
  have hcolon : Token.collect acc (symbolsOf ": " ++ rest) =
      Token.collect (.colon :: acc) (some ' ' :: rest) := collect_next rfl rfl nofun
  rw [hcolon]
  exact collect_space _ rfl rest

theorem isToken_null : IsToken "null" .null := by
  intro acc rest
  apply collect_next rfl rfl
  intro h
  cases h

theorem isToken_bool (b : Bool) : IsToken (if b then "true" else "false") (.bool b) := by
  intro acc rest
  cases b
  · exact collect_next rfl rfl nofun
  · exact collect_next rfl rfl nofun

theorem isToken_quote (s : String) : IsToken (quote s) (.string (some s)) := by
  intro acc rest
  rw [symbolsOf, quote, String.toList_ofList]
  exact collect_next rfl (ofQuoted_escapes s rest) nofun

theorem isSpace_of_isDigit {c : Char} (h : c.isDigit = true) : isSpace (some c) = false := by
  have hne : ∀ d : Char, d.isDigit = false → (c == d) = false := by
    intro d hd
    rw [beq_eq_false_iff_ne]
    rintro rfl
    rw [h] at hd
    cases hd
  simp only [isSpace, hne ' ' rfl, hne '\t' rfl, hne '\n' rfl, hne '\r' rfl, Bool.or_false]

theorem next_of_isDigit {c : Char} (h : c.isDigit = true) (cs : List Symbol) :
    Token.next (some c) cs = Token.ofNumeral false (some c :: cs) := by
  unfold Token.next
  split <;> rename_i heq <;> cases heq
  -- Every other character that begins a token is no digit.
  any_goals cases h
  rw [if_pos h]

/-- A number is one token, unless what follows goes on with its numeral. -/
theorem collect_number (n : Number) (acc : List Token) {rest : List Symbol}
    (hrest : EndsNumeral rest) :
    Token.collect acc (symbolsOf n.text ++ rest) = Token.collect (n.token :: acc) rest := by
  cases hnumeral : n.hasNumeral with
  | false =>
    rw [Number.text_of_not_hasNumeral hnumeral, Number.token, hnumeral]
    exact isToken_null acc rest
  | true =>
    have hread := Spelling.numeral_append n.wellFormed_spelling n.isNegative hrest
    rw [symbolsOf, Number.text_of_hasNumeral hnumeral, Number.token, if_pos hnumeral]
    cases hnegative : n.isNegative with
    | true =>
      rw [hnegative] at hread
      have hnext : Token.next (some '-') (n.spelling.chars.map some ++ rest) =
          (.number n.numeral.value?, rest) := by
        show Token.ofNumeral true _ = _
        rw [Token.ofNumeral, hread, Number.numeral, hnegative]
      exact collect_next rfl hnext fun h => Token.noConfusion h
    | false =>
      rw [hnegative] at hread
      obtain ⟨c, cs, hchars⟩ := List.exists_cons_of_ne_nil n.wellFormed_spelling.whole.1
      have hdigit : c.isDigit = true :=
        n.wellFormed_spelling.whole.2 c (hchars ▸ List.mem_cons_self ..)
      have hfirst : n.spelling.chars = c :: (cs ++ (n.spelling.fractionChars ++
          n.spelling.exponentChars)) := by
        rw [Spelling.chars, hchars, List.cons_append]
      rw [hfirst, List.map_cons, List.cons_append] at hread
      rw [if_neg (by decide), hfirst, List.map_cons, List.cons_append]
      have hnext := next_of_isDigit hdigit
        ((cs ++ (n.spelling.fractionChars ++ n.spelling.exponentChars)).map some ++ rest)
      rw [Token.ofNumeral, hread] at hnext
      rw [Number.numeral, hnegative]
      exact collect_next (isSpace_of_isDigit hdigit) hnext fun h => Token.noConfusion h

/-! Texts that grow at the end -/

/-- The tokens of a text are these, whatever comes after it. -/
def Closed (out : String) (ts : List Token) : Prop :=
  ∀ rest, Token.collect [] (symbolsOf out ++ rest) = Token.collect ts.reverse rest

/-- The tokens of a text are these, unless what comes after it goes on with a numeral. -/
def Open (out : String) (ts : List Token) : Prop :=
  ∀ rest, EndsNumeral rest →
    Token.collect [] (symbolsOf out ++ rest) = Token.collect ts.reverse rest

variable {out w : String} {ts : List Token} {t : Token}

theorem Closed.isOpen (h : Closed out ts) : Open out ts := fun rest _ => h rest

theorem Closed.append (h : Closed out ts) (hw : IsToken w t) : Closed (out ++ w) (ts ++ [t]) := by
  intro rest
  rw [symbolsOf_append, List.append_assoc, h, hw, List.reverse_append]
  rfl

/-- A text that begins like no continuation of a numeral. -/
def Delimits (w : String) : Prop := ∀ rest, EndsNumeral (symbolsOf w ++ rest)

theorem Open.append (h : Open out ts) (hends : Delimits w) (hw : IsToken w t) :
    Closed (out ++ w) (ts ++ [t]) := by
  intro rest
  rw [symbolsOf_append, List.append_assoc, h _ (hends rest), hw, List.reverse_append]
  rfl

theorem collect_newLine (depth : Nat) (acc : List Token) (rest : List Symbol) :
    Token.collect acc (symbolsOf (newLine depth) ++ rest) = Token.collect acc rest := by
  rw [symbolsOf, newLine, String.toList_ofList, List.map_cons, List.cons_append,
    collect_space _ rfl]
  induction 2 * depth with
  | zero => rfl
  | succ n ih =>
    rw [List.replicate_succ, List.map_cons, List.cons_append, collect_space _ rfl]
    exact ih

theorem endsNumeral_cons {c : Char} (h : Token.isDigit (some c) = false ∧ c ≠ '.' ∧ c ≠ 'e' ∧ c ≠ 'E')
    (rest : List Symbol) : EndsNumeral (some c :: rest) := by
  intro c' hc
  cases hc
  simpa using h

theorem delimits_newLine (depth : Nat) : Delimits (newLine depth) := by
  intro rest
  rw [symbolsOf, newLine, String.toList_ofList]
  exact endsNumeral_cons (by decide) _

theorem delimits_comma : Delimits "," := fun _ => endsNumeral_cons (by decide) _

theorem Open.newLine (h : Open out ts) (depth : Nat) : Closed (out ++ newLine depth) ts := by
  intro rest
  rw [symbolsOf_append, List.append_assoc, h _ (delimits_newLine depth rest), collect_newLine]

theorem Closed.number (h : Closed out ts) (n : Number) : Open (out ++ n.text) (ts ++ [n.token]) := by
  intro rest hrest
  rw [symbolsOf_append, List.append_assoc, h, collect_number n _ hrest, List.reverse_append]
  rfl

/-! Values -/

mutual

theorem writePretty_tokens (v : Json) (depth : Nat) {out : String} {ts : List Token}
    (h : Closed out ts) : Open (writePretty depth out v) (ts ++ tokens v) := by
  cases v with
  | null =>
    rw [writePretty, tokens]
    exact (h.append isToken_null).isOpen
  | bool b =>
    rw [writePretty, tokens]
    exact (h.append (isToken_bool b)).isOpen
  | number n =>
    rw [writePretty, tokens]
    exact h.number n
  | string s =>
    rw [writePretty, tokens]
    exact (h.append (isToken_quote s)).isOpen
  | array items =>
    cases items with
    | nil =>
      have hbrackets : out ++ "[]" = out ++ "[" ++ "]" := by
        rw [String.append_assoc]
        rfl
      rw [writePretty, tokens, hbrackets]
      simpa using ((h.append isToken_openArray).append isToken_closeArray).isOpen
    | cons v vs =>
      rw [writePretty, tokens]
      have hopen := (h.append isToken_openArray).isOpen.newLine (depth + 1)
      have hfirst := writePretty_tokens v (depth + 1) hopen
      have hrest := (writePrettyItems_tokens vs (depth + 1) hfirst).newLine depth
      have hclose := (hrest.append isToken_closeArray).isOpen
      simpa using hclose
  | object ms =>
    cases ms with
    | nil =>
      have hbraces : out ++ "\x7b\x7d" = out ++ "\x7b" ++ "\x7d" := by
        rw [String.append_assoc]
        rfl
      rw [writePretty, tokens, hbraces]
      simpa using ((h.append isToken_openObject).append isToken_closeObject).isOpen
    | cons m ms =>
      obtain ⟨k, v⟩ := m
      rw [writePretty, tokens]
      have hopen := (h.append isToken_openObject).isOpen.newLine (depth + 1)
      have hkey := (hopen.append (isToken_quote k)).append isToken_colon
      have hfirst := writePretty_tokens v (depth + 1) hkey
      have hrest := (writePrettyMembers_tokens ms (depth + 1) hfirst).newLine depth
      have hclose := (hrest.append isToken_closeObject).isOpen
      simpa using hclose

theorem writePrettyItems_tokens (vs : List Json) (depth : Nat) {out : String} {ts : List Token}
    (h : Open out ts) : Open (writePrettyItems depth out vs) (ts ++ itemTokens vs) := by
  cases vs with
  | nil =>
    rw [writePrettyItems, itemTokens, List.append_nil]
    exact h
  | cons v vs =>
    rw [writePrettyItems, itemTokens]
    have hcomma := (h.append delimits_comma isToken_comma).isOpen.newLine depth
    have hrest := writePrettyItems_tokens vs depth (writePretty_tokens v depth hcomma)
    simpa using hrest

theorem writePrettyMembers_tokens (ms : List (String × Json)) (depth : Nat) {out : String}
    {ts : List Token} (h : Open out ts) :
    Open (writePrettyMembers depth out ms) (ts ++ memberTokens ms) := by
  cases ms with
  | nil =>
    rw [writePrettyMembers, memberTokens, List.append_nil]
    exact h
  | cons m ms =>
    obtain ⟨k, v⟩ := m
    rw [writePrettyMembers, memberTokens]
    have hcomma := (h.append delimits_comma isToken_comma).isOpen.newLine depth
    have hkey := (hcomma.append (isToken_quote k)).append isToken_colon
    have hrest := writePrettyMembers_tokens ms depth (writePretty_tokens v depth hkey)
    simpa using hrest

end

theorem all_pretty (v : Json) : Token.all (symbolsOf v.pretty) = tokens v := by
  have hempty : Closed "" [] := fun _ => rfl
  have hopen := writePretty_tokens v 0 hempty [] (by rintro c ⟨⟩)
  rw [List.append_nil, List.nil_append] at hopen
  rw [Token.all, pretty, hopen, Token.collect, List.reverse_reverse]

/-! Documents -/

namespace Document

theorem step_token (frames : List Frame) (n : Number) :
    State.step ⟨frames, .value⟩ n.token = some ⟨frames, .after n.document⟩ := by
  unfold Number.token Number.document
  split <;> rfl

theorem run_cons {s s' : State} {t : Token} (h : s.step t = some s') (ts : List Token) :
    s.run (t :: ts) = s'.run ts := by
  rw [State.run, h]

/-- The first token of a value does not close an array, so an array that was opened
takes it like any other value. -/
theorem run_arrayOpened (frames : List Frame) (v : Json) (ts : List Token) :
    State.run ⟨frames, .arrayOpened⟩ (tokens v ++ ts) =
      State.run ⟨.array [] :: frames, .value⟩ (tokens v ++ ts) := by
  cases v with
  | null => rfl
  | bool b => rfl
  | number n =>
    rw [tokens, Number.token]
    cases n.hasNumeral <;> rfl
  | string s => rfl
  | array items => cases items <;> rfl
  | object ms => cases ms <;> rfl

mutual

theorem run_tokens (v : Json) (frames : List Frame) (ts : List Token) :
    State.run ⟨frames, .value⟩ (tokens v ++ ts) =
      State.run ⟨frames, .after (document v)⟩ ts := by
  cases v with
  | null => rfl
  | bool b => rfl
  | number n =>
    rw [tokens, document, List.singleton_append]
    exact run_cons (step_token frames n) ts
  | string s => rfl
  | array items =>
    cases items with
    | nil => rfl
    | cons v vs =>
      rw [tokens, document, itemDocuments, List.cons_append, run_cons rfl, List.append_assoc,
        List.append_assoc, run_arrayOpened, run_tokens v, List.singleton_append,
        run_itemTokens vs]
      rfl
  | object ms =>
    cases ms with
    | nil => rfl
    | cons m ms =>
      obtain ⟨k, v⟩ := m
      rw [tokens, document, memberDocuments, List.cons_append, run_cons rfl, List.cons_append,
        run_cons rfl, List.cons_append, run_cons rfl, List.append_assoc, List.append_assoc,
        run_tokens v, List.singleton_append, run_memberTokens ms]
      rfl

theorem run_itemTokens (vs : List Json) (ds : List Document) (d : Document)
    (frames : List Frame) (ts : List Token) :
    State.run ⟨.array ds :: frames, .after d⟩ (itemTokens vs ++ .closeArray :: ts) =
      State.run ⟨frames, .after (.array ((d :: ds).reverse ++ itemDocuments vs) true)⟩ ts := by
  cases vs with
  | nil =>
    rw [itemTokens, itemDocuments, List.nil_append, List.append_nil]
    exact run_cons rfl ts
  | cons v vs =>
    rw [itemTokens, itemDocuments, List.cons_append, run_cons rfl, List.append_assoc,
      run_tokens v, run_itemTokens vs]
    simp

theorem run_memberTokens (ms : List (String × Json)) (done : List (Option String × Document))
    (key : Option String) (d : Document) (frames : List Frame) (ts : List Token) :
    State.run ⟨.member done key :: frames, .after d⟩ (memberTokens ms ++ .closeObject :: ts) =
      State.run ⟨frames, .after (.object (((key, d) :: done).reverse ++ memberDocuments ms) true)⟩
        ts := by
  cases ms with
  | nil =>
    rw [memberTokens, memberDocuments, List.nil_append, List.append_nil]
    exact run_cons rfl ts
  | cons m ms =>
    obtain ⟨k, v⟩ := m
    rw [memberTokens, memberDocuments, List.cons_append, run_cons rfl, List.cons_append,
      run_cons rfl, List.cons_append, run_cons rfl, List.append_assoc, run_tokens v,
      run_memberTokens ms]
    simp

end

end Document

/-! Characters of a text -/

section Characters

variable {c : Char}

theorem mem_append_left {out : String} (h : c ∈ out.toList) (w : String) : c ∈ (out ++ w).toList := by
  rw [String.toList_append]
  exact List.mem_append_left _ h

mutual

/-- What a text holds it still holds when a value is written after it. -/
theorem mem_writePretty (v : Json) (depth : Nat) {out : String} (h : c ∈ out.toList) :
    c ∈ (writePretty depth out v).toList := by
  cases v with
  | null => exact mem_append_left h _
  | bool b => exact mem_append_left h _
  | number n => exact mem_append_left h _
  | string s => exact mem_append_left h _
  | array items =>
    cases items with
    | nil => exact mem_append_left h _
    | cons v vs =>
      rw [writePretty]
      have hopen := mem_append_left (mem_append_left h "[") (newLine (depth + 1))
      have hrest := mem_writePrettyItems vs (depth + 1) (mem_writePretty v (depth + 1) hopen)
      exact mem_append_left (mem_append_left hrest _) _
  | object ms =>
    cases ms with
    | nil => exact mem_append_left h _
    | cons m ms =>
      obtain ⟨k, v⟩ := m
      rw [writePretty]
      have hopen := mem_append_left (mem_append_left h "\x7b") (newLine (depth + 1))
      have hkey := mem_append_left (mem_append_left hopen (quote k)) ": "
      have hrest := mem_writePrettyMembers ms (depth + 1) (mem_writePretty v (depth + 1) hkey)
      exact mem_append_left (mem_append_left hrest _) _

theorem mem_writePrettyItems (vs : List Json) (depth : Nat) {out : String}
    (h : c ∈ out.toList) : c ∈ (writePrettyItems depth out vs).toList := by
  cases vs with
  | nil => exact h
  | cons v vs =>
    rw [writePrettyItems]
    have hcomma := mem_append_left (mem_append_left h ",") (newLine depth)
    exact mem_writePrettyItems vs depth (mem_writePretty v depth hcomma)

theorem mem_writePrettyMembers (ms : List (String × Json)) (depth : Nat) {out : String}
    (h : c ∈ out.toList) : c ∈ (writePrettyMembers depth out ms).toList := by
  cases ms with
  | nil => exact h
  | cons m ms =>
    obtain ⟨k, v⟩ := m
    rw [writePrettyMembers]
    have hcomma := mem_append_left (mem_append_left h ",") (newLine depth)
    have hkey := mem_append_left (mem_append_left hcomma (quote k)) ": "
    exact mem_writePrettyMembers ms depth (mem_writePretty v depth hkey)

end

end Characters

theorem parse_pretty (v : Json) : Document.parse (symbolsOf v.pretty) = (document v, true) := by
  have hrun := Document.run_tokens v [] []
  rw [List.append_nil] at hrun
  rw [Document.parse, all_pretty, hrun]
  rfl

end MeshTelemetry.Json
