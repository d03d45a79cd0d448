import MeshTelemetry.Proofs.Text.Splitting
import MeshTelemetry.Topic

/-! Which topics a pattern selects, said of the segments in their places. A pattern without
`#` selects the topics of its own length that agree with it; a pattern whose only `#` stands
last selects those that agree with what stands before it, however they go on. A pattern with
any other `#` selects none. -/

set_option autoImplicit false

namespace MeshTelemetry.Topic

/-! Segments -/

def IsPath (topic : String) (ts : List (List Char)) : Prop :=
  if topic = "" then ts = [] else Text.IsSplit '/' topic.toList ts

theorem isPath_iff {topic : String} {ts : List (List Char)} :
    IsPath topic ts ↔ ts = segments topic := by
  unfold IsPath segments
  by_cases h : topic = ""
  · simp [h]
  · simp [h, Text.isSplit_iff]

/-! Agreement -/

variable {p t : List Char} {ps ts : List (List Char)}

/-- Each segment of a pattern is `+` or the topic's segment in its place, and none is `#`. -/
structure Agrees (ps ts : List (List Char)) : Prop where
  plain : ['#'] ∉ ps
  stands : ∀ i < ps.length, ps[i]? = some ['+'] ∨ ps[i]? = ts[i]?

theorem agrees_nil (ts : List (List Char)) : Agrees [] ts := ⟨List.not_mem_nil, nofun⟩

theorem agrees_cons_cons :
    Agrees (p :: ps) (t :: ts) ↔ p ≠ ['#'] ∧ (p = ['+'] ∨ p = t) ∧ Agrees ps ts := by
  have hstands : (∀ i < (p :: ps).length,
        (p :: ps)[i]? = some ['+'] ∨ (p :: ps)[i]? = (t :: ts)[i]?) ↔
      (p = ['+'] ∨ p = t) ∧ ∀ i < ps.length, ps[i]? = some ['+'] ∨ ps[i]? = ts[i]? := by
    simp only [List.length_cons, Nat.forall_lt_succ_left, List.getElem?_cons_zero,
      List.getElem?_cons_succ, Option.some.injEq]
  constructor
  · rintro ⟨plain, stands⟩
    obtain ⟨hfirst, hrest⟩ := hstands.mp stands
    exact ⟨Ne.symm (List.ne_of_not_mem_cons plain), hfirst, List.not_mem_of_not_mem_cons plain,
      hrest⟩
  · rintro ⟨hhash, hfirst, plain, stands⟩
    exact ⟨List.not_mem_cons_of_ne_of_not_mem (Ne.symm hhash) plain, hstands.mpr ⟨hfirst, stands⟩⟩

/-- Whether a pattern selects a topic, both told by their segments. -/
def Selects (ps ts : List (List Char)) : Prop :=
  (ts.length = ps.length ∧ Agrees ps ts) ∨
    ∃ start, ps = start ++ [['#']] ∧ start.length ≤ ts.length ∧ Agrees start ts

theorem selects_nil : Selects [] ts ↔ ts = [] := by
  constructor
  · rintro (⟨hlength, _⟩ | ⟨start, hstart, _⟩)
    · exact List.eq_nil_of_length_eq_zero hlength
    · simp at hstart
  · rintro rfl
    exact .inl ⟨rfl, agrees_nil []⟩

theorem selects_hash : Selects (['#'] :: ps) ts ↔ ps = [] := by
  constructor
  · rintro (⟨_, hagrees⟩ | ⟨start, hstart, _, hagrees⟩)
    · exact absurd List.mem_cons_self hagrees.plain
    · cases start with
      | nil => exact (List.cons.inj hstart).2
      | cons s start =>
        obtain ⟨rfl, _⟩ := List.cons.inj hstart
        exact absurd List.mem_cons_self hagrees.plain
  · rintro rfl
    exact .inr ⟨[], rfl, Nat.zero_le _, agrees_nil ts⟩

theorem not_selects_nil (hp : p ≠ ['#']) : ¬ Selects (p :: ps) [] := by
  rintro (⟨hlength, _⟩ | ⟨start, hstart, hshort, _⟩)
  · cases hlength
  · rw [List.eq_nil_of_length_eq_zero (Nat.le_zero.mp hshort)] at hstart
    exact hp (List.cons.inj hstart).1

theorem selects_cons_cons (hp : p ≠ ['#']) :
    Selects (p :: ps) (t :: ts) ↔ (p = ['+'] ∨ p = t) ∧ Selects ps ts := by
  constructor
  · rintro (⟨hlength, hagrees⟩ | ⟨start, hstart, hshort, hagrees⟩)
    · obtain ⟨_, hfirst, hrest⟩ := agrees_cons_cons.mp hagrees
      exact ⟨hfirst, .inl ⟨Nat.succ.inj hlength, hrest⟩⟩
    · cases start with
      | nil => exact absurd (List.cons.inj hstart).1 hp
      | cons s start =>
        obtain ⟨rfl, hps⟩ := List.cons.inj hstart
        obtain ⟨_, hfirst, hrest⟩ := agrees_cons_cons.mp hagrees
        exact ⟨hfirst, .inr ⟨start, hps, Nat.le_of_succ_le_succ hshort, hrest⟩⟩
  · rintro ⟨hfirst, ⟨hlength, hagrees⟩ | ⟨start, rfl, hshort, hagrees⟩⟩
    · exact .inl ⟨congrArg Nat.succ hlength, agrees_cons_cons.mpr ⟨hp, hfirst, hagrees⟩⟩
    · exact .inr ⟨p :: start, rfl, Nat.succ_le_succ hshort,
        agrees_cons_cons.mpr ⟨hp, hfirst, hagrees⟩⟩

theorem segmentsMatch_iff (ps ts : List (List Char)) :
    segmentsMatch ps ts = true ↔ Selects ps ts := by
  induction ps generalizing ts with
  | nil => cases ts <;> simp [segmentsMatch, selects_nil]
  | cons p ps ih =>
    by_cases hp : p = ['#']
    · rw [segmentsMatch.eq_def]
      simp [hp, selects_hash]
    · cases ts with
      | nil => simp [segmentsMatch, hp, not_selects_nil hp]
      | cons t ts => simp [segmentsMatch, hp, selects_cons_cons hp, ih]

/-! Selection -/

/-- Whether a pattern selects a topic. The empty pattern selects every one. -/
def Selected (topic pattern : String) : Prop :=
  pattern = "" ∨ ∃ ps ts, Text.IsSplit '/' pattern.toList ps ∧ IsPath topic ts ∧ Selects ps ts

theorem matchesPattern_iff {topic pattern : String} :
    matchesPattern topic pattern = true ↔ Selected topic pattern := by
  simp [matchesPattern, Selected, segmentsMatch_iff, Text.isSplit_iff, isPath_iff, patternSegments]

theorem passes_iff {topic : String} {patterns : List String} :
    passes topic patterns = true ↔
      patterns = [] ∨ ∃ pattern ∈ patterns, Selected topic pattern := by
  simp [passes, matchesPattern_iff]

/-- A topic matches exactly the patterns that select it, and passes a list of patterns if the
list is empty or one of them selects it. -/
theorem matching_iff_selected (topic : String) :
    (∀ pattern, matchesPattern topic pattern = true ↔ Selected topic pattern) ∧
      ∀ patterns, passes topic patterns = true ↔
        patterns = [] ∨ ∃ pattern ∈ patterns, Selected topic pattern :=
  ⟨fun _ => matchesPattern_iff, fun _ => passes_iff⟩

end MeshTelemetry.Topic
