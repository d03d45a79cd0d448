import MeshTelemetry.Proofs.Json.Printing

/-! How a text begins. Its first token begins at its first symbol that is not space, and a
text that is an object begins with an opening bracket. -/

set_option autoImplicit false

namespace MeshTelemetry.Json

open Text (Symbol)

variable {cs rest : List Symbol} {first : Symbol}

/-! The first token -/

namespace Token

variable {t : Token}

theorem collect_fault (acc : List Token) (hspace : isSpace first = false)
    (hfault : (next first cs).1 = fault) : collect acc (first :: cs) = fault :: acc := by
  rw [collect, hspace, if_neg (by decide)]
  simp only [hfault]

theorem suffix_collect (acc : List Token) (cs : List Symbol) : acc <:+ collect acc cs := by
  induction acc, cs using collect.induct with
  | case1 acc => simp [collect]
  | case2 acc c cs hspace ih =>
    rw [collect_space acc hspace]
    exact ih
  | case3 acc c cs hspace step hfault =>
    rw [collect_fault acc (Bool.eq_false_iff.mpr hspace) hfault]
    exact List.suffix_cons _ acc
  | case4 acc c cs hspace step hfault ih =>
    rw [collect_next (Bool.eq_false_iff.mpr hspace) rfl hfault]
    exact (List.suffix_cons _ acc).trans ih

theorem head?_all_cons_of_not_isSpace (h : isSpace first = false) (cs : List Symbol) :
    (all (first :: cs)).head? = some (next first cs).1 := by
  have hcollect : [(next first cs).1] <:+ collect [] (first :: cs) := by
    rcases Classical.em ((next first cs).1 = fault) with hfault | htoken
    · simp [collect_fault [] h hfault, hfault]
    · rw [collect_next h rfl htoken]
      exact suffix_collect _ _
  obtain ⟨later, hlater⟩ := hcollect
  rw [all, ← hlater, List.reverse_append]
  rfl

theorem all_cons_of_isSpace (h : isSpace first = true) (cs : List Symbol) :
    all (first :: cs) = all cs := by
  rw [all, collect_space [] h, all]

theorem all_append_of_isSpace {spaces : List Symbol} (h : ∀ s ∈ spaces, isSpace s = true)
    (cs : List Symbol) : all (spaces ++ cs) = all cs := by
  induction spaces with
  | nil => rfl
  | cons s spaces ih =>
    obtain ⟨hs, hrest⟩ := List.forall_mem_cons.mp h
    rw [List.cons_append, all_cons_of_isSpace hs, ih hrest]

/-- The first token of a text begins at the first symbol that is not space. -/
theorem exists_of_head?_all (h : (all cs).head? = some t) :
    ∃ spaces first rest, cs = spaces ++ first :: rest ∧ (∀ s ∈ spaces, isSpace s = true) ∧
      (next first rest).1 = t := by
  induction cs with
  | nil =>
    rw [all, collect] at h
    cases h
  | cons c cs ih =>
    cases hspace : isSpace c with
    | true =>
      rw [all_cons_of_isSpace hspace] at h
      obtain ⟨spaces, first, rest, rfl, hspaces, hnext⟩ := ih h
      exact ⟨c :: spaces, first, rest, rfl, List.forall_mem_cons.mpr ⟨hspace, hspaces⟩, hnext⟩
    | false =>
      rw [head?_all_cons_of_not_isSpace hspace] at h
      exact ⟨[], c, cs, rfl, List.forall_mem_nil _, Option.some.inj h⟩

theorem first_of_opens (h : (next first rest).1 = openArray ∨ (next first rest).1 = openObject) :
    first = some '[' ∨ first = some '\x7b' := by
  unfold next ofWord ofNumeral ofQuoted at h
  grind

end Token

/-! The text of an object -/

namespace Document

variable {d d' : Document} {ts : List Token} {ms : Members} {room : Nat}

theorem run_after (h : State.run ⟨[], .after d⟩ ts = (d', true)) : d = d' := by
  cases ts with
  | nil => exact (Prod.mk.inj h).1
  | cons t ts => cases (Prod.mk.inj h).2

/-- A value that does not open a container is the whole text. -/
theorem head?_of_run_object {members : List (Option String × Document)} {ended : Bool}
    (h : State.run ⟨[], .value⟩ ts = (.object members ended, true)) :
    ∃ t, ts.head? = some t ∧ (t = .openArray ∨ t = .openObject) := by
  cases ts with
  | nil => cases (Prod.mk.inj h).2
  | cons t ts =>
    cases t with
    | openArray => exact ⟨_, rfl, .inl rfl⟩
    | openObject => exact ⟨_, rfl, .inr rfl⟩
    | null | bool | number | string => cases run_after h
    | closeArray | closeObject | comma | colon | fault => cases (Prod.mk.inj h).2

theorem exists_object_of_value? (h : d.value? room = some (.object ms)) :
    ∃ members ended, d = .object members ended := by
  cases d with
  | object members ended => exact ⟨members, ended, rfl⟩
  | null | bool | broken =>
    rw [value?] at h
    cases h
  | number n =>
    rw [value?] at h
    obtain ⟨_, _, h⟩ := Option.map_eq_some_iff.mp h
    cases h
  | string s =>
    rw [value?] at h
    obtain ⟨_, _, h⟩ := Option.map_eq_some_iff.mp h
    cases h
  | array items ended =>
    unfold value? at h
    split at h
    · cases h
    · split at h
      · obtain ⟨_, _, h⟩ := Option.map_eq_some_iff.mp h
        cases h
      · cases h

end Document

theorem decode?_append_of_isSpace {spaces : List Symbol} (h : ∀ s ∈ spaces, isSpace s = true)
    (cs : List Symbol) : decode? (spaces ++ cs) = decode? cs := by
  rw [decode?, Document.parse, Token.all_append_of_isSpace h, decode?, Document.parse]

/-- A text that is an object begins, after its space, with an opening bracket. -/
theorem exists_of_decode?_object {ms : Members} (h : decode? cs = some (.object ms)) :
    ∃ spaces c rest, cs = spaces ++ some c :: rest ∧ (∀ s ∈ spaces, isSpace s = true) ∧
      (c = '[' ∨ c = '\x7b') := by
  unfold decode? at h
  split at h
  rename_i d ended hparse
  split at h
  · rename_i hended
    obtain ⟨members, ended', rfl⟩ := Document.exists_object_of_value? h
    rw [hended, Document.parse] at hparse
    obtain ⟨t, ht, hopens⟩ := Document.head?_of_run_object hparse
    obtain ⟨spaces, first, rest, rfl, hspaces, rfl⟩ := Token.exists_of_head?_all ht
    rcases Token.first_of_opens hopens with rfl | rfl
    · exact ⟨spaces, _, rest, rfl, hspaces, .inl rfl⟩
    · exact ⟨spaces, _, rest, rfl, hspaces, .inr rfl⟩
  · cases h

end MeshTelemetry.Json
