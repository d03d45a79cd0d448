import MeshTelemetry.Data.Table

/-! What a table holds, said through its keys: the entries, keys and values of a
table are those that `get?` finds, and an update changes one key. Keys that are taken out
one after another are those that one filter takes out. -/

set_option autoImplicit false

namespace MeshTelemetry.Table

variable {κ α : Type} [DecidableEq κ]

theorem mem_of_lookup {k : κ} {a : α} {es : List (κ × α)} (h : es.lookup k = some a) :
    (k, a) ∈ es := by
  obtain ⟨_, _, rfl, -⟩ := List.lookup_eq_some_iff.mp h
  exact List.mem_append_right _ List.mem_cons_self

theorem exists_lookup_of_mem {k : κ} {a : α} {es : List (κ × α)} (h : (k, a) ∈ es) :
    ∃ b, es.lookup k = some b :=
  Option.isSome_iff_exists.mp (List.lookup_isSome_iff.mpr ⟨_, h, beq_self_eq_true k⟩)

theorem lookup_eq_some_iff {k : κ} {a : α} {es : List (κ × α)} (h : (es.map Prod.fst).Nodup) :
    es.lookup k = some a ↔ (k, a) ∈ es := by
  refine ⟨mem_of_lookup, fun hmem => ?_⟩
  obtain ⟨before, after, rfl⟩ := List.append_of_mem hmem
  refine List.lookup_eq_some_iff.mpr ⟨before, after, rfl, fun e he => ?_⟩
  rw [List.map_append, List.map_cons] at h
  have hother := (List.nodup_append.mp h).2.2 e.1 (List.mem_map_of_mem he) k List.mem_cons_self
  exact bne_iff_ne.mpr (Ne.symm hother)

theorem get?_eq_some_iff (t : Table κ α) (k : κ) (a : α) :
    t.get? k = some a ↔ (k, a) ∈ t.entries :=
  lookup_eq_some_iff t.nodup

theorem mem_values_iff (t : Table κ α) (a : α) : a ∈ t.values ↔ ∃ k, t.get? k = some a := by
  simp only [values, List.mem_map, get?_eq_some_iff]
  constructor
  · rintro ⟨⟨k, b⟩, hmem, rfl⟩
    exact ⟨k, hmem⟩
  · rintro ⟨k, hmem⟩
    exact ⟨(k, a), hmem, rfl⟩

theorem mem_keys_iff (t : Table κ α) (k : κ) : k ∈ t.keys ↔ ∃ a, t.get? k = some a := by
  rw [← contains_iff_mem_keys, contains, Option.isSome_iff_exists]

theorem contains_iff (t : Table κ α) (k : κ) : t.contains k = true ↔ ∃ a, t.get? k = some a := by
  rw [contains, Option.isSome_iff_exists]

theorem get?_eq_none_of_not_contains {t : Table κ α} {k : κ} (h : ¬ t.contains k = true) :
    t.get? k = none :=
  Option.not_isSome_iff_eq_none.mp h

/-! Filters -/

section Filters

variable {κ : Type} {t : Table κ α}

def filterKeys (p : κ → Bool) (t : Table κ α) : Table κ α :=
  ⟨t.entries.filter fun e => p e.1, (List.filter_sublist.map Prod.fst).nodup t.nodup⟩

theorem filterKeys_filterKeys (t : Table κ α) (p q : κ → Bool) :
    (t.filterKeys p).filterKeys q = t.filterKeys fun k => q k && p k := by
  simp only [filterKeys, List.filter_filter]

variable [DecidableEq κ]

theorem filterKeys_eq_self {p : κ → Bool} (h : ∀ k, t.contains k = true → p k = true) :
    t.filterKeys p = t := by
  have hall : ∀ e ∈ t.entries, p e.1 = true := by
    intro e he
    exact h e.1 ((contains_iff ..).mpr ⟨e.2, (get?_eq_some_iff ..).mpr he⟩)
  simp only [filterKeys, List.filter_eq_self.mpr hall]

theorem get?_filterKeys (t : Table κ α) (p : κ → Bool) (k : κ) :
    (t.filterKeys p).get? k = if p k = true then t.get? k else none := lookup_filter p k t.entries

end Filters

/-- The sum of what the values of a table bring. -/
def total {κ : Type} (f : α → Nat) (t : Table κ α) : Nat := t.values.foldr (fun a n => f a + n) 0

theorem foldr_put (f : α → Nat) (k : κ) (a : α) (es : List (κ × α)) :
    (put k a es).foldr (fun e n => f e.2 + n) 0 + ((es.lookup k).map f).getD 0 =
      es.foldr (fun e n => f e.2 + n) 0 + f a := by
  induction es with
  | nil => simp [put]
  | cons e es ih =>
    by_cases he : e.1 = k
    · simp only [put, lookup_cons, if_pos he, List.foldr_cons, Option.map_some, Option.getD_some]
      omega
    · simp only [put, lookup_cons, if_neg he, List.foldr_cons]
      omega

theorem total_insert (f : α → Nat) (t : Table κ α) (k : κ) (a : α) :
    (t.insert k a).total f + ((t.get? k).map f).getD 0 = t.total f + f a := by
  simp only [total, values, List.foldr_map]
  exact foldr_put f k a t.entries

end MeshTelemetry.Table
