/-! Tables from keys to values. A table is read by its keys; its entries keep the
order in which the keys first came, and no key is in it twice. -/

set_option autoImplicit false

namespace MeshTelemetry

structure Table (κ α : Type) where
  entries : List (κ × α)
  nodup : (entries.map Prod.fst).Nodup
deriving DecidableEq

namespace Table

variable {κ α : Type}

def empty : Table κ α := ⟨[], List.nodup_nil⟩

instance : EmptyCollection (Table κ α) := ⟨empty⟩
instance : Inhabited (Table κ α) := ⟨empty⟩

def size (t : Table κ α) : Nat := t.entries.length

def keys (t : Table κ α) : List κ := t.entries.map Prod.fst

def values (t : Table κ α) : List α := t.entries.map Prod.snd

variable [DecidableEq κ]

def get? (t : Table κ α) (k : κ) : Option α := t.entries.lookup k

def contains (t : Table κ α) (k : κ) : Bool := (t.get? k).isSome

/-- Replace the value of a key where it stands, or put a new key last. -/
def put (k : κ) (a : α) : List (κ × α) → List (κ × α)
  | [] => [(k, a)]
  | e :: es => if e.1 = k then (k, a) :: es else e :: put k a es

theorem mem_keys_put {k j : κ} {a : α} {es : List (κ × α)} :
    j ∈ (put k a es).map Prod.fst ↔ j = k ∨ j ∈ es.map Prod.fst := by
  induction es with
  | nil => simp [put]
  | cons e es ih =>
    by_cases h : e.1 = k
    · simp [put, h]
    · simp only [put, h, if_false, List.map_cons, List.mem_cons, ih]
      grind only

theorem nodup_put {k : κ} {a : α} {es : List (κ × α)} (h : (es.map Prod.fst).Nodup) :
    ((put k a es).map Prod.fst).Nodup := by
  induction es with
  | nil => simp [put]
  | cons e es ih =>
    simp only [List.map_cons, List.nodup_cons] at h
    by_cases he : e.1 = k
    · rw [put, if_pos he, List.map_cons, List.nodup_cons]
      exact ⟨he ▸ h.1, h.2⟩
    · rw [put, if_neg he, List.map_cons, List.nodup_cons, mem_keys_put, not_or]
      exact ⟨⟨he, h.1⟩, ih h.2⟩

def insert (t : Table κ α) (k : κ) (a : α) : Table κ α := ⟨put k a t.entries, nodup_put t.nodup⟩

def erase (t : Table κ α) (k : κ) : Table κ α :=
  ⟨t.entries.filter (fun e => e.1 ≠ k), (List.filter_sublist.map _).nodup t.nodup⟩

@[simp] theorem get?_empty (k : κ) : (∅ : Table κ α).get? k = none := rfl

theorem lookup_cons (e : κ × α) (es : List (κ × α)) (k : κ) :
    (e :: es).lookup k = if e.1 = k then some e.2 else es.lookup k := by
  rw [List.lookup_cons]
  by_cases h : e.1 = k
  · rw [if_pos h, beq_iff_eq.mpr h.symm]
  · rw [if_neg h, beq_eq_false_iff_ne.mpr (Ne.symm h)]

theorem lookup_put (k j : κ) (a : α) (es : List (κ × α)) :
    (put k a es).lookup j = if k = j then some a else es.lookup j := by
  induction es with
  | nil => simp [put, lookup_cons]
  | cons e es ih =>
    by_cases he : e.1 = k
    · by_cases h : k = j <;> simp [put, lookup_cons, he, h]
    · by_cases hj : e.1 = j
      · subst hj
        simp [put, lookup_cons, he, Ne.symm he]
      · simp [put, lookup_cons, he, hj, ih]

@[simp] theorem get?_insert (t : Table κ α) (k j : κ) (a : α) :
    (t.insert k a).get? j = if k = j then some a else t.get? j := lookup_put k j a t.entries

theorem lookup_filter (p : κ → Bool) (k : κ) (es : List (κ × α)) :
    (es.filter fun e => p e.1).lookup k = if p k = true then es.lookup k else none := by
  induction es with
  | nil => simp
  | cons e es ih =>
    by_cases he : e.1 = k
    · by_cases hp : p k = true <;> simp [lookup_cons, he, hp, ih]
    · by_cases hp : p e.1 = true <;> simp [lookup_cons, he, hp, ih]

@[simp] theorem get?_erase (t : Table κ α) (k j : κ) :
    (t.erase k).get? j = if k = j then none else t.get? j := by
  have hfind : (t.erase k).get? j = if decide (j ≠ k) = true then t.get? j else none :=
    lookup_filter (fun i => decide (i ≠ k)) j t.entries
  rw [hfind]
  by_cases h : k = j
  · simp [h]
  · simp [h, Ne.symm h]

theorem contains_iff_mem_keys (t : Table κ α) (k : κ) : t.contains k = true ↔ k ∈ t.keys := by
  simp only [contains, get?, List.lookup_isSome_iff, keys, List.mem_map, beq_iff_eq,
    eq_comm (a := k)]

end Table
end MeshTelemetry
