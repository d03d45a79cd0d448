import MeshTelemetry.Data.Table

/-! Maps from names to values, in the order of the names. The order of code
points is also the order of UTF-8 bytes, so listings come out byte by byte. -/

set_option autoImplicit false

namespace MeshTelemetry

structure KeyMap (α : Type) where
  entries : List (String × α)
  sorted : entries.Pairwise fun a b => a.1 < b.1
deriving DecidableEq

namespace KeyMap

variable {α : Type}

def empty : KeyMap α := ⟨[], List.Pairwise.nil⟩

instance : EmptyCollection (KeyMap α) := ⟨empty⟩
instance : Inhabited (KeyMap α) := ⟨empty⟩

def put (k : String) (a : α) : List (String × α) → List (String × α)
  | [] => [(k, a)]
  | e :: es =>
    if k < e.1 then (k, a) :: e :: es
    else if k = e.1 then (k, a) :: es
    else e :: put k a es

theorem mem_put {k : String} {a : α} {es : List (String × α)} {x : String × α}
    (h : x ∈ put k a es) : x = (k, a) ∨ x ∈ es := by
  fun_induction put k a es <;> grind

theorem sorted_put {k : String} {a : α} {es : List (String × α)}
    (h : es.Pairwise fun a b => a.1 < b.1) : (put k a es).Pairwise fun a b => a.1 < b.1 := by
  induction es with
  | nil => simp [put]
  | cons e es ih =>
    obtain ⟨he, hes⟩ := List.pairwise_cons.mp h
    unfold put
    split
    · rename_i hk
      refine List.pairwise_cons.mpr ⟨fun x hx => ?_, h⟩
      rcases List.mem_cons.mp hx with rfl | hx
      · exact hk
      · exact String.lt_trans hk (he x hx)
    · split
      · rename_i hk
        exact List.pairwise_cons.mpr ⟨fun x hx => hk ▸ he x hx, hes⟩
      · rename_i hlt hne
        refine List.pairwise_cons.mpr ⟨fun x hx => ?_, ih hes⟩
        rcases mem_put hx with rfl | hx
        · rcases Std.lt_trichotomy k e.1 with h | h | h
          · exact absurd h hlt
          · exact absurd h hne
          · exact h
        · exact he x hx

def insert (m : KeyMap α) (k : String) (a : α) : KeyMap α :=
  ⟨put k a m.entries, sorted_put m.sorted⟩

/-- The map of a list of entries; of equal names the last counts. -/
def ofList (es : List (String × α)) : KeyMap α := es.foldl (fun m e => m.insert e.1 e.2) ∅

def get? (m : KeyMap α) (k : String) : Option α := m.entries.lookup k

def keys (m : KeyMap α) : List String := m.entries.map Prod.fst

theorem lookup_put (k j : String) (a : α) (es : List (String × α)) :
    (put k a es).lookup j = if k = j then some a else es.lookup j := by
  fun_induction put k a es with
  | case1 => simp [Table.lookup_cons]
  | case2 => rw [Table.lookup_cons]
  | case3 e es hlt heq =>
    rw [Table.lookup_cons, Table.lookup_cons, ← heq]
    split <;> rfl
  | case4 e es hlt hne ih =>
    rw [Table.lookup_cons, Table.lookup_cons, ih]
    by_cases hj : e.1 = j
    · subst hj
      rw [if_pos rfl, if_pos rfl, if_neg hne]
    · rw [if_neg hj, if_neg hj]

@[simp] theorem get?_insert (m : KeyMap α) (k j : String) (a : α) :
    (m.insert k a).get? j = if k = j then some a else m.get? j := lookup_put k j a m.entries

@[simp] theorem get?_empty (k : String) : (∅ : KeyMap α).get? k = none := rfl

end KeyMap
end MeshTelemetry
