import MeshTelemetry.Data.KeyMap
import MeshTelemetry.Proofs.Data.Table

/-! What a map in key order holds, said through its names. Two maps that find the
same values are the same map, since the order leaves no freedom. -/

set_option autoImplicit false

namespace MeshTelemetry.KeyMap

variable {α : Type}

theorem pairwise_keys (m : KeyMap α) : m.keys.Pairwise (· < ·) :=
  List.pairwise_map.mpr m.sorted

theorem nodup_keys (m : KeyMap α) : m.keys.Nodup :=
  List.Pairwise.imp (fun h => String.ne_of_lt h) (pairwise_keys m)

theorem nodup_entries (m : KeyMap α) : m.entries.Nodup :=
  List.Pairwise.imp (fun h heq => String.ne_of_lt h (congrArg Prod.fst heq)) m.sorted

theorem get?_eq_some_iff (m : KeyMap α) (k : String) (a : α) :
    m.get? k = some a ↔ (k, a) ∈ m.entries :=
  Table.lookup_eq_some_iff m.nodup_keys

theorem mem_keys_iff (m : KeyMap α) (k : String) : k ∈ m.keys ↔ ∃ a, m.get? k = some a := by
  simp only [keys, List.mem_map, get?_eq_some_iff]
  constructor
  · rintro ⟨⟨j, a⟩, hmem, rfl⟩
    exact ⟨a, hmem⟩
  · rintro ⟨a, hmem⟩
    exact ⟨(k, a), hmem, rfl⟩

theorem ext_get? {m n : KeyMap α} (h : ∀ k, m.get? k = n.get? k) : m = n := by
  have hperm : m.entries.Perm n.entries := by
    rw [List.perm_ext_iff_of_nodup m.nodup_entries n.nodup_entries]
    rintro ⟨k, a⟩
    rw [← get?_eq_some_iff, ← get?_eq_some_iff, h]
  have heq : m.entries = n.entries := by
    refine hperm.eq_of_pairwise (fun a b _ _ hab hba => ?_) m.sorted n.sorted
    exact absurd (String.lt_trans hab hba) (String.lt_irrefl _)
  obtain ⟨es, hes⟩ := m
  obtain ⟨fs, hfs⟩ := n
  cases heq
  rfl

/-- Inserting entries one after another: each name keeps the last value given. -/
theorem get?_foldl_insert (es : List (String × α)) (m : KeyMap α) (k : String) :
    (es.foldl (fun m e => m.insert e.1 e.2) m).get? k =
      (es.reverse.lookup k).or (m.get? k) := by
  induction es generalizing m with
  | nil => rfl
  | cons e es ih =>
    rw [List.foldl_cons, ih, get?_insert, List.reverse_cons, List.lookup_append, Table.lookup_cons,
      List.lookup_nil, Option.or_assoc]
    by_cases he : e.1 = k <;> simp [he]

theorem get?_ofList (es : List (String × α)) (k : String) :
    (ofList es).get? k = es.reverse.lookup k := by
  rw [ofList, get?_foldl_insert, get?_empty, Option.or_none]

theorem mem_of_mem_ofList {es : List (String × α)} {e : String × α}
    (h : e ∈ (ofList es).entries) : e ∈ es := by
  rw [← get?_eq_some_iff, get?_ofList] at h
  exact List.mem_reverse.mp (Table.mem_of_lookup h)

/-- Where all entries of a name agree, the order of the entries does not matter. -/
theorem get?_ofList_eq_some_iff {es : List (String × α)} {k : String} {a : α}
    (agree : ∀ b, (k, b) ∈ es → (k, a) ∈ es → b = a) :
    (ofList es).get? k = some a ↔ (k, a) ∈ es := by
  rw [get?_ofList]
  constructor
  · intro h
    exact List.mem_reverse.mp (Table.mem_of_lookup h)
  · intro h
    obtain ⟨b, hb⟩ := Table.exists_lookup_of_mem (List.mem_reverse.mpr h)
    rw [hb, agree b (List.mem_reverse.mp (Table.mem_of_lookup hb)) h]

theorem mem_keys_ofList (es : List (String × α)) (k : String) :
    k ∈ (ofList es).keys ↔ ∃ a, (k, a) ∈ es := by
  rw [mem_keys_iff]
  constructor
  · rintro ⟨a, h⟩
    rw [get?_ofList] at h
    exact ⟨a, List.mem_reverse.mp (Table.mem_of_lookup h)⟩
  · rintro ⟨a, h⟩
    rw [get?_ofList]
    exact Table.exists_lookup_of_mem (List.mem_reverse.mpr h)

theorem ofList_entries (m : KeyMap α) : ofList m.entries = m := by
  apply ext_get?
  intro k
  apply Option.ext
  intro a
  rw [get?_ofList_eq_some_iff, get?_eq_some_iff]
  intro b hb ha
  rw [← get?_eq_some_iff] at hb ha
  exact Option.some.inj (hb.symm.trans ha)

theorem get?_ofList_map {β : Type} (m : KeyMap α) (f : α → β) (k : String) :
    (ofList (m.entries.map fun e => (e.1, f e.2))).get? k = (m.get? k).map f := by
  have hmem : ∀ b, (k, b) ∈ m.entries.map (fun e => (e.1, f e.2)) ↔ (m.get? k).map f = some b := by
    intro b
    rw [List.mem_map, Option.map_eq_some_iff]
    constructor
    · rintro ⟨⟨j, a⟩, ha, heq⟩
      cases heq
      exact ⟨a, (get?_eq_some_iff m j a).mpr ha, rfl⟩
    · rintro ⟨a, ha, rfl⟩
      exact ⟨(k, a), (get?_eq_some_iff m k a).mp ha, rfl⟩
  apply Option.ext
  intro b
  rw [get?_ofList_eq_some_iff, hmem]
  intro b' hb' hb
  exact Option.some.inj (((hmem b').mp hb').symm.trans ((hmem b).mp hb))

end MeshTelemetry.KeyMap
