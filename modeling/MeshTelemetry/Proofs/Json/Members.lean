import MeshTelemetry.Proofs.Data.KeyMap
import MeshTelemetry.Proofs.Json.Compact

/-! Values that read back. A text and a number of a node are themselves again once written and
read; so is an object of collected members, if its members are. -/

set_option autoImplicit false

namespace MeshTelemetry.Json

/-! Collected members -/

theorem collect_eq_entries (ms : Members) : collect ms = (KeyMap.ofList ms).entries := by
  -- Entries are put into the bare list just as into the map that also knows they are sorted.
  have hfold : ∀ (ms : Members) (m : KeyMap Json),
      ms.foldl (fun acc m => KeyMap.put m.1 m.2 acc) m.entries =
        (ms.foldl (fun m e => m.insert e.1 e.2) m).entries := by
    intro ms
    induction ms with
    | nil => exact fun m => rfl
    | cons e es ih => exact fun m => ih (m.insert e.1 e.2)
  exact hfold ms ∅

theorem member?_collect (ms : Members) (key : String) :
    member? (collect ms) key = member? ms.reverse key := by
  rw [collect_eq_entries]
  exact KeyMap.get?_ofList ms key

theorem collect_collect (ms : Members) : collect (collect ms) = collect ms := by
  rw [collect_eq_entries (collect ms), collect_eq_entries ms, KeyMap.ofList_entries]

theorem mem_of_mem_collect {ms : Members} {m : String × Json} (h : m ∈ collect ms) : m ∈ ms := by
  rw [collect_eq_entries] at h
  exact KeyMap.mem_of_mem_ofList h

/-! Reading back -/

/-- Whether a value is itself again when it is written and read, with this room for nesting. -/
def ReadsBack (room : Nat) (v : Json) : Prop := (document v).value? room = some v

variable {room : Nat}

theorem readsBack_string (room : Nat) (s : String) : ReadsBack room (.string s) := by
  rw [ReadsBack, document, Document.value?, Option.map_some]

theorem readsBack_uint32 (room : Nat) (n : UInt32) : ReadsBack room (.ofNat n.toNat) := by
  rw [ReadsBack, document_uint32, Document.value?, Option.map_some, ofNat]

theorem memberValues?_document {ms : Members} (acc : Members)
    (h : ∀ m ∈ ms, ReadsBack room m.2) :
    Document.memberValues? room acc (ms.map fun m => (some m.1, document m.2)) =
      some (ms.foldl (fun acc m => KeyMap.put m.1 m.2 acc) acc) := by
  induction ms generalizing acc with
  | nil => rw [List.map_nil, Document.memberValues?, List.foldl_nil]
  | cons m ms ih =>
    have hfirst : (document m.2).value? room = some m.2 := h m List.mem_cons_self
    rw [List.map_cons, Document.memberValues?, hfirst]
    exact ih _ fun m' hm' => h m' (List.mem_cons_of_mem m hm')

theorem value?_document_object {ms : Members} (h : ∀ m ∈ ms, ReadsBack room m.2) :
    (document (.object ms)).value? (room + 1) = some (.ofMembers ms) := by
  rw [document_object, Document.value?, if_pos rfl, memberValues?_document [] h]
  rfl

theorem readsBack_ofMembers {ms : Members} (h : ∀ m ∈ ms, ReadsBack room m.2) :
    ReadsBack (room + 1) (.ofMembers ms) := by
  rw [ReadsBack, ofMembers, value?_document_object fun m hm => h m (mem_of_mem_collect hm),
    ofMembers, collect_collect]

end MeshTelemetry.Json
