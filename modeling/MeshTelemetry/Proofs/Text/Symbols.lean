import MeshTelemetry.Text.Utf8

/-! Bytes and symbols. The symbols of a byte sequence spell it out: each character stands for
its UTF-8 bytes, each gap for one byte, and together they leave none out. -/

set_option autoImplicit false

namespace MeshTelemetry.Text

/-- The bytes that symbols stand for. A gap stands for any one byte. -/
inductive Spells : List Symbol → List UInt8 → Prop
  | nil : Spells [] []
  | char (c : Char) {cs : List Symbol} {bytes : List UInt8} (rest : Spells cs bytes) :
      Spells (some c :: cs) (String.utf8EncodeChar c ++ bytes)
  | gap (b : UInt8) {cs : List Symbol} {bytes : List UInt8} (rest : Spells cs bytes) :
      Spells (none :: cs) (b :: bytes)

theorem spells_chars (cs : List Char) :
    Spells (cs.map some) (cs.flatMap String.utf8EncodeChar) := by
  induction cs with
  | nil => exact .nil
  | cons c cs ih =>
    rw [List.map_cons, List.flatMap_cons]
    exact .char c ih

theorem data_of_fromUTF8? {bytes : ByteArray} {s : String} (h : String.fromUTF8? bytes = some s) :
    bytes.data.toList = s.toList.flatMap String.utf8EncodeChar := by
  have hbytes : s.toByteArray = bytes := by
    unfold String.fromUTF8? at h
    split at h
    · cases h
      rfl
    · cases h
  rw [← hbytes, ← String.utf8Encode_toList, List.utf8Encode, List.data_toByteArray]

/-- A character at `i` stands at the front of the bytes from there on. -/
theorem drop_of_utf8DecodeChar? {bytes : ByteArray} {i : Nat} {c : Char}
    (h : bytes.utf8DecodeChar? i = some c) :
    bytes.data.toList.drop i =
      String.utf8EncodeChar c ++ bytes.data.toList.drop (i + c.utf8Size) := by
  rw [ByteArray.utf8DecodeChar?_eq_utf8DecodeChar?_extract] at h
  obtain ⟨rest, hrest⟩ : ∃ rest, bytes.data.toList.drop i = String.utf8EncodeChar c ++ rest := by
    have hbytes := congrArg (fun b => b.data.toList) (ByteArray.eq_of_utf8DecodeChar?_eq_some h)
    have hdrop : (bytes.extract i bytes.size).data.toList = bytes.data.toList.drop i := by
      rw [ByteArray.data_extract, Array.toList_extract, List.extract_eq_take_drop]
      exact List.take_of_length_le (Nat.le_of_eq List.length_drop)
    simp only [hdrop, ByteArray.toList_data_append, List.data_toByteArray] at hbytes
    exact ⟨_, hbytes⟩
  rw [← List.drop_drop, hrest, List.drop_left' (String.length_utf8EncodeChar c)]

/-- With fuel for every byte that is left, all of them are spelled. -/
theorem spells_symbolsFrom (bytes : ByteArray) {fuel i : Nat} (acc : List Symbol)
    (h : bytes.size ≤ i + fuel) :
    ∃ cs, symbolsFrom bytes fuel i acc = acc.reverse ++ cs ∧
      Spells cs (bytes.data.toList.drop i) := by
  have hend : ∀ {j : Nat}, bytes.size ≤ j → bytes.data.toList.drop j = [] :=
    fun hj => List.drop_eq_nil_of_le hj
  induction fuel generalizing i acc with
  | zero =>
    rw [symbolsFrom, hend (j := i) h]
    exact ⟨[], (List.append_nil _).symm, .nil⟩
  | succ fuel ih =>
    unfold symbolsFrom
    split
    · rename_i hi
      split
      · rename_i c hc
        have hsize : 0 < c.utf8Size := Char.utf8Size_pos c
        obtain ⟨cs, hcs, hrest⟩ := ih (some c :: acc) (i := i + c.utf8Size) (by omega)
        rw [hcs, List.reverse_cons, List.append_assoc, drop_of_utf8DecodeChar? hc]
        exact ⟨some c :: cs, rfl, .char c hrest⟩
      · obtain ⟨cs, hcs, hrest⟩ := ih (none :: acc) (i := i + 1) (by omega)
        have hbyte : i < bytes.data.toList.length := hi
        rw [hcs, List.reverse_cons, List.append_assoc, List.drop_eq_getElem_cons hbyte]
        exact ⟨none :: cs, rfl, .gap _ hrest⟩
    · rename_i hi
      rw [hend (Nat.not_lt.mp hi)]
      exact ⟨[], (List.append_nil _).symm, .nil⟩

theorem spells_symbols (bytes : ByteArray) : Spells (symbols bytes) bytes.data.toList := by
  unfold symbols
  split
  · rename_i s hs
    rw [data_of_fromUTF8? hs]
    exact spells_chars s.toList
  · obtain ⟨cs, hcs, hspells⟩ := spells_symbolsFrom bytes [] (Nat.le_of_eq (Nat.zero_add _).symm)
    rw [hcs]
    exact hspells

end MeshTelemetry.Text
