import MeshTelemetry.Text.Utf8

/-! The order of texts is the order of their bytes. Of two characters the lesser has the lesser
encoding, and at a byte that both encodings have, so whatever follows makes no difference. -/

set_option autoImplicit false

namespace MeshTelemetry.Text

/-- The encodings of two characters differ first at a byte that both have, and there the lesser
character has the lesser byte. -/
theorem utf8EncodeChar_append_lt {c d : Char} (h : c < d) (xs ys : List UInt8) :
    String.utf8EncodeChar c ++ xs < String.utf8EncodeChar d ++ ys := by
  have hcodes : c.val.toNat < d.val.toNat := h
  have hbound : d.val.toNat < 1114112 := by
    rcases d.valid with hlow | hhigh
    · exact Nat.lt_trans hlow (by decide)
    · exact hhigh.2
  unfold String.utf8EncodeChar
  dsimp only
  generalize c.val.toNat = m at hcodes
  generalize d.val.toNat = n at hcodes hbound
  -- One goal for each pair of lengths; every byte is below 256, so none is cut.
  repeat' split
  all_goals
    simp only [List.cons_append, List.nil_append, List.cons_lt_cons_iff, UInt8.lt_iff_toNat_lt,
      ← UInt8.toNat_inj, UInt8.toNat_ofNat']
    simp (disch := omega) only [Nat.mod_eq_of_lt]
    omega

theorem flatMap_utf8EncodeChar_lt {cs ds : List Char} (h : cs < ds) :
    cs.flatMap String.utf8EncodeChar < ds.flatMap String.utf8EncodeChar := by
  induction cs generalizing ds with
  | nil =>
    cases ds with
    | nil => exact absurd h (List.not_lt_nil _)
    | cons d ds =>
      rw [List.flatMap_cons, List.flatMap_nil]
      cases hbytes : String.utf8EncodeChar d with
      | nil => exact absurd hbytes String.utf8EncodeChar_ne_nil
      | cons b bs => exact List.nil_lt_cons b _
  | cons c cs ih =>
    cases ds with
    | nil => exact absurd h (List.not_lt_nil _)
    | cons d ds =>
      rw [List.flatMap_cons, List.flatMap_cons]
      rcases List.cons_lt_cons_iff.mp h with hlt | ⟨rfl, hrest⟩
      · exact utf8EncodeChar_append_lt hlt _ _
      · exact List.append_left_lt (ih hrest)

theorem toUTF8_lt {s t : String} (h : s < t) : s.toUTF8.data.toList < t.toUTF8.data.toList := by
  have hbytes : ∀ u : String, u.toUTF8.data.toList = u.toList.flatMap String.utf8EncodeChar := by
    intro u
    have htext : u.toUTF8 = u.toList.utf8Encode := (String.utf8Encode_toList).symm
    rw [htext, List.utf8Encode, List.data_toByteArray]
  rw [hbytes, hbytes]
  exact flatMap_utf8EncodeChar_lt h

end MeshTelemetry.Text
