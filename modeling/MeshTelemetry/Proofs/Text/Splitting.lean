/-! A text and its parts between separators. A text has one split, and joining the parts again
gives the text. -/

set_option autoImplicit false

namespace MeshTelemetry.Text

variable {sep : Char} {cs part : List Char} {parts : List (List Char)}

structure IsSplit (sep : Char) (cs : List Char) (parts : List (List Char)) : Prop where
  joined : [sep].intercalate parts = cs
  clean : ∀ part ∈ parts, sep ∉ part
  filled : parts ≠ []

theorem not_mem_of_mem_splitOn (h : part ∈ cs.splitOn sep) : sep ∉ part := by
  induction cs generalizing part with
  | nil =>
    rw [List.splitOn_nil, List.mem_singleton] at h
    rw [h]
    exact List.not_mem_nil
  | cons c cs ih =>
    obtain ⟨first, rest, hparts⟩ := List.exists_cons_of_ne_nil (List.splitOn_ne_nil sep cs)
    rw [List.splitOn_cons_eq_if_modifyHead] at h
    rw [hparts] at h ih
    split at h
    · rcases List.mem_cons.mp h with rfl | hmem
      · exact List.not_mem_nil
      · exact ih hmem
    · rename_i hc
      rcases List.mem_cons.mp h with rfl | hmem
      · have hsep : sep ≠ c := fun heq => hc (beq_iff_eq.mpr heq.symm)
        exact List.not_mem_cons_of_ne_of_not_mem hsep (ih List.mem_cons_self)
      · exact ih (List.mem_cons_of_mem _ hmem)

/-- A text has one split. -/
theorem isSplit_iff : IsSplit sep cs parts ↔ parts = cs.splitOn sep := by
  constructor
  · rintro ⟨joined, clean, filled⟩
    rw [← joined, List.splitOn_intercalate sep clean filled]
  · rintro rfl
    exact ⟨List.intercalate_splitOn sep, fun _ => not_mem_of_mem_splitOn,
      List.splitOn_ne_nil sep _⟩

end MeshTelemetry.Text
