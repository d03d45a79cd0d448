import MeshTelemetry.Text.Ellipsis

/-! Cut texts. What is cut keeps its first characters, as many as leave room for the ellipsis,
and has exactly as many characters as the limit. To cut a text twice is to cut it once at the
nearer limit, and what stands in front of a text moves its limit. -/

set_option autoImplicit false

namespace MeshTelemetry.Text

/-- What a text that is cut ends in: the ellipsis, if there is room for it. -/
def cutMark (limit : Nat) : List Char := if limit < ellipsis.length then [] else ellipsis

@[simp] theorem length_ellipsis : ellipsis.length = 3 := rfl

theorem cutMark_of_le {limit : Nat} (h : 3 ≤ limit) : cutMark limit = ellipsis :=
  if_neg (Nat.not_lt.mpr h)

theorem length_cutMark (limit : Nat) :
    (cutMark limit).length = if limit < 3 then 0 else 3 := by
  unfold cutMark
  split <;> simp_all

section Characters

variable {limit bound : Nat} {cs ds : List Char}

theorem truncateChars_of_le (h : cs.length ≤ limit) : truncateChars limit cs = cs := if_pos h

theorem truncateChars_of_lt (h : limit < cs.length) :
    truncateChars limit cs = cs.take (limit - (cutMark limit).length) ++ cutMark limit := by
  unfold truncateChars cutMark
  rw [if_neg (Nat.not_le.mpr h)]
  split
  · simp
  · rfl

@[simp] theorem length_truncateChars (limit : Nat) (cs : List Char) :
    (truncateChars limit cs).length = min limit cs.length := by
  by_cases h : cs.length ≤ limit
  · rw [truncateChars_of_le h, Nat.min_eq_right h]
  · have hmark := length_cutMark limit
    rw [truncateChars_of_lt (by omega), List.length_append, List.length_take]
    split at hmark <;> omega

theorem truncateChars_congr (hcs : limit < cs.length) (hds : limit < ds.length)
    (h : cs.take (limit - (cutMark limit).length) = ds.take (limit - (cutMark limit).length)) :
    truncateChars limit cs = truncateChars limit ds := by
  rw [truncateChars_of_lt hcs, truncateChars_of_lt hds, h]

theorem take_truncateChars {n : Nat} (hroom : 3 ≤ bound) (hn : n ≤ bound - 3) :
    (truncateChars bound cs).take n = cs.take n := by
  by_cases h : cs.length ≤ bound
  · rw [truncateChars_of_le h]
  · rw [truncateChars_of_lt (by omega), cutMark_of_le hroom, length_ellipsis,
      List.take_append_of_le_length (by simp; omega), List.take_take, Nat.min_eq_left hn]

/-- Twice is once, at the nearer of the two limits. The first limit has to be five at least:
behind a shorter cut, a second limit that has no room for an ellipsis of its own can leave a part
of the first one. -/
theorem truncateChars_truncateChars (limit : Nat) (cs : List Char) (hbound : 5 ≤ bound) :
    truncateChars limit (truncateChars bound cs) = truncateChars (min limit bound) cs := by
  rcases Nat.lt_or_ge limit bound with hlt | hge
  -- The second cut is nearer, and what it keeps ends before the ellipsis of the first.
  · rw [Nat.min_eq_left (Nat.le_of_lt hlt)]
    by_cases hwhole : cs.length ≤ limit
    · have hfirst : cs.length ≤ bound := by omega
      rw [truncateChars_of_le hfirst]
    · have hkept : limit - (cutMark limit).length ≤ bound - 3 := by
        rw [length_cutMark]
        split <;> omega
      apply truncateChars_congr
      · simp
        omega
      · omega
      · exact take_truncateChars (by omega) hkept
  · rw [Nat.min_eq_right hge, truncateChars_of_le]
    simp
    omega

example : truncateChars 2 (truncateChars 4 ['a', 'b', 'c', 'd', 'e']) = ['a', '.'] := by decide

/-- What stands in front of a text moves its limit by as many characters. -/
theorem truncateChars_append (front cs : List Char) (hroom : 3 ≤ bound) :
    truncateChars (front.length + bound) (front ++ cs) = front ++ truncateChars bound cs := by
  by_cases h : cs.length ≤ bound
  · rw [truncateChars_of_le h, truncateChars_of_le]
    simpa using h
  · have hlength : front.length + bound - 3 = front.length + (bound - 3) := by omega
    rw [truncateChars_of_lt (by simp; omega), truncateChars_of_lt (by omega),
      cutMark_of_le hroom, cutMark_of_le (by omega), length_ellipsis, hlength,
      List.take_length_add_append, List.append_assoc]

end Characters

section Texts

variable {limit : Nat} {s : String}

theorem truncate_of_le (h : s.length ≤ limit) : truncate limit s = s := by
  rw [truncate, truncateChars_of_le (String.length_toList ▸ h), String.ofList_toList]

theorem length_truncate (limit : Nat) (s : String) :
    (truncate limit s).length = min limit s.length := by
  rw [truncate, String.length_ofList, length_truncateChars, String.length_toList]

theorem truncate_of_lt (h : limit < s.length) :
    ∃ kept rest, s = kept ++ rest ∧
      truncate limit s = kept ++ if limit < 3 then "" else "..." := by
  let room := limit - (cutMark limit).length
  have hmark : String.ofList (cutMark limit) = if limit < 3 then "" else "..." := by
    by_cases hroom : limit < 3
    · rw [if_pos hroom, cutMark, length_ellipsis, if_pos hroom, String.ofList_nil]
    · rw [if_neg hroom, cutMark_of_le (Nat.le_of_not_lt hroom)]
      rfl
  refine ⟨String.ofList (s.toList.take room), String.ofList (s.toList.drop room), ?_, ?_⟩
  · rw [← String.ofList_append, List.take_append_drop, String.ofList_toList]
  · rw [truncate, truncateChars_of_lt (String.length_toList ▸ h), String.ofList_append, hmark]

theorem truncate_append {bound : Nat} (front s : String) (hroom : 3 ≤ bound) :
    truncate (front.length + bound) (front ++ s) = front ++ truncate bound s := by
  rw [truncate, truncate, String.toList_append, ← String.length_toList,
    truncateChars_append _ _ hroom, String.ofList_append, String.ofList_toList]

theorem truncate_truncate {bound : Nat} (limit : Nat) (s : String) (hbound : 5 ≤ bound) :
    truncate limit (truncate bound s) = truncate (min limit bound) s := by
  rw [truncate, truncate, truncate, String.toList_ofList, truncateChars_truncateChars _ _ hbound]

end Texts

end MeshTelemetry.Text
