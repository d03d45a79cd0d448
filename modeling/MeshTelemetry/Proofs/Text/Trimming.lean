import Mathlib.Data.List.TakeWhile
import MeshTelemetry.Alert.Basic

/-! Trimming. A text is its trimmed part between blanks, and a word without blanks is what
trimming leaves of it. So a label asks for the broadcast exactly if that is the word between
its blanks, in letters of any case. -/

set_option autoImplicit false

namespace MeshTelemetry

namespace Text

variable {cs before word after : List Char} {c : Char}

theorem exists_eq_trimChars (cs : List Char) :
    ∃ before after, cs = before ++ trimChars cs ++ after ∧
      (∀ c ∈ before, isBlank c = true) ∧ ∀ c ∈ after, isBlank c = true := by
  let rest := cs.dropWhile isBlank
  refine ⟨cs.takeWhile isBlank, (rest.reverse.takeWhile isBlank).reverse, ?_,
    fun c hc => List.mem_takeWhile_imp hc,
    fun c hc => List.mem_takeWhile_imp (List.mem_reverse.mp hc)⟩
  have hrest : trimChars cs ++ (rest.reverse.takeWhile isBlank).reverse = rest := by
    rw [trimChars, ← List.reverse_append, List.takeWhile_append_dropWhile, List.reverse_reverse]
  rw [List.append_assoc, hrest, List.takeWhile_append_dropWhile]

theorem dropWhile_isBlank_of_word (hword : ∀ c ∈ word, isBlank c = false) :
    word.dropWhile isBlank = word :=
  List.dropWhile_eq_self_iff.mpr fun hlength => by simp [hword _ (List.getElem_mem hlength)]

theorem trimChars_of_word (hbefore : ∀ c ∈ before, isBlank c = true)
    (hword : ∀ c ∈ word, isBlank c = false) (hafter : ∀ c ∈ after, isBlank c = true) :
    trimChars (before ++ word ++ after) = word := by
  have hreverse : ∀ c ∈ after.reverse, isBlank c = true := fun c hc =>
    hafter c (List.mem_reverse.mp hc)
  rw [trimChars, List.append_assoc, List.dropWhile_append_of_pos hbefore]
  -- An empty word does not stop the trimming from the left before the blanks at the end.
  cases word with
  | nil =>
    have hdrop : after.dropWhile isBlank = [] := List.dropWhile_eq_nil_iff.mpr hafter
    rw [List.nil_append, hdrop]
    rfl
  | cons c cs =>
    have hfirst : ¬ isBlank c = true := by simp [hword c List.mem_cons_self]
    rw [List.cons_append, List.dropWhile_cons_of_neg hfirst, ← List.cons_append,
      List.reverse_append, List.dropWhile_append_of_pos hreverse, dropWhile_isBlank_of_word,
      List.reverse_reverse]
    exact fun c hc => hword c (List.mem_reverse.mp hc)

theorem trimChars_eq_nil_iff : trimChars cs = [] ↔ ∀ c ∈ cs, isBlank c = true := by
  constructor
  · intro hnil
    obtain ⟨before, after, hcs, hbefore, hafter⟩ := exists_eq_trimChars cs
    rw [hnil, List.append_nil] at hcs
    intro c hc
    rw [hcs] at hc
    exact (List.mem_append.mp hc).elim (hbefore c) (hafter c)
  · intro hblank
    have h : trimChars (cs ++ [] ++ []) = [] := trimChars_of_word hblank (by simp) (by simp)
    rwa [List.append_nil, List.append_nil] at h

theorem toLower_of_isBlank (h : isBlank c = true) : c.toLower = c := by
  unfold Char.toLower
  split
  · rename_i hupper
    obtain ⟨hlow, hhigh⟩ := hupper
    have hlow : 65 ≤ c.toNat := hlow
    have hhigh : c.toNat ≤ 90 := hhigh
    obtain ⟨range, hrange, hin⟩ := List.any_eq_true.mp h
    have hin : range.1 ≤ c.toNat ∧ c.toNat ≤ range.2 := of_decide_eq_true hin
    have houtside : ∀ range ∈ blankRanges, range.2 < 65 ∨ 90 < range.1 := by decide
    have hrange := houtside range hrange
    omega
  · rfl

/-- Characters that are those of a word but for their case are no blanks either. -/
theorem isBlank_of_map_toLower {letters : List Char} (hletters : ∀ c ∈ letters, isBlank c = false)
    (h : word.map Char.toLower = letters) : ∀ c ∈ word, isBlank c = false := by
  intro c hc
  cases hblank : isBlank c with
  | false => rfl
  | true =>
    have hmem : c.toLower ∈ letters := h ▸ List.mem_map_of_mem hc
    rw [toLower_of_isBlank hblank] at hmem
    exact hblank.symm.trans (hletters c hmem)

end Text

namespace DeliveryMode

variable {label : String}

/-- The word between the blanks of a label is that of the broadcast, in letters of any case. -/
def NamesBroadcast (label : String) : Prop :=
  ∃ before word after, label.toList = before ++ word ++ after ∧
    (∀ c ∈ before, Text.isBlank c = true) ∧ (∀ c ∈ after, Text.isBlank c = true) ∧
    word.map Char.toLower = "broadcast".toList

theorem ofLabel?_eq_none_iff : ofLabel? label = none ↔ Text.isBlankText label = true := by
  have hblank : (Text.trim label).isEmpty = true ↔ Text.isBlankText label = true := by
    rw [Text.isBlankText, List.all_eq_true, ← Text.trimChars_eq_nil_iff, Text.trim]
    simp
  rw [← hblank]
  unfold ofLabel?
  dsimp only
  split
  · rename_i hempty
    exact iff_of_true rfl hempty
  · rename_i hword
    split <;> exact iff_of_false nofun hword

theorem ofLabel?_eq_broadcast_iff : ofLabel? label = some .broadcast ↔ NamesBroadcast label := by
  have hsame : Text.sameIgnoringCase (Text.trim label) broadcast.name = true ↔
      (Text.trimChars label.toList).map Char.toLower = "broadcast".toList := by
    have hname : broadcast.name.toList.map Char.toLower = "broadcast".toList := by decide
    rw [Text.sameIgnoringCase, beq_iff_eq, hname, Text.trim, String.toList_ofList]
  have hall : ("broadcast".toList.all fun c => !Text.isBlank c) = true := by decide
  have hletters : ∀ c ∈ "broadcast".toList, Text.isBlank c = false := fun c hc => by
    simpa using List.all_eq_true.mp hall c hc
  constructor
  · intro h
    unfold ofLabel? at h
    dsimp only at h
    split at h
    · cases h
    · split at h
      · rename_i _ hword
        obtain ⟨before, after, hlabel, hbefore, hafter⟩ :=
          Text.exists_eq_trimChars label.toList
        exact ⟨before, _, after, hlabel, hbefore, hafter, hsame.mp hword⟩
      · cases h
  · rintro ⟨before, word, after, hlabel, hbefore, hafter, hword⟩
    have htrim : Text.trimChars label.toList = word := by
      rw [hlabel]
      exact Text.trimChars_of_word hbefore (Text.isBlank_of_map_toLower hletters hword) hafter
    have hnonempty : ¬ (Text.trim label).isEmpty = true := by
      rw [Text.trim, htrim]
      intro hempty
      have hnil : word = [] := by simpa using hempty
      rw [hnil] at hword
      cases hword
    rw [ofLabel?, if_neg hnonempty, if_pos (hsame.mpr (htrim ▸ hword))]

end DeliveryMode
end MeshTelemetry
