import MeshTelemetry.Alert.Targets
import MeshTelemetry.Proofs.Message.Senders
import MeshTelemetry.Proofs.Numeric.Spelling
import MeshTelemetry.Proofs.Text.Splitting
import MeshTelemetry.Proofs.Text.Trimming

/-! Lists of nodes as text. An item names the node whose number stands between its blanks, and
the nodes of a text are those that its items name, in order; what names none stands in nobody's
way. So every way to print nodes in items is read as these nodes. -/

set_option autoImplicit false

namespace MeshTelemetry.Targets

variable {cs ds item : List Char} {radix n : Nat} {id : UInt32}

/-! Numbers -/

def IsWritten (radix : Nat) (cs : List Char) (n : Nat) : Prop :=
  Radix.Spells radix cs n ∨ ∃ ds, cs = '+' :: ds ∧ Radix.Spells radix ds n

/-- A character that is not blank and has no meaning of its own in a list. -/
def IsPlain (c : Char) : Prop := Text.isBlank c = false ∧ c ≠ '+' ∧ c ≠ '!' ∧ c ≠ ','

instance (c : Char) : Decidable (IsPlain c) := inferInstanceAs (Decidable (_ ∧ _))

theorem isPlain_of_isDigit {c : Char} {d : Nat} (hradix : radix ≤ 16)
    (h : Radix.IsDigit radix c d) : IsPlain c := by
  have hall : ∀ d < 16, IsPlain (Nat.digitChar d) ∧ IsPlain (Nat.digitChar d).toUpper := by
    decide
  obtain ⟨hlower, hupper⟩ := hall d (Nat.lt_of_lt_of_le h.1 hradix)
  obtain rfl | rfl := h.2
  · exact hlower
  · exact hupper

theorem isPlain_of_mem_spells {c : Char} (hradix : radix ≤ 16) (h : Radix.Spells radix cs n)
    (hc : c ∈ cs) : IsPlain c := by
  obtain ⟨d, hd⟩ := h.isDigit_of_mem hc
  exact isPlain_of_isDigit hradix hd

theorem dropPlus_of_spells (hradix : radix ≤ 16) (h : Radix.Spells radix cs n) :
    Radix.dropPlus cs = cs := by
  unfold Radix.dropPlus
  split
  · exact absurd rfl (isPlain_of_mem_spells hradix h List.mem_cons_self).2.1
  · rfl

theorem number?_eq_some_iff (hpos : 0 < radix) (hradix : radix ≤ 16) :
    number? radix cs = some n ↔ IsWritten radix cs n ∧ n < UInt32.size := by
  rw [number?, Radix.read?_eq_some_iff hpos hradix]
  apply and_congr_left'
  constructor
  · intro h
    unfold Radix.dropPlus at h
    split at h
    · exact .inr ⟨_, rfl, h⟩
    · exact .inl h
  · rintro (h | ⟨ds, rfl, h⟩)
    · rw [dropPlus_of_spells hradix h]
      exact h
    · exact h

theorem of_mem_isWritten {c : Char} (hradix : radix ≤ 16) (h : IsWritten radix cs n)
    (hc : c ∈ cs) : Text.isBlank c = false ∧ c ≠ '!' ∧ c ≠ ',' := by
  obtain h | ⟨ds, rfl, h⟩ := h
  · obtain ⟨hblank, _, hmark, hcomma⟩ := isPlain_of_mem_spells hradix h hc
    exact ⟨hblank, hmark, hcomma⟩
  · rcases List.mem_cons.mp hc with rfl | hc
    · decide
    · obtain ⟨hblank, _, hmark, hcomma⟩ := isPlain_of_mem_spells hradix h hc
      exact ⟨hblank, hmark, hcomma⟩

/-! Items -/

/-- A word for a number: in decimal, or in hexadecimal after an exclamation mark. -/
def IsNumberWord (word : List Char) (n : Nat) : Prop :=
  IsWritten 10 word n ∨ ∃ hex, word = '!' :: hex ∧ IsWritten 16 hex n

/-- The node whose number an item holds between its blanks. Zero is none. -/
def Names (item : List Char) (id : UInt32) : Prop :=
  ∃ before word after, item = before ++ word ++ after ∧
    (∀ c ∈ before, Text.isBlank c = true) ∧ (∀ c ∈ after, Text.isBlank c = true) ∧
    IsNumberWord word id.toNat ∧ id ≠ 0

theorem of_mem_isNumberWord {c : Char} (h : IsNumberWord cs n) (hc : c ∈ cs) :
    Text.isBlank c = false ∧ c ≠ ',' := by
  obtain h | ⟨hex, rfl, h⟩ := h
  · obtain ⟨hblank, _, hcomma⟩ := of_mem_isWritten (by decide) h hc
    exact ⟨hblank, hcomma⟩
  · rcases List.mem_cons.mp hc with rfl | hc
    · decide
    · obtain ⟨hblank, _, hcomma⟩ := of_mem_isWritten (by decide) h hc
      exact ⟨hblank, hcomma⟩

def wordNumber? : List Char → Option Nat
  | '!' :: hex => number? 16 hex
  | decimal => number? 10 decimal

theorem wordNumber?_eq_some_iff :
    wordNumber? cs = some n ↔ IsNumberWord cs n ∧ n < UInt32.size := by
  unfold wordNumber?
  split
  · rename_i hex
    rw [number?_eq_some_iff (by decide) (by decide)]
    apply and_congr_left'
    constructor
    · intro h
      exact .inr ⟨hex, rfl, h⟩
    · rintro (h | ⟨hex', hhex, h⟩)
      · exact absurd rfl (of_mem_isWritten (by decide) h List.mem_cons_self).2.1
      · cases hhex
        exact h
  · rename_i hdecimal
    rw [number?_eq_some_iff (by decide) (by decide)]
    apply and_congr_left'
    constructor
    · exact .inl
    · rintro (h | ⟨hex, rfl, _⟩)
      · exact h
      · exact absurd rfl (hdecimal hex)

theorem item?_eq (cs : List Char) :
    item? cs = ((wordNumber? (Text.trimChars cs)).filter (· ≠ 0)).map UInt32.ofNat := rfl

theorem item?_eq_some_iff : item? item = some id ↔ Names item id := by
  rw [item?_eq, Option.map_eq_some_iff]
  simp only [Option.filter_eq_some_iff, wordNumber?_eq_some_iff, decide_eq_true_iff]
  constructor
  · rintro ⟨n, ⟨⟨hword, hlimit⟩, hzero⟩, rfl⟩
    obtain ⟨before, after, hitem, hbefore, hafter⟩ := Text.exists_eq_trimChars item
    have hvalue : (UInt32.ofNat n).toNat = n := UInt32.toNat_ofNat_of_lt' hlimit
    refine ⟨before, _, after, hitem, hbefore, hafter, by rwa [hvalue], fun heq => hzero ?_⟩
    rw [← hvalue, heq]
    rfl
  · rintro ⟨before, word, after, rfl, hbefore, hafter, hword, hne⟩
    have htrim : Text.trimChars (before ++ word ++ after) = word :=
      Text.trimChars_of_word hbefore (fun c hc => (of_mem_isNumberWord hword hc).1) hafter
    refine ⟨id.toNat, ⟨⟨by rwa [htrim], id.toNat_lt⟩, ?_⟩, UInt32.ofNat_toNat⟩
    intro hzero
    exact hne (UInt32.toNat_inj.mp hzero)

theorem Names.clean (h : Names item id) : ',' ∉ item := by
  obtain ⟨before, word, after, rfl, hbefore, hafter, hword, _⟩ := h
  have hblank : ¬ Text.isBlank ',' = true := by decide
  intro hmem
  rcases List.mem_append.mp hmem with hmem | hmem
  · rcases List.mem_append.mp hmem with hmem | hmem
    · exact hblank (hbefore _ hmem)
    · exact (of_mem_isNumberWord hword hmem).2 rfl
  · exact hblank (hafter _ hmem)

/-! Lists -/

/-- The nodes that items name, in order; an item that names none is passed over. -/
inductive Lists : List (List Char) → List UInt32 → Prop
  | nil : Lists [] []
  | named {item : List Char} {id : UInt32} {items : List (List Char)} {ids : List UInt32} :
      Names item id → Lists items ids → Lists (item :: items) (id :: ids)
  | passed {item : List Char} {items : List (List Char)} {ids : List UInt32} :
      (∀ id, ¬ Names item id) → Lists items ids → Lists (item :: items) ids

theorem lists_iff {items : List (List Char)} {ids : List UInt32} :
    Lists items ids ↔ items.filterMap item? = ids := by
  constructor
  · intro h
    induction h with
    | nil => rfl
    | named hitem _ ih => rw [List.filterMap_cons_some (item?_eq_some_iff.mpr hitem), ih]
    | passed hitem _ ih =>
      rw [List.filterMap_cons_none, ih]
      exact Option.eq_none_iff_forall_ne_some.mpr fun id hid => hitem id (item?_eq_some_iff.mp hid)
  · rintro rfl
    induction items with
    | nil => exact .nil
    | cons item items ih =>
      cases hitem : item? item with
      | none =>
        rw [List.filterMap_cons_none hitem]
        refine .passed (fun id hid => ?_) ih
        rw [item?_eq_some_iff.mpr hid] at hitem
        cases hitem
      | some id =>
        rw [List.filterMap_cons_some hitem]
        exact .named (item?_eq_some_iff.mp hitem) ih

theorem ofText_append (a b : String) : ofText (a ++ "," ++ b) = ofText a ++ ofText b := by
  have hchars : (a ++ "," ++ b).toList = a.toList ++ ',' :: b.toList := by simp
  rw [ofText, hchars, List.splitOn_append_cons_self, List.filterMap_append]
  rfl

/-! Printing -/

/-- A text that prints a node between blanks: the label it has everywhere, or any of its
hexadecimal numerals after an exclamation mark. -/
def Prints (text : String) (id : UInt32) : Prop :=
  ∃ before word after, text.toList = before ++ word ++ after ∧
    (∀ c ∈ before, Text.isBlank c = true) ∧ (∀ c ∈ after, Text.isBlank c = true) ∧
    (word = (nodeId id).toList ∨ ∃ hex, word = '!' :: hex ∧ Radix.Spells 16 hex id.toNat)

theorem spells_nodeId (id : UInt32) : Radix.Spells 10 (nodeId id).toList id.toNat := by
  have hdigits : (nodeId id).toList = Radix.padded 10 0 id.toNat := by
    rw [Radix.padded, Nat.zero_sub]
    exact Nat.toList_repr
  rw [hdigits]
  exact Radix.spells_padded (by decide) (by decide) 0 id.toNat

theorem names_of_prints {text : String} (h : Prints text id) (hne : id ≠ 0) :
    Names text.toList id := by
  obtain ⟨before, word, after, htext, hbefore, hafter, rfl | ⟨hex, rfl, hhex⟩⟩ := h
  · exact ⟨before, _, after, htext, hbefore, hafter, .inl (.inl (spells_nodeId id)), hne⟩
  · exact ⟨before, _, after, htext, hbefore, hafter, .inr ⟨hex, rfl, .inl hhex⟩, hne⟩

theorem lists_printed {printed : List (String × UInt32)}
    (h : ∀ p ∈ printed, Names p.1.toList p.2) :
    Lists (printed.map fun p => p.1.toList) (printed.map Prod.snd) := by
  induction printed with
  | nil => exact .nil
  | cons p printed ih =>
    obtain ⟨hp, hrest⟩ := List.forall_mem_cons.mp h
    exact .named hp (ih hrest)

theorem ofText_printed {printed : List (String × UInt32)}
    (h : ∀ p ∈ printed, Prints p.1 p.2 ∧ p.2 ≠ 0) :
    ofText (",".intercalate (printed.map Prod.fst)) = printed.map Prod.snd := by
  have hnames : ∀ p ∈ printed, Names p.1.toList p.2 := fun p hp =>
    names_of_prints (h p hp).1 (h p hp).2
  by_cases hnone : printed = []
  · subst hnone
    rfl
  · have hclean : ∀ item ∈ printed.map fun p => p.1.toList, ',' ∉ item := by
      intro item hitem
      obtain ⟨p, hp, rfl⟩ := List.mem_map.mp hitem
      exact (hnames p hp).clean
    have hchars : (",".intercalate (printed.map Prod.fst)).toList =
        [','].intercalate (printed.map fun p => p.1.toList) := by
      rw [String.toList_intercalate, List.map_map]
      rfl
    have hitems : (printed.map fun p => p.1.toList) ≠ [] := by simpa using hnone
    rw [ofText, hchars, List.splitOn_intercalate ',' hclean hitems]
    exact lists_iff.mp (lists_printed hnames)

/-- The nodes of a text are those that the items between its commas name, in order. So joined
texts give the nodes of both, and nodes printed in items of their own are read as they are. -/
theorem ofText_grammar :
    (∀ text ids, ofText text = ids ↔
      ∃ items, Text.IsSplit ',' text.toList items ∧ Lists items ids) ∧
    (∀ a b, ofText (a ++ "," ++ b) = ofText a ++ ofText b) ∧
    ∀ printed : List (String × UInt32), (∀ p ∈ printed, Prints p.1 p.2 ∧ p.2 ≠ 0) →
      ofText (",".intercalate (printed.map Prod.fst)) = printed.map Prod.snd := by
  refine ⟨fun text ids => ?_, ofText_append, fun printed h => ofText_printed h⟩
  simp only [Text.isSplit_iff, lists_iff, exists_eq_left]
  rfl

/-- The greatest node by its label after a blank, and node 171 in capitals after zeros. -/
def printedNodes : List (String × UInt32) := [(" 4294967295", 4294967295), ("!000AB\t", 171)]

theorem ofText_grammar_printedNodes :
    (∀ p ∈ printedNodes, Prints p.1 p.2 ∧ p.2 ≠ 0) ∧
      ofText " 4294967295,!000AB\t" = [4294967295, 171] := by
  have hhex : Radix.read? 16 4096 "000AB".toList = some 171 := by decide
  have hspace : ∀ c ∈ [' '], Text.isBlank c = true := List.forall_mem_singleton.mpr (by decide)
  have htab : ∀ c ∈ ['\t'], Text.isBlank c = true := List.forall_mem_singleton.mpr (by decide)
  have hgreatest : Prints " 4294967295" 4294967295 :=
    ⟨[' '], _, [], by decide +kernel, hspace, nofun, .inl rfl⟩
  have hcapitals : Prints "!000AB\t" 171 :=
    ⟨[], '!' :: "000AB".toList, ['\t'], by decide, nofun, htab,
      .inr ⟨_, rfl, (Radix.spells_of_read? (by decide) hhex).1⟩⟩
  have hprinted : ∀ p ∈ printedNodes, Prints p.1 p.2 ∧ p.2 ≠ 0 := by
    simp only [printedNodes, List.forall_mem_cons]
    exact ⟨⟨hgreatest, by decide⟩, ⟨hcapitals, by decide⟩, List.forall_mem_nil _⟩
  obtain ⟨_, _, reads⟩ := ofText_grammar
  exact ⟨hprinted, reads printedNodes hprinted⟩

end MeshTelemetry.Targets
