import MeshTelemetry.Json.Reading
import MeshTelemetry.Proofs.Json.Printing

/-! Reading what was written. A list or an object of readable parts is read part by
part; where some part is not of the shape that is read and nothing else is at fault,
the whole is mismatched. A finite float reads as a float, one that is not finite does
not. -/

set_option autoImplicit false

namespace MeshTelemetry.Json

theorem mapM_ok {ε α β : Type} {f : α → Except ε β} {g : α → β} {xs : List α}
    (h : ∀ x ∈ xs, f x = .ok (g x)) : xs.mapM f = .ok (xs.map g) := by
  induction xs with
  | nil => rfl
  | cons x xs ih =>
    rw [List.mapM_cons, h x (List.mem_cons_self ..),
      ih fun y hy => h y (List.mem_cons_of_mem _ hy)]
    rfl

theorem mapM_error {ε α β : Type} {f : α → Except ε β} {e : ε} {xs : List α}
    (h : ∀ x ∈ xs, f x = .error e ∨ ∃ b, f x = .ok b) (bad : ∃ x ∈ xs, f x = .error e) :
    xs.mapM f = .error e := by
  induction xs with
  | nil =>
    obtain ⟨x, hx, _⟩ := bad
    cases hx
  | cons x xs ih =>
    rw [List.mapM_cons]
    rcases h x (List.mem_cons_self ..) with hx | ⟨b, hb⟩
    · rw [hx]
      rfl
    · have hrest : xs.mapM f = .error e := by
        apply ih fun y hy => h y (List.mem_cons_of_mem _ hy)
        obtain ⟨y, hy, hbad⟩ := bad
        rcases List.mem_cons.mp hy with rfl | hy
        · rw [hb] at hbad
          cases hbad
        · exact ⟨y, hy, hbad⟩
      rw [hb, hrest]
      rfl

theorem itemDocuments_eq_map (vs : List Json) : itemDocuments vs = vs.map document := by
  induction vs with
  | nil => rw [itemDocuments, List.map_nil]
  | cons v vs ih => rw [itemDocuments, ih, List.map_cons]

theorem memberDocuments_eq_map (ms : List (String × Json)) :
    memberDocuments ms = ms.map fun m => (some m.1, document m.2) := by
  induction ms with
  | nil => rw [memberDocuments, List.map_nil]
  | cons m ms ih => rw [memberDocuments, ih, List.map_cons]

theorem document_array (vs : List Json) :
    document (.array vs) = .array (vs.map document) true := by
  rw [document, itemDocuments_eq_map]

theorem document_object (ms : List (String × Json)) :
    document (.object ms) = .object (ms.map fun m => (some m.1, document m.2)) true := by
  rw [document, memberDocuments_eq_map]

section Parts

variable {α β : Type} {read : Document → Except ReadError α} (write : β → Json)

theorem readList_ok (value : β → α) {xs : List β}
    (h : ∀ x ∈ xs, read (document (write x)) = .ok (value x)) :
    (document (.array (xs.map write))).readList read = .ok (xs.map value) := by
  rw [document_array, Document.readList, List.mapM_map, List.mapM_map]
  simp only [Function.comp_def, mapM_ok h]
  rfl

theorem readList_error {xs : List β}
    (h : ∀ x ∈ xs, read (document (write x)) = .error .mismatched ∨
      ∃ a, read (document (write x)) = .ok a)
    (bad : ∃ x ∈ xs, read (document (write x)) = .error .mismatched) :
    (document (.array (xs.map write))).readList read = .error .mismatched := by
  rw [document_array, Document.readList, List.mapM_map, List.mapM_map]
  simp only [Function.comp_def, mapM_error h bad]
  rfl

theorem readEntry_ok {key : String} {d : Document} {a : α} (h : read d = .ok a) :
    Document.readEntry read (some key, d) = .ok (key, a) := by
  rw [Document.readEntry]
  simp only [h]
  rfl

theorem readEntry_error {key : String} {d : Document} {e : ReadError} (h : read d = .error e) :
    Document.readEntry read (some key, d) = .error e := by
  rw [Document.readEntry]
  simp only [h]
  rfl

theorem readEntries_ok (value : β → α) {es : List (String × β)}
    (h : ∀ e ∈ es, read (document (write e.2)) = .ok (value e.2)) :
    (document (.object (es.map fun e => (e.1, write e.2)))).readEntries read =
      .ok (es.map fun e => (e.1, value e.2)) := by
  have hentry : ∀ e ∈ es, Document.readEntry read (some e.1, document (write e.2)) =
      .ok (e.1, value e.2) := fun e he => readEntry_ok (h e he)
  rw [document_object, Document.readEntries, List.mapM_map, List.mapM_map]
  simp only [Function.comp_def, mapM_ok hentry]
  rfl

theorem readEntries_error {es : List (String × β)}
    (h : ∀ e ∈ es, read (document (write e.2)) = .error .mismatched ∨
      ∃ a, read (document (write e.2)) = .ok a)
    (bad : ∃ e ∈ es, read (document (write e.2)) = .error .mismatched) :
    (document (.object (es.map fun e => (e.1, write e.2)))).readEntries read =
      .error .mismatched := by
  have hentry : ∀ e ∈ es,
      Document.readEntry read (some e.1, document (write e.2)) = .error .mismatched ∨
        ∃ b, Document.readEntry read (some e.1, document (write e.2)) = .ok b := by
    intro e he
    rcases h e he with hbad | ⟨a, ha⟩
    · exact .inl (readEntry_error hbad)
    · exact .inr ⟨(e.1, a), readEntry_ok ha⟩
  have hexists : ∃ e ∈ es,
      Document.readEntry read (some e.1, document (write e.2)) = .error .mismatched := by
    obtain ⟨e, he, hbad⟩ := bad
    exact ⟨e, he, readEntry_error hbad⟩
  rw [document_object, Document.readEntries, List.mapM_map, List.mapM_map]
  simp only [Function.comp_def, mapM_error hentry hexists]
  rfl

end Parts

/-! Scalars -/

theorem readString_document (s : String) : (document (.string s)).readString = .ok s := by
  rw [document, Document.readString]

theorem readSigned64_document {i : Int} (hlow : leastSigned64 ≤ i) (hhigh : i ≤ greatestSigned64) :
    (document (.number (.int i))).readSigned64 = .ok i := by
  have hvalue : (Number.int i).numeral.value? = some (.int i) :=
    Number.value?_numeral_int hlow (Int.le_trans hhigh (by decide))
  have hnumeral : (Number.int i).hasNumeral = true := rfl
  rw [document, Number.document, if_pos hnumeral, hvalue, Document.readSigned64,
    Document.readInt, if_pos ⟨hlow, hhigh⟩]

/-- What a finite float reads as once it is written. -/
def rereadFloat (x : Binary64) : Binary64 :=
  (((Number.float x).numeral.value?).map Number.toFloat).getD x

theorem readFloat_document {x : Binary64} (h : x.isFinite = true) :
    (document (.number (.float x))).readFloat = .ok (rereadFloat x) := by
  obtain ⟨n, hn⟩ := Option.isSome_iff_exists.mp (Number.isSome_value?_numeral_float h)
  have hnumeral : (Number.float x).hasNumeral = true := h
  rw [document, Number.document, if_pos hnumeral, hn, Document.readFloat, rereadFloat, hn]
  rfl

theorem readFloat_document_of_not_isFinite {x : Binary64} (h : x.isFinite = false) :
    (document (.number (.float x))).readFloat = .error .mismatched := by
  have hnumeral : (Number.float x).hasNumeral = false := h
  rw [document, Number.document, hnumeral]
  rfl

theorem readText_pretty {α : Type} (read : Document → Except ReadError α) (v : Json) :
    readText read (Text.symbolsOf v.pretty) = read (document v) := by
  unfold readText
  simp only [parse_pretty]
  cases read (document v) <;> rfl

end MeshTelemetry.Json
