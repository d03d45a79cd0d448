import MeshTelemetry.Json.Reading

/-! What a reader gives comes from the parts of the document. A list and a map hold
what was read of one part each, and a record has what every field that was read kept. -/

set_option autoImplicit false

namespace MeshTelemetry.Json

theorem bind_eq_ok_iff {ε α β : Type} {result : Except ε α} {f : α → Except ε β} {b : β} :
    result >>= f = .ok b ↔ ∃ a, result = .ok a ∧ f a = .ok b := by
  cases result with
  | error e => exact ⟨nofun, nofun⟩
  | ok a => exact ⟨fun h => ⟨a, rfl, h⟩, fun ⟨_, ha, h⟩ => Except.ok.inj ha ▸ h⟩

theorem mem_of_mapM {ε α β : Type} {f : α → Except ε β} {xs : List α} {ys : List β}
    (h : xs.mapM f = .ok ys) : ∀ y ∈ ys, ∃ x ∈ xs, f x = .ok y := by
  induction xs generalizing ys with
  | nil =>
    cases h
    exact List.forall_mem_nil _
  | cons x xs ih =>
    rw [List.mapM_cons] at h
    obtain ⟨y, hy, h⟩ := bind_eq_ok_iff.mp h
    obtain ⟨zs, hzs, h⟩ := bind_eq_ok_iff.mp h
    cases h
    intro z hz
    rcases List.mem_cons.mp hz with rfl | hz
    · exact ⟨x, List.mem_cons_self .., hy⟩
    · obtain ⟨x', hx', hread⟩ := ih hzs z hz
      exact ⟨x', List.mem_cons_of_mem _ hx', hread⟩

theorem foldlM_keeps {ε α β : Type} {f : β → α → Except ε β} {P : β → Prop} {xs : List α}
    (step : ∀ b, ∀ x ∈ xs, ∀ b', f b x = .ok b' → P b → P b') {b b' : β}
    (h : xs.foldlM f b = .ok b') (hb : P b) : P b' := by
  induction xs generalizing b with
  | nil =>
    cases h
    exact hb
  | cons x xs ih =>
    rw [List.foldlM_cons] at h
    obtain ⟨c, hc, h⟩ := bind_eq_ok_iff.mp h
    exact ih (fun b x hx => step b x (List.mem_cons_of_mem _ hx)) h
      (step b x (List.mem_cons_self ..) c hc hb)

namespace Document

/-- A document directly within another. -/
inductive Part : Document → Document → Prop
  | item {d : Document} {items : List Document} {ended : Bool} (h : d ∈ items) :
    Part d (.array items ended)
  | member {d : Document} {key : Option String} {ms : List (Option String × Document)}
    {ended : Bool} (h : (key, d) ∈ ms) : Part d (.object ms ended)

variable {α δ : Type} {read : Document → Except ReadError α} {d : Document}

theorem mismatch_ne_ok (d : Document) (a : α) : d.mismatch ≠ .ok a := by
  unfold mismatch
  split <;> intro h <;> cases h

theorem readFloat_eq_ok {x : Binary64} (h : d.readFloat = .ok x) :
    ∃ n, d = .number (some n) ∧ n.toFloat = x := by
  unfold readFloat at h
  split at h
  · rename_i n
    cases h
    exact ⟨n, rfl, rfl⟩
  · exact absurd h (mismatch_ne_ok _ x)

theorem mem_readList {xs : List α} (h : d.readList read = .ok xs) :
    ∀ x ∈ xs, ∃ p, Part p d ∧ read p = .ok x := by
  unfold readList at h
  split at h
  · obtain ⟨ys, hys, h⟩ := bind_eq_ok_iff.mp h
    split at h
    · cases h
      intro x hx
      obtain ⟨p, hp, hread⟩ := mem_of_mapM hys x hx
      exact ⟨p, .item hp, hread⟩
    · cases h
  · exact absurd h (mismatch_ne_ok _ xs)

theorem mem_readEntries {es : List (String × α)} (h : d.readEntries read = .ok es) :
    ∀ e ∈ es, ∃ p, Part p d ∧ read p = .ok e.2 := by
  unfold readEntries at h
  split at h
  · obtain ⟨fs, hfs, h⟩ := bind_eq_ok_iff.mp h
    split at h
    · cases h
      intro e he
      obtain ⟨⟨key, p⟩, hp, hread⟩ := mem_of_mapM hfs e he
      cases key with
      | none => cases hread
      | some key =>
        obtain ⟨a, ha, hread⟩ := bind_eq_ok_iff.mp hread
        cases hread
        exact ⟨p, .member hp, ha⟩
    · cases h
  · exact absurd h (mismatch_ne_ok _ es)

theorem readField_keeps {fields : List String}
    {readPart : String → Document → δ → Except ReadError δ} {P : δ → Prop}
    {state state' : δ × List String} {entry : Option String × Document}
    (step : ∀ key b b', readPart key entry.2 b = .ok b' → P b → P b')
    (h : readField fields readPart state entry = .ok state') (hstate : P state.1) :
    P state'.1 := by
  unfold readField at h
  split at h
  · cases h
  · rename_i key _
    split at h
    · split at h
      · cases h
      · obtain ⟨b, hb, h⟩ := bind_eq_ok_iff.mp h
        cases h
        exact step key state.1 b hb hstate
    · obtain ⟨_, _, h⟩ := bind_eq_ok_iff.mp h
      cases h
      exact hstate

theorem readRecord_keeps {fields : List String} {draft result : δ}
    {readPart : String → Document → δ → Except ReadError δ} {P : δ → Prop}
    (step : ∀ key p b b', Part p d → readPart key p b = .ok b' → P b → P b')
    (h : d.readRecord fields draft readPart = .ok result) (hdraft : P draft) : P result := by
  unfold readRecord at h
  split at h
  · rename_i ms ended
    obtain ⟨state, hstate, h⟩ := bind_eq_ok_iff.mp h
    split at h
    · cases h
      apply foldlM_keeps (P := fun b : δ × List String => P b.1) _ hstate hdraft
      intro b entry hentry b' hread
      exact readField_keeps (fun key c c' => step key entry.2 c c' (.member hentry)) hread
    · cases h
  · rename_i items ended
    obtain ⟨b, hb, h⟩ := bind_eq_ok_iff.mp h
    split at h
    · cases h
      apply foldlM_keeps _ hb hdraft
      intro b field hfield b' hread
      exact step field.1 field.2 b b' (.item (List.of_mem_zip hfield).2) hread
    · cases h
  · exact absurd h (mismatch_ne_ok _ result)

end Document
end MeshTelemetry.Json
