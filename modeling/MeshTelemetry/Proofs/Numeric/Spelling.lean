import Mathlib.Data.List.Induction
import MeshTelemetry.Proofs.Numeric.Radix

/-! Which texts are numbers in a radix. A number is read from exactly the digits that spell it,
in either case and with any zeros in front, and only if it lies below the limit. -/

set_option autoImplicit false

namespace MeshTelemetry.Radix

variable {radix limit n d : Nat} {c : Char} {cs : List Char}

def IsDigit (radix : Nat) (c : Char) (d : Nat) : Prop :=
  d < radix ∧ (c = Nat.digitChar d ∨ c = (Nat.digitChar d).toUpper)

/-- One digit or more and the number they spell: a digit at the end moves those before it up
by one place. -/
inductive Spells (radix : Nat) : List Char → Nat → Prop
  | digit {c : Char} {d : Nat} : IsDigit radix c d → Spells radix [c] d
  | append {cs : List Char} {n : Nat} {c : Char} {d : Nat} :
      Spells radix cs n → IsDigit radix c d → Spells radix (cs ++ [c]) (n * radix + d)

/-! Digits -/

theorem toNat_digitChar (hd : d < 16) :
    (Nat.digitChar d).toNat = (if d < 10 then 48 else 87) + d ∧
      (Nat.digitChar d).toUpper.toNat = (if d < 10 then 48 else 55) + d := by
  have hall : ∀ d < 16, (Nat.digitChar d).toNat = (if d < 10 then 48 else 87) + d ∧
      (Nat.digitChar d).toUpper.toNat = (if d < 10 then 48 else 55) + d := by decide
  exact hall d hd

theorem digitValue?_eq_some_iff (hd : d < 16) :
    digitValue? c = some d ↔ c = Nat.digitChar d ∨ c = (Nat.digitChar d).toUpper := by
  have hvalues : ∀ d < 16, digitValue? (Nat.digitChar d) = some d ∧
      digitValue? (Nat.digitChar d).toUpper = some d := by decide
  constructor
  · intro h
    obtain ⟨hlower, hupper⟩ := toNat_digitChar hd
    rw [← Char.toNat_inj, ← Char.toNat_inj, hlower, hupper]
    unfold digitValue? at h
    split at h
    · rename_i hrange
      have hlow : 48 ≤ c.toNat := hrange.1
      have hhigh : c.toNat ≤ 57 := hrange.2
      have hvalue : c.toNat - 48 = d := Option.some.inj h
      rw [if_pos (by omega)]
      omega
    · split at h
      · rename_i hrange
        have hlow : 97 ≤ c.toNat := hrange.1
        have hvalue : c.toNat - 97 + 10 = d := Option.some.inj h
        rw [if_neg (by omega)]
        omega
      · split at h
        · rename_i hrange
          have hlow : 65 ≤ c.toNat := hrange.1
          have hvalue : c.toNat - 65 + 10 = d := Option.some.inj h
          rw [if_neg (by omega), if_neg (by omega)]
          omega
        · cases h
  · rintro (rfl | rfl)
    · exact (hvalues d hd).1
    · exact (hvalues d hd).2

theorem digit?_eq_some_iff (hradix : radix ≤ 16) : digit? radix c = some d ↔ IsDigit radix c d := by
  rw [digit?, Option.filter_eq_some_iff, decide_eq_true_iff, IsDigit, And.comm]
  exact and_congr_right fun hd => digitValue?_eq_some_iff (Nat.lt_of_lt_of_le hd hradix)

/-! Numbers -/

theorem Spells.ne_nil (h : Spells radix cs n) : cs ≠ [] := by
  cases h with
  | digit _ => exact List.cons_ne_nil _ _
  | append _ _ => exact List.append_ne_nil_of_right_ne_nil _ (List.cons_ne_nil _ _)

theorem continue?_singleton (hradix : radix ≤ 16) {s : Nat} :
    continue? radix limit s [c] = some n ↔
      ∃ d, IsDigit radix c d ∧ s * radix + d = n ∧ n < limit := by
  simp only [← digit?_eq_some_iff hradix, continue?]
  cases digit? radix c with
  | none => simp
  | some d =>
    simp only [Option.some.injEq, exists_eq_left']
    by_cases hlimit : s * radix + d < limit
    · rw [if_pos hlimit, Option.some.injEq]
      exact ⟨fun heq => ⟨heq, heq ▸ hlimit⟩, And.left⟩
    · rw [if_neg hlimit]
      constructor
      · intro h
        cases h
      · rintro ⟨rfl, hlt⟩
        exact absurd hlt hlimit

theorem read?_append_singleton (hne : cs ≠ []) :
    read? radix limit (cs ++ [c]) =
      (read? radix limit cs).bind fun m => continue? radix limit m [c] := by
  rw [read?, read?, if_neg (by simp), if_neg (by simpa using hne), continue?_append]

theorem read?_singleton (hradix : radix ≤ 16) :
    read? radix limit [c] = some n ↔ IsDigit radix c n ∧ n < limit := by
  have hread : read? radix limit [c] = continue? radix limit 0 [c] := rfl
  rw [hread, continue?_singleton hradix]
  simp only [Nat.zero_mul, Nat.zero_add]
  constructor
  · rintro ⟨d, hd, rfl, hlimit⟩
    exact ⟨hd, hlimit⟩
  · rintro ⟨hd, hlimit⟩
    exact ⟨n, hd, rfl, hlimit⟩

theorem read?_of_spells (hpos : 0 < radix) (hradix : radix ≤ 16) (h : Spells radix cs n)
    (hlimit : n < limit) : read? radix limit cs = some n := by
  induction h with
  | digit hd => exact (read?_singleton hradix).mpr ⟨hd, hlimit⟩
  | append hcs hd ih =>
    rename_i cs m c d
    have hless : m < limit := by
      have hscaled : m ≤ m * radix := Nat.le_mul_of_pos_right m hpos
      omega
    rw [read?_append_singleton hcs.ne_nil, ih hless, Option.bind_some]
    exact (continue?_singleton hradix).mpr ⟨d, hd, rfl, hlimit⟩

theorem spells_of_read? (hradix : radix ≤ 16) (h : read? radix limit cs = some n) :
    Spells radix cs n ∧ n < limit := by
  induction cs using List.reverseRecOn generalizing n with
  | nil => cases h
  | append_singleton cs c ih =>
    by_cases hne : cs = []
    · subst hne
      obtain ⟨hd, hlimit⟩ := (read?_singleton hradix).mp h
      exact ⟨.digit hd, hlimit⟩
    · rw [read?_append_singleton hne, Option.bind_eq_some_iff] at h
      obtain ⟨m, hm, hc⟩ := h
      obtain ⟨d, hd, rfl, hlimit⟩ := (continue?_singleton hradix).mp hc
      exact ⟨.append (ih hm).1 hd, hlimit⟩

theorem read?_eq_some_iff (hpos : 0 < radix) (hradix : radix ≤ 16) :
    read? radix limit cs = some n ↔ Spells radix cs n ∧ n < limit :=
  ⟨spells_of_read? hradix, fun h => read?_of_spells hpos hradix h.1 h.2⟩

theorem spells_padded (htwo : 1 < radix) (hradix : radix ≤ 16) (width n : Nat) :
    Spells radix (padded radix width n) n :=
  (spells_of_read? hradix (read?_padded htwo hradix (Nat.lt_succ_self n) width)).1

theorem Spells.isDigit_of_mem (h : Spells radix cs n) (hc : c ∈ cs) : ∃ d, IsDigit radix c d := by
  induction h with
  | digit hd =>
    rw [List.mem_singleton.mp hc]
    exact ⟨_, hd⟩
  | append _ hd ih =>
    rcases List.mem_append.mp hc with hc | hc
    · exact ih hc
    · rw [List.mem_singleton.mp hc]
      exact ⟨_, hd⟩

end MeshTelemetry.Radix
