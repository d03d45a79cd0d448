import MeshTelemetry.Numeric.Radix

/-! Numbers written in a radix read back. The digits that are written are those that are
read, and zeros in front change nothing. -/

set_option autoImplicit false

namespace MeshTelemetry.Radix

variable {radix limit n : Nat}

/-- The digits that are written, in every radix up to sixteen. -/
def digitChars : List Char := "0123456789abcdef".toList

theorem digit?_digitChar {d : Nat} (hradix : radix ≤ 16) (hd : d < radix) :
    digit? radix (Nat.digitChar d) = some d := by
  have hall : ∀ d < 16, digitValue? (Nat.digitChar d) = some d := by decide
  rw [digit?, hall d (Nat.lt_of_lt_of_le hd hradix)]
  exact Option.filter_some_pos (decide_eq_true hd)

theorem digitChar_mem {d : Nat} (hd : d < 16) : Nat.digitChar d ∈ digitChars := by
  have hall : ∀ d < 16, Nat.digitChar d ∈ digitChars := by decide
  exact hall d hd

theorem continue?_append (s : Nat) (xs ys : List Char) :
    continue? radix limit s (xs ++ ys) =
      (continue? radix limit s xs).bind fun m => continue? radix limit m ys := by
  induction xs generalizing s with
  | nil => rfl
  | cons x xs ih =>
    rw [List.cons_append, continue?, continue?]
    cases digit? radix x with
    | none => rfl
    | some d =>
      dsimp only
      split
      · exact ih _
      · rfl

theorem continue?_toDigits (htwo : 1 < radix) (hradix : radix ≤ 16) (hn : n < limit) :
    continue? radix limit 0 (Nat.toDigits radix n) = some n := by
  induction n using Nat.strongRecOn with
  | ind n ih =>
    rw [Nat.toDigits_eq_if htwo]
    split
    · rename_i hlt
      rw [continue?, digit?_digitChar hradix hlt]
      simp [continue?, hn]
    · rename_i hge
      have hless : n / radix < n := Nat.div_lt_self (by omega) htwo
      have hdigit : n % radix < radix := Nat.mod_lt _ (by omega)
      have hsum : n / radix * radix + n % radix = n := Nat.div_add_mod' n radix
      rw [continue?_append, ih _ hless (Nat.lt_trans hless hn), Option.bind_some, continue?,
        digit?_digitChar hradix hdigit]
      simp [continue?, hsum, hn]

theorem continue?_zeros (hradix : 0 < radix) (hlimit : 0 < limit) (k : Nat) (cs : List Char) :
    continue? radix limit 0 (List.replicate k '0' ++ cs) = continue? radix limit 0 cs := by
  have hzero : digit? radix '0' = some 0 := Option.filter_some_pos (decide_eq_true hradix)
  induction k with
  | zero => rfl
  | succ k ih =>
    rw [List.replicate_succ, List.cons_append, continue?, hzero]
    simpa [hlimit] using ih

theorem read?_padded (htwo : 1 < radix) (hradix : radix ≤ 16) (hn : n < limit) (width : Nat) :
    read? radix limit (padded radix width n) = some n := by
  have hne : padded radix width n ≠ [] :=
    List.append_ne_nil_of_right_ne_nil _ Nat.toDigits_ne_nil
  rw [read?, if_neg (by simpa using hne), padded, continue?_zeros (by omega) (by omega),
    continue?_toDigits htwo hradix hn]

theorem length_padded {width : Nat} (htwo : 1 < radix) (hwidth : 0 < width)
    (hn : n < Nat.pow radix width) : (padded radix width n).length = width := by
  have hdigits := (Nat.length_toDigits_le_iff htwo hwidth).mpr hn
  rw [padded, List.length_append, List.length_replicate]
  omega

theorem mem_digitChars_of_mem_toDigits (htwo : 1 < radix) (hradix : radix ≤ 16) {c : Char}
    (hc : c ∈ Nat.toDigits radix n) : c ∈ digitChars := by
  induction n using Nat.strongRecOn with
  | ind n ih =>
    rw [Nat.toDigits_eq_if htwo] at hc
    split at hc
    · rename_i hlt
      rw [List.mem_singleton.mp hc]
      exact digitChar_mem (by omega)
    · rcases List.mem_append.mp hc with hc | hc
      · exact ih _ (Nat.div_lt_self (by omega) htwo) hc
      · have hdigit : n % radix < radix := Nat.mod_lt _ (by omega)
        rw [List.mem_singleton.mp hc]
        exact digitChar_mem (by omega)

theorem mem_digitChars_of_mem_padded (htwo : 1 < radix) (hradix : radix ≤ 16) {width : Nat}
    {c : Char} (hc : c ∈ padded radix width n) : c ∈ digitChars := by
  rcases List.mem_append.mp hc with hc | hc
  · rw [List.eq_of_mem_replicate hc]
    decide
  · exact mem_digitChars_of_mem_toDigits htwo hradix hc

end MeshTelemetry.Radix
