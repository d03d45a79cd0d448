import MeshTelemetry.Proofs.Data.KeyMap
import MeshTelemetry.Proofs.Json.Parts
import MeshTelemetry.Proofs.Numeric.Finiteness

/-! The numbers of a text are finite. A numeral has no value where its value would not
be finite, the tree of a text has no numbers but those of its tokens, and a decoded value
none but those of its tree. -/

set_option autoImplicit false

namespace MeshTelemetry.Json

open Text (Symbol)

def Number.IsFinite (n : Number) : Prop := n.toFloat.isFinite = true

/-! Numerals -/

namespace Numeral

theorem absorb_lt {s : Nat} (h : s < significandLimit) (ds : List Nat) :
    (absorb s ds).1 < significandLimit := by
  induction ds generalizing s with
  | nil => exact h
  | cons d ds ih =>
    rw [absorb]
    split
    · rename_i hroom
      exact ih hroom
    · exact h

theorem scaled_lt (n : Numeral) : n.scaled.1 < significandLimit := by
  have hwhole := absorb_lt (s := 0) (by decide) n.whole
  unfold scaled
  cases n.fraction with
  | none => exact hwhole
  | some ds => exact absorb_lt hwhole ds

theorem isFinite_scale {steps : Nat} {f x : Binary64} {e : Int} (hf : f.isFinite = true)
    (h : scale steps f e = some x) : x.isFinite = true := by
  induction steps generalizing f e with
  | zero =>
    cases h
    exact hf
  | succ steps ih =>
    rw [scale] at h
    split at h
    · rename_i hnear
      split at h
      · simp only at h
        split at h
        · rename_i hproduct
          cases h
          exact hproduct
        · cases h
      · cases h
        obtain ⟨hten, hone⟩ := Binary64.tenPow_spec hnear
        exact Binary64.isFinite_div hf hten hone
    · split at h
      · cases h
        exact hf
      · split at h
        · cases h
        · obtain ⟨hten, hone⟩ := Binary64.tenPow_spec (Nat.le_refl 308)
          exact ih (Binary64.isFinite_div hf hten hone) h

theorem isFinite_magnitude? {n : Numeral} {x : Binary64} (h : n.magnitude? = some x) :
    x.isFinite = true := by
  have hsignificand : (Binary64.ofNat n.scaled.1).isFinite = true :=
    Binary64.isFinite_ofNat (Nat.le_of_lt n.scaled_lt)
  unfold magnitude? at h
  simp only at h
  split at h
  · exact isFinite_scale hsignificand h
  · split at h
    · split at h
      · rw [← Option.some.inj h]
        exact Binary64.isFinite_ofNat (Nat.zero_le _)
      · cases h
    · exact isFinite_scale hsignificand h

theorem isFinite_value? {n : Numeral} {v : Number} (h : n.value? = some v) : v.IsFinite := by
  have hwhole := absorb_lt (s := 0) (by decide) n.whole
  have hlimit : significandLimit = 2 ^ 64 := rfl
  have hfloat : ∀ f : Binary64 → Binary64, (∀ x, x.isFinite = true → (f x).isFinite = true) →
      (n.magnitude?.map fun x => Number.float (f x)) = some v → v.IsFinite := by
    intro f hf hsome
    obtain ⟨x, hx, rfl⟩ := Option.map_eq_some_iff.mp hsome
    exact hf x (isFinite_magnitude? hx)
  have hsigned : ∀ x : Binary64, x.isFinite = true →
      (if n.negative then x.neg else x).isFinite = true := by
    intro x hx
    split
    · exact Binary64.isFinite_neg hx
    · exact hx
  unfold value? at h
  simp only at h
  split at h
  · split at h
    · exact hfloat _ hsigned h
    · split at h
      · split at h
        · cases h
          apply Binary64.isFinite_ofInt
          omega
        · exact hfloat _ (fun x hx => Binary64.isFinite_neg hx) h
      · cases h
        apply Binary64.isFinite_ofInt
        omega
  · exact hfloat _ hsigned h

end Numeral

/-! Tokens -/

namespace Token

def IsFinite (t : Token) : Prop := ∀ n, t = .number (some n) → n.IsFinite

theorem isFinite_ofWord (word : List Char) {t : Token} (ht : t.IsFinite) (cs : List Symbol) :
    (ofWord word t cs).1.IsFinite := by
  unfold ofWord
  split
  · exact ht
  · intro n hn
    cases hn

theorem isFinite_ofNumeral (negative : Bool) (cs : List Symbol) :
    (ofNumeral negative cs).1.IsFinite := by
  unfold ofNumeral
  split
  · intro n hn
    exact Numeral.isFinite_value? (Token.number.inj hn)
  · intro n hn
    cases hn

theorem isFinite_ofQuoted (cs : List Symbol) : (ofQuoted cs).1.IsFinite := by
  unfold ofQuoted
  split <;> intro n hn <;> cases hn

theorem isFinite_next (first : Symbol) (cs : List Symbol) : (next first cs).1.IsFinite := by
  unfold next
  split
  case h_7 | h_8 | h_9 => exact isFinite_ofWord _ (fun n hn => Token.noConfusion hn) cs
  case h_10 => exact isFinite_ofQuoted cs
  case h_11 => exact isFinite_ofNumeral true cs
  case h_12 =>
    split
    · exact isFinite_ofNumeral false _
    · intro n hn
      cases hn
  all_goals
    intro n hn
    cases hn

theorem isFinite_collect (acc : List Token) (cs : List Symbol) (h : ∀ t ∈ acc, t.IsFinite) :
    ∀ t ∈ collect acc cs, t.IsFinite := by
  fun_induction collect acc cs with
  | case1 acc => exact h
  | case2 acc c cs hspace ih => exact ih h
  | case3 acc c cs hspace step hfault =>
    exact List.forall_mem_cons.mpr ⟨fun n hn => Token.noConfusion hn, h⟩
  | case4 acc c cs hspace step hnext ih =>
    apply ih
    exact List.forall_mem_cons.mpr ⟨isFinite_next c cs, h⟩

theorem isFinite_all (cs : List Symbol) : ∀ t ∈ all cs, t.IsFinite := by
  intro t ht
  exact isFinite_collect [] cs (List.forall_mem_nil _) t (List.mem_reverse.mp ht)

end Token

/-! Trees -/

namespace Document

inductive IsFinite : Document → Prop
  | intro {d : Document} (number : ∀ n, d = .number (some n) → n.IsFinite)
    (part : ∀ p, Part p d → IsFinite p) : IsFinite d

theorem IsFinite.number {n : Number} (h : IsFinite (.number (some n))) : n.IsFinite := by
  cases h with
  | intro number _ => exact number n rfl

theorem IsFinite.part {d p : Document} (h : d.IsFinite) (hp : Part p d) : p.IsFinite := by
  cases h with
  | intro _ part => exact part p hp

theorem isFinite_array {items : List Document} (h : ∀ d ∈ items, d.IsFinite) (ended : Bool) :
    IsFinite (.array items ended) := by
  apply IsFinite.intro
  · intro n hn
    cases hn
  · intro p hp
    cases hp with
    | item hmem => exact h p hmem

theorem isFinite_object {ms : List (Option String × Document)} (h : ∀ e ∈ ms, e.2.IsFinite)
    (ended : Bool) : IsFinite (.object ms ended) := by
  apply IsFinite.intro
  · intro n hn
    cases hn
  · intro p hp
    cases hp with
    | member hmem => exact h _ hmem

def Frame.IsFinite : Frame → Prop
  | .array items => ∀ d ∈ items, d.IsFinite
  | .member ms _ => ∀ e ∈ ms, e.2.IsFinite

def Stage.IsFinite : Stage → Prop
  | .value | .arrayOpened | .objectOpened => True
  | .key ms | .colon ms _ => ∀ e ∈ ms, e.2.IsFinite
  | .after d => d.IsFinite

structure State.IsFinite (s : State) : Prop where
  frames : ∀ f ∈ s.frames, f.IsFinite
  stage : s.stage.IsFinite

theorem isFinite_atom {d : Document} (hnumber : ∀ n, d = .number (some n) → n.IsFinite)
    (hpart : ∀ p, ¬ Part p d) : d.IsFinite :=
  .intro hnumber fun p hp => absurd hp (hpart p)

theorem isFinite_enter {frames : List Frame} {t : Token} {s : State}
    (hframes : ∀ f ∈ frames, f.IsFinite) (ht : t.IsFinite) (h : State.enter frames t = some s) :
    s.IsFinite := by
  cases t with
  | openArray | openObject =>
    cases h
    exact ⟨hframes, trivial⟩
  | number n =>
    cases h
    refine ⟨hframes, isFinite_atom ?_ ?_⟩
    · intro m hm
      cases hm
      exact ht m rfl
    · intro p hp
      cases hp
  | null | bool b | string v =>
    cases h
    refine ⟨hframes, isFinite_atom ?_ ?_⟩
    · intro m hm
      cases hm
    · intro p hp
      cases hp
  | closeArray | closeObject | comma | colon | fault => cases h

theorem isFinite_array_cons {items : List Document} {d : Document} (hd : d.IsFinite)
    (h : ∀ p ∈ items, p.IsFinite) (ended : Bool) : IsFinite (.array (d :: items).reverse ended) := by
  apply isFinite_array
  intro p hp
  exact List.forall_mem_cons.mpr ⟨hd, h⟩ p (List.mem_reverse.mp hp)

theorem isFinite_object_cons {ms : List (Option String × Document)} {d : Document}
    (key : Option String) (hd : d.IsFinite) (h : ∀ e ∈ ms, e.2.IsFinite) (ended : Bool) :
    IsFinite (.object ((key, d) :: ms).reverse ended) := by
  apply isFinite_object
  intro e he
  rcases List.mem_cons.mp (List.mem_reverse.mp he) with rfl | hrest
  · exact hd
  · exact h e hrest

/-- A value is finished: its container takes it in, and goes on or is finished too. -/
theorem isFinite_step_after {frames : List Frame} {d : Document} {s : State} {t : Token}
    (hframes : ∀ f ∈ frames, f.IsFinite) (hd : d.IsFinite)
    (h : State.step ⟨frames, .after d⟩ t = some s) : s.IsFinite := by
  cases frames with
  | nil => cases h
  | cons f outer =>
    obtain ⟨hf, houter⟩ := List.forall_mem_cons.mp hframes
    cases f with
    | array items =>
      cases t with
      | comma =>
        cases h
        exact ⟨List.forall_mem_cons.mpr ⟨List.forall_mem_cons.mpr ⟨hd, hf⟩, houter⟩, trivial⟩
      | closeArray =>
        cases h
        exact ⟨houter, isFinite_array_cons hd hf true⟩
      | _ => cases h
    | member ms k =>
      cases t with
      | comma =>
        cases h
        exact ⟨houter, List.forall_mem_cons.mpr ⟨hd, hf⟩⟩
      | closeObject =>
        cases h
        exact ⟨houter, isFinite_object_cons k hd hf true⟩
      | _ => cases h

theorem State.IsFinite.step {s s' : State} {t : Token} (hs : s.IsFinite) (ht : t.IsFinite)
    (h : s.step t = some s') : s'.IsFinite := by
  obtain ⟨frames, stage⟩ := s
  obtain ⟨hframes, hstage⟩ := hs
  cases stage with
  | value => exact isFinite_enter hframes ht h
  | arrayOpened =>
    cases t with
    | closeArray =>
      cases h
      exact ⟨hframes, isFinite_array (List.forall_mem_nil _) true⟩
    | _ =>
      have hopen : ∀ f ∈ Frame.array [] :: frames, f.IsFinite :=
        List.forall_mem_cons.mpr ⟨List.forall_mem_nil _, hframes⟩
      exact isFinite_enter hopen ht h
  | objectOpened =>
    cases t with
    | closeObject =>
      cases h
      exact ⟨hframes, isFinite_object (List.forall_mem_nil _) true⟩
    | string k =>
      cases h
      exact ⟨hframes, List.forall_mem_nil _⟩
    | _ => cases h
  | key ms =>
    cases t with
    | string k =>
      cases h
      exact ⟨hframes, hstage⟩
    | _ => cases h
  | colon ms k =>
    cases t with
    | colon =>
      cases h
      exact ⟨List.forall_mem_cons.mpr ⟨hstage, hframes⟩, trivial⟩
    | _ => cases h
  | after d => exact isFinite_step_after hframes hstage h

theorem Frame.IsFinite.close {d : Document} {f : Frame} (hf : f.IsFinite) (hd : d.IsFinite) :
    (f.close d).IsFinite := by
  cases f with
  | array items => exact isFinite_array_cons hd hf false
  | member ms key => exact isFinite_object_cons key hd hf false

theorem isFinite_closeAll {d : Document} {frames : List Frame} (hd : d.IsFinite)
    (hframes : ∀ f ∈ frames, f.IsFinite) : (closeAll d frames).IsFinite := by
  induction frames generalizing d with
  | nil => exact hd
  | cons f frames ih =>
    obtain ⟨hf, hrest⟩ := List.forall_mem_cons.mp hframes
    exact ih (hf.close hd) hrest

theorem isFinite_broken : IsFinite .broken := by
  apply isFinite_atom
  · intro n hn
    cases hn
  · intro p hp
    cases hp

theorem State.IsFinite.close {s : State} (hs : s.IsFinite) : s.close.IsFinite := by
  obtain ⟨frames, stage⟩ := s
  obtain ⟨hframes, hstage⟩ := hs
  cases stage with
  | value =>
    cases frames with
    | nil => exact isFinite_broken
    | cons f outer =>
      obtain ⟨hf, houter⟩ := List.forall_mem_cons.mp hframes
      cases f with
      | array items =>
        have hitems : ∀ d ∈ items.reverse, d.IsFinite := fun d hd => hf d (List.mem_reverse.mp hd)
        exact isFinite_closeAll (isFinite_array hitems false) houter
      | member ms k => exact isFinite_closeAll isFinite_broken hframes
  | arrayOpened => exact isFinite_closeAll (isFinite_array (List.forall_mem_nil _) false) hframes
  | objectOpened => exact isFinite_closeAll (isFinite_object (List.forall_mem_nil _) false) hframes
  | key ms =>
    have hmembers : ∀ e ∈ ms.reverse, e.2.IsFinite := fun e he => hstage e (List.mem_reverse.mp he)
    exact isFinite_closeAll (isFinite_object hmembers false) hframes
  | colon ms k => exact isFinite_closeAll (isFinite_object_cons k isFinite_broken hstage false) hframes
  | after d => exact isFinite_closeAll hstage hframes

theorem State.IsFinite.run {s : State} {ts : List Token} (hs : s.IsFinite)
    (hts : ∀ t ∈ ts, t.IsFinite) : (s.run ts).1.IsFinite := by
  induction ts generalizing s with
  | nil =>
    have hclose := hs.close
    unfold State.run
    split
    · rename_i d hframes hstage
      have hd := hs.stage
      rw [hstage] at hd
      exact hd
    · exact hclose
  | cons t ts ih =>
    obtain ⟨ht, hrest⟩ := List.forall_mem_cons.mp hts
    rw [State.run]
    split
    · rename_i s' hstep
      exact ih (hs.step ht hstep) hrest
    · exact hs.close

theorem isFinite_parse (cs : List Symbol) : (parse cs).1.IsFinite :=
  State.IsFinite.run ⟨List.forall_mem_nil _, trivial⟩ (Token.isFinite_all cs)

/-! Decoded values -/

variable {room : Nat} {d : Document}

theorem eq_number_of_value? {n : Number} (h : d.value? room = some (.number n)) :
    d = .number (some n) := by
  cases d with
  | number n' =>
    rw [value?] at h
    obtain ⟨m, rfl, hm⟩ := Option.map_eq_some_iff.mp h
    cases hm
    rfl
  | array items ended => cases room <;> simp [value?] at h
  | object ms ended => cases room <;> simp [value?] at h
  | _ => simp [value?] at h

/-- The members of a decoded object are values of parts. -/
theorem exists_mem_of_memberValues? {ds : List (Option String × Document)} {acc ms : Members}
    (h : memberValues? room acc ds = some ms) :
    ∀ m ∈ ms, m ∈ acc ∨ ∃ d, (some m.1, d) ∈ ds ∧ d.value? room = some m.2 := by
  induction ds generalizing acc with
  | nil =>
    rw [memberValues?] at h
    cases h
    exact fun m hm => .inl hm
  | cons e ds ih =>
    obtain ⟨key, d⟩ := e
    cases key with
    | none => simp [memberValues?] at h
    | some key =>
      rw [memberValues?] at h
      cases hd : d.value? room with
      | none => simp [hd] at h
      | some v =>
        rw [hd] at h
        intro m hm
        rcases ih h m hm with hput | ⟨d', hmem, hd'⟩
        · rcases KeyMap.mem_put hput with rfl | hacc
          · exact .inr ⟨d, List.mem_cons_self, hd⟩
          · exact .inl hacc
        · exact .inr ⟨d', List.mem_cons_of_mem _ hmem, hd'⟩

theorem exists_part_of_value? {ms : Members} (h : d.value? room = some (.object ms)) :
    ∀ m ∈ ms, ∃ p room, Part p d ∧ p.value? room = some m.2 := by
  cases d with
  | object ds ended =>
    cases room with
    | zero => simp [value?] at h
    | succ room =>
      rw [value?] at h
      split at h
      · obtain ⟨ms', hms', heq⟩ := Option.map_eq_some_iff.mp h
        cases heq
        intro m hm
        rcases exists_mem_of_memberValues? hms' m hm with hnil | ⟨p, hp, hvalue⟩
        · cases hnil
        · exact ⟨p, room, .member hp, hvalue⟩
      · cases h
  | array items ended => cases room <;> simp [value?] at h
  | _ => simp [value?] at h

end Document

def IsDecoded (v : Json) : Prop :=
  ∃ (d : Document) (room : Nat), d.IsFinite ∧ d.value? room = some v

namespace IsDecoded

theorem of_decode? {cs : List Symbol} {v : Json} (h : decode? cs = some v) : IsDecoded v := by
  refine ⟨(Document.parse cs).1, nestingRoom, Document.isFinite_parse cs, ?_⟩
  unfold decode? at h
  dsimp only at h
  split at h
  · exact h
  · cases h

theorem member {ms : Members} {key : String} {v : Json} (h : IsDecoded (.object ms))
    (hv : member? ms key = some v) : IsDecoded v := by
  obtain ⟨d, room, hd, hvalue⟩ := h
  obtain ⟨p, room', hpart, hp⟩ :=
    Document.exists_part_of_value? hvalue _ (Table.mem_of_lookup hv)
  exact ⟨p, room', hd.part hpart, hp⟩

theorem isFinite {n : Number} (h : IsDecoded (.number n)) : n.IsFinite := by
  obtain ⟨d, room, hd, hvalue⟩ := h
  rw [Document.eq_number_of_value? hvalue] at hd
  exact hd.number

end IsDecoded
end MeshTelemetry.Json
