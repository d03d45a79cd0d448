import MeshTelemetry.Proofs.Json.Numerals
import MeshTelemetry.Proofs.Message.Envelopes

/-! Whose messages are taken. A message is judged by the value of its sender's number and by
nothing else in it: the integers from one to the greatest of 32 bits are nodes, zero is no
sender, and every other number or value is refused as invalid, at whatever size. -/

set_option autoImplicit false

namespace MeshTelemetry

/-! Values of numbers -/

namespace Binary64

variable {x : Binary64} {i : Int}

theorem exists_natCast_of_isWhole (hwhole : x.isWhole = true) (hsign : 0 ≤ x.signedUnits) :
    ∃ n : Nat, x.isFinite = true ∧ x.signedUnits = n * one := by
  rw [isWhole, Bool.and_eq_true, decide_eq_true_eq] at hwhole
  refine ⟨x.units / one, hwhole.1, ?_⟩
  rw [← Int.natCast_mul, Nat.div_mul_cancel (Nat.dvd_of_mod_eq_zero hwhole.2),
    ← natAbs_signedUnits, Int.natAbs_of_nonneg hsign]

theorem pow_mul_one_le_units_ofInt {k : Nat} (h : (ofInt i).isFinite = true)
    (hk : 2 ^ k ≤ i.natAbs) : 2 ^ k * one ≤ (ofInt i).units :=
  pow_mul_one_le_units_ofRatio _ h hk

theorem signedUnits_ofInt_neg (h : (ofInt i).isFinite = true) (hi : i < 0) :
    (ofInt i).signedUnits < 0 := by
  have hnegative : (ofInt i).negative = true := by
    rw [ofInt, ofRatio, negative_nearest, decide_eq_true hi]
  have hone := one_pos
  have hunits := pow_mul_one_le_units_ofInt (k := 0) h (by omega)
  rw [signedUnits, hnegative, if_pos rfl]
  generalize one = k at hone hunits
  omega

/-- An integer past 64 bits that is held as a whole number is past 64 bits there too. -/
theorem le_of_ofInt {n : Nat} (hlarge : greatestUnsigned64 < i) (h : (ofInt i).isFinite = true)
    (hn : (ofInt i).signedUnits = n * one) : 2 ^ 64 ≤ n := by
  have hpower : 2 ^ 64 ≤ i.natAbs := by
    rw [greatestUnsigned64] at hlarge
    omega
  have hunits := pow_mul_one_le_units_ofInt h hpower
  rw [units_of_signedUnits hn, Int.natAbs_natCast] at hunits
  exact Nat.le_of_mul_le_mul_right hunits one_pos

end Binary64

namespace Json.Number

variable {number : Number} {i j : Int}

theorem Denotes.unique (hi : number.Denotes i) (hj : number.Denotes j) : i = j := by
  cases number with
  | int k => exact hi.symm.trans hj
  | float x =>
    rw [← Binary64.integerPart_of_signedUnits hi.2, Binary64.integerPart_of_signedUnits hj.2]

theorem denotes_ofNat {n : Nat} (h : n < 2 ^ 53) : (float (Binary64.ofNat n)).Denotes n := by
  obtain ⟨hfinite, hunits⟩ := Binary64.nearest_whole_spec false h
  refine ⟨hfinite, ?_⟩
  rw [Binary64.signedUnits, Binary64.negative_ofNat, if_neg (by decide),
    ← Int.natCast_mul]
  exact congrArg Nat.cast hunits

theorem denotes_negativeZero : (float (Binary64.signed true 0)).Denotes 0 := by
  refine ⟨by decide, ?_⟩
  have hunits : (Binary64.signed true 0).units = 0 := by decide
  rw [Binary64.signedUnits, hunits, Int.zero_mul]
  rfl

theorem denotes_of_unsigned64? {n : Nat} (h : number.unsigned64? = some n) : number.Denotes n := by
  cases number with
  | int k =>
    rw [unsigned64?] at h
    split at h
    · rename_i hrange
      cases h
      exact (Int.toNat_of_nonneg hrange.1).symm
    · cases h
  | float x => cases h

/-- What is held as a whole number, and not as an integer of 64 bits, is that number, or is
past 64 bits before and after. -/
theorem denotes_or_le_of_toFloat {n : Nat} (hnone : number.unsigned64? = none)
    (hfinite : number.toFloat.isFinite = true)
    (hn : number.toFloat.signedUnits = n * Binary64.one) : number.Denotes n ∨ 2 ^ 64 ≤ n := by
  cases number with
  | float x => exact .inl ⟨hfinite, hn⟩
  | int i =>
    right
    rcases Int.lt_or_le i 0 with hneg | hnonneg
    · have hsign := Binary64.signedUnits_ofInt_neg hfinite hneg
      have hnat : 0 ≤ (n : Int) * Binary64.one :=
        Int.mul_nonneg (Int.natCast_nonneg _) (Int.natCast_nonneg _)
      rw [← hn] at hnat
      exact absurd hsign (Int.not_lt.mpr hnat)
    · apply Binary64.le_of_ofInt _ hfinite hn
      apply Int.not_le.mp
      intro hle
      rw [unsigned64?, if_pos ⟨hnonneg, hle⟩] at hnone
      cases hnone

end Json.Number

/-! Decimal numerals -/

/-- A text that is a number in decimal: digits only, and no zero before another digit. -/
structure IsDecimal (text : String) (n : Nat) : Prop where
  digits : Json.AreDigits text.toList
  leading : text.toList.head? = some '0' → text = "0"
  value : Nat.ofDigitChars 10 text.toList 0 = n

theorem isDecimal_toString (n : Nat) : IsDecimal (toString n) n := by
  have hdigits : (toString n).toList = Nat.toDigits 10 n := Nat.toList_repr
  refine ⟨?_, ?_, ?_⟩
  · rw [hdigits]
    exact Json.areDigits_toDigits _
  · intro hzero
    rw [hdigits] at hzero
    rcases Nat.eq_zero_or_pos n with heq | hpos
    · rw [heq]
      rfl
    · exact absurd hzero (head_toDigits hpos)
  · rw [hdigits]
    exact Nat.ofDigitChars_ten_toDigits

theorem isDecimal_nodeId (number : UInt32) : IsDecimal (nodeId number) number.toNat :=
  isDecimal_toString number.toNat

theorem nodeId_injective : Function.Injective nodeId := by
  intro a b h
  have hvalue := (isDecimal_nodeId a).value
  rw [h, (isDecimal_nodeId b).value] at hvalue
  exact UInt32.toNat_inj.mp hvalue.symm

/-! Verdicts -/

/-- The integer that an envelope names as its sender, whatever form its number has. -/
def Envelope.SentBy (e : Envelope) (i : Int) : Prop :=
  ∃ number : Json.Number, Json.member? e "from" = some (.number number) ∧ number.Denotes i

theorem Envelope.SentBy.unique {e : Envelope} {i j : Int} (hi : e.SentBy i) (hj : e.SentBy j) :
    i = j := by
  obtain ⟨number, hfrom, hi⟩ := hi
  obtain ⟨number', hfrom', hj⟩ := hj
  rw [hfrom] at hfrom'
  cases hfrom'
  exact hi.unique hj

theorem Envelope.SentBy.ne_none {e : Envelope} {i : Int} (h : e.SentBy i) :
    Json.member? e "from" ≠ none := by
  obtain ⟨number, hfrom, _⟩ := h
  rw [hfrom]
  exact nofun

namespace Message

variable {number : Json.Number} {e : Envelope} {now : Int} {m : Message} {r : Rejection}

theorem senderOfNat_large {n : Nat} (h : 4294967296 ≤ n) :
    senderOfNat n = .error (.invalidSender (toString n)) := by
  rw [senderOfNat, if_pos h]

theorem senderOfNumber_invalid (h : ∀ i, number.Denotes i → i < 0 ∨ 4294967295 < i) :
    ∃ text, senderOfNumber number = .error (.invalidSender text) := by
  have hlarge : ∀ n : Nat, number.Denotes n → 4294967296 ≤ n := fun n hn => by
    have hbound := h n hn
    omega
  unfold senderOfNumber
  split
  · rename_i n hn
    exact ⟨_, senderOfNat_large (hlarge n (Json.Number.denotes_of_unsigned64? hn))⟩
  · rename_i hnone
    dsimp only
    split
    · rename_i hwhole
      obtain ⟨n, hfinite, hn⟩ := Binary64.exists_natCast_of_isWhole hwhole.1 hwhole.2
      have hle : 4294967296 ≤ n := by
        rcases Json.Number.denotes_or_le_of_toFloat hnone hfinite hn with hdenotes | hpast
        · exact hlarge n hdenotes
        · omega
      rw [Binary64.toUnsigned64_of_signedUnits hfinite hn, greatestUnsigned64]
      exact ⟨_, senderOfNat_large (by omega)⟩
    · exact ⟨_, rfl⟩

inductive Verdict (e : Envelope) : Except Rejection UInt32 → Prop
  | missing : Json.member? e "from" = none → Verdict e (.error .missingSender)
  | zero : e.SentBy 0 → Verdict e (.error .zeroSender)
  | accepted (sender : UInt32) : sender ≠ 0 → e.SentBy sender.toNat → Verdict e (.ok sender)
  | invalid (text : String) : Json.member? e "from" ≠ none →
      (∀ i, e.SentBy i → i < 0 ∨ 4294967295 < i) → Verdict e (.error (.invalidSender text))

theorem verdict_of_number (hfrom : Json.member? e "from" = some (.number number)) :
    Verdict e (senderOfNumber number) := by
  rcases Classical.em (∃ n : Nat, number.Denotes n ∧ n < 4294967296) with ⟨n, hn, hlt⟩ | hnone
  · rcases Nat.eq_zero_or_pos n with rfl | hpos
    · rw [senderOfNumber_natCast hn (by decide)]
      exact .zero ⟨number, hfrom, hn⟩
    · have hvalue : (UInt32.ofNat n).toNat = n := UInt32.toNat_ofNat_of_lt' hlt
      have hne : UInt32.ofNat n ≠ 0 := by
        intro hzero
        rw [hzero] at hvalue
        exact Nat.ne_of_lt hpos hvalue
      rw [senderOfNumber_of_denotes hne (by rw [hvalue]; exact hn)]
      exact .accepted _ hne ⟨number, hfrom, by rw [hvalue]; exact hn⟩
  · have hout : ∀ i, number.Denotes i → i < 0 ∨ 4294967295 < i := by
      intro i hi
      rcases Int.lt_or_le i 0 with hneg | hnonneg
      · exact .inl hneg
      · right
        apply Int.not_le.mp
        intro hle
        exact hnone ⟨i.toNat, by rw [Int.toNat_of_nonneg hnonneg]; exact hi, by omega⟩
    obtain ⟨text, htext⟩ := senderOfNumber_invalid hout
    rw [htext]
    refine .invalid text (by rw [hfrom]; exact nofun) ?_
    rintro i ⟨number', hfrom', hi⟩
    rw [hfrom] at hfrom'
    cases hfrom'
    exact hout i hi

theorem verdict_senderOf (e : Envelope) : Verdict e (senderOf e) := by
  unfold senderOf
  split
  · rename_i hnone
    exact .missing hnone
  · rename_i number hfrom
    exact verdict_of_number hfrom
  · rename_i v hnumber hfrom
    refine .invalid _ (by rw [hfrom]; exact nofun) ?_
    rintro i ⟨number, hfrom', _⟩
    rw [hfrom] at hfrom'
    exact absurd (Option.some.inj hfrom') (hnumber number)

theorem exists_senderOf_iff :
    (∃ sender, senderOf e = .ok sender) ↔ ∃ i, e.SentBy i ∧ 1 ≤ i ∧ i ≤ 4294967295 := by
  have hverdict := verdict_senderOf e
  constructor
  · rintro ⟨sender, hsender⟩
    rw [hsender] at hverdict
    cases hverdict with
    | accepted _ hne hsent =>
      have hlt : sender.toNat < 4294967296 := sender.toNat_lt
      have hzero : sender.toNat ≠ 0 := fun hzero => hne (UInt32.toNat_inj.mp hzero)
      exact ⟨sender.toNat, hsent, by omega, by omega⟩
  · rintro ⟨i, hsent, hlow, hhigh⟩
    generalize senderOf e = result at hverdict ⊢
    cases hverdict with
    | missing hnone => exact absurd hnone hsent.ne_none
    | zero hzero =>
      rw [hsent.unique hzero] at hlow
      exact absurd hlow (by decide)
    | accepted sender _ _ => exact ⟨sender, rfl⟩
    | invalid text _ hout =>
      have houtside := hout i hsent
      omega

theorem sentBy_of_senderOf {sender : UInt32} (h : senderOf e = .ok sender) :
    e.SentBy sender.toNat := by
  have hverdict := verdict_senderOf e
  rw [h] at hverdict
  cases hverdict with
  | accepted _ _ hsent => exact hsent

theorem senderOf_eq_zeroSender_iff : senderOf e = .error .zeroSender ↔ e.SentBy 0 := by
  have hverdict := verdict_senderOf e
  constructor
  · intro h
    rw [h] at hverdict
    cases hverdict with
    | zero hsent => exact hsent
  · intro hsent
    generalize senderOf e = result at hverdict ⊢
    cases hverdict with
    | missing hnone => exact absurd hnone hsent.ne_none
    | zero _ => rfl
    | accepted sender hne hsent' =>
      have hzero := hsent'.unique hsent
      exact absurd (UInt32.toNat_inj.mp (Int.ofNat_inj.mp hzero)) hne
    | invalid text _ hout =>
      have houtside := hout 0 hsent
      omega

theorem senderOf_eq_missingSender_iff :
    senderOf e = .error .missingSender ↔ Json.member? e "from" = none := by
  constructor
  · intro h
    have hverdict := verdict_senderOf e
    rw [h] at hverdict
    cases hverdict with
    | missing hnone => exact hnone
  · intro hnone
    rw [senderOf, hnone]

theorem senderOf_eq_invalidSender_iff :
    (∃ text, senderOf e = .error (.invalidSender text)) ↔
      Json.member? e "from" ≠ none ∧ ∀ i, e.SentBy i → i < 0 ∨ 4294967295 < i := by
  have hverdict := verdict_senderOf e
  constructor
  · rintro ⟨text, h⟩
    rw [h] at hverdict
    cases hverdict with
    | invalid _ hsome hout => exact ⟨hsome, hout⟩
  · rintro ⟨hsome, hout⟩
    generalize senderOf e = result at hverdict ⊢
    cases hverdict with
    | missing hnone => exact absurd hnone hsome
    | zero hsent =>
      have houtside := hout 0 hsent
      omega
    | accepted sender _ hsent =>
      have hlt : sender.toNat < 4294967296 := sender.toNat_lt
      have houtside := hout sender.toNat hsent
      omega
    | invalid text _ _ => exact ⟨text, rfl⟩

/-! Messages -/

theorem ofEnvelope_eq_error_iff : ofEnvelope now e = .error r ↔ senderOf e = .error r := by
  unfold ofEnvelope
  cases senderOf e with
  | error r' => exact ⟨fun h => by cases h; rfl, fun h => by cases h; rfl⟩
  | ok sender => exact ⟨nofun, nofun⟩

theorem senderOf_of_ofEnvelope (h : ofEnvelope now e = .ok m) : senderOf e = .ok m.sender := by
  unfold ofEnvelope at h
  split at h
  · cases h
  · rename_i sender hsender
    cases h
    exact hsender

theorem exists_ofEnvelope_iff :
    (∃ m, ofEnvelope now e = .ok m) ↔ ∃ sender, senderOf e = .ok sender := by
  constructor
  · rintro ⟨m, hm⟩
    exact ⟨m.sender, senderOf_of_ofEnvelope hm⟩
  · rintro ⟨sender, hsender⟩
    rw [ofEnvelope, hsender]
    exact ⟨_, rfl⟩

/-- A message has the sender whose integer its envelope names, if that is the number of a node.
Otherwise it is refused: for no sender if there is none or the integer is zero, and as an
invalid one if there is any other. -/
theorem sender_by_value (now : Int) (e : Envelope) :
    ((∃ m, ofEnvelope now e = .ok m) ↔ ∃ i, e.SentBy i ∧ 1 ≤ i ∧ i ≤ 4294967295) ∧
      (∀ m, ofEnvelope now e = .ok m →
        e.SentBy m.sender.toNat ∧ IsDecimal (nodeId m.sender) m.sender.toNat) ∧
      (ofEnvelope now e = .error .zeroSender ↔ e.SentBy 0) ∧
      (ofEnvelope now e = .error .missingSender ↔ Json.member? e "from" = none) ∧
      ((∃ text, ofEnvelope now e = .error (.invalidSender text)) ↔
        Json.member? e "from" ≠ none ∧ ∀ i, e.SentBy i → i < 0 ∨ 4294967295 < i) ∧
      Function.Injective nodeId := by
  refine ⟨exists_ofEnvelope_iff.trans exists_senderOf_iff, ?_,
    ofEnvelope_eq_error_iff.trans senderOf_eq_zeroSender_iff,
    ofEnvelope_eq_error_iff.trans senderOf_eq_missingSender_iff, ?_, nodeId_injective⟩
  · intro m hm
    exact ⟨sentBy_of_senderOf (senderOf_of_ofEnvelope hm), isDecimal_nodeId m.sender⟩
  · simp only [ofEnvelope_eq_error_iff]
    exact senderOf_eq_invalidSender_iff

/-- The greatest node, written as a float beside members that are of no kind, and minus zero. -/
theorem sender_by_value_floats :
    (∃ m, ofEnvelope 0 [("from", .number (.float (Binary64.ofNat 4294967295))),
        ("payload", .null), ("type", .number (.int 0))] = .ok m ∧
      m.sender = 4294967295 ∧ nodeId m.sender = "4294967295") ∧
    ofEnvelope 0 [("from", .number (.float (Binary64.signed true 0)))] = .error .zeroSender := by
  constructor
  · have hsent : Envelope.SentBy [("from", .number (.float (Binary64.ofNat 4294967295))),
        ("payload", .null), ("type", .number (.int 0))] (4294967295 : Nat) :=
      ⟨_, rfl, Json.Number.denotes_ofNat (by decide)⟩
    obtain ⟨accepts, named, _⟩ := sender_by_value 0
      [("from", .number (.float (Binary64.ofNat 4294967295))),
        ("payload", .null), ("type", .number (.int 0))]
    obtain ⟨m, hm⟩ := accepts.mpr ⟨_, hsent, by decide, by decide⟩
    have hvalue := Int.ofNat_inj.mp ((named m hm).1.unique hsent)
    have hsender : m.sender = 4294967295 := UInt32.toNat_inj.mp hvalue
    exact ⟨m, hm, hsender, by rw [hsender]; rfl⟩
  · obtain ⟨_, _, zero, _⟩ :=
      sender_by_value 0 [("from", .number (.float (Binary64.signed true 0)))]
    exact zero.mpr ⟨_, rfl, Json.Number.denotes_negativeZero⟩

end Message
end MeshTelemetry
