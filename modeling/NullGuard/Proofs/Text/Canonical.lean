import NullGuard.Proofs.ClassFile.Growth

/-!
# Which bytes are exact

Reading accepts all bytes, so different bytes may be read as one text. One sequence
of bytes for each text is its written form, and here these sequences are described
by a grammar that says of every byte which values it may have. What is read by such
a sequence is written as the same sequence, and of no other sequence this is true.

A name in a pool is looked for in two ways. Its bytes may be compared with the written
form of a text, or its text may be read. The first way finds one text at most, which
is then the one that the second way gives. Bytes that the grammar leaves out are
found by the second way only.
-/

namespace NullGuard.Text.ModifiedUtf8

/-! ## The grammar -/

/-- A byte that continues a form: 10xxxxxx. -/
def IsContinuation (byte : UInt8) : Prop := 0x80 ≤ byte ∧ byte < 0xC0

/-- Bytes in which each character has its shortest form, but for NUL, which takes the
two bytes C0 80. -/
inductive WellFormed : List UInt8 → Prop
  | nothing : WellFormed []
  | one {byte : UInt8} {rest : List UInt8} (nonzero : 0 < byte) (small : byte < 0x80)
      (others : WellFormed rest) : WellFormed (byte :: rest)
  | nul {rest : List UInt8} (others : WellFormed rest) : WellFormed (0xC0 :: 0x80 :: rest)
  | two {first second : UInt8} {rest : List UInt8} (lead : 0xC2 ≤ first ∧ first < 0xE0)
      (continued : IsContinuation second) (others : WellFormed rest) :
      WellFormed (first :: second :: rest)
  /-- Behind E0 a small second byte would leave room for a shorter form, and behind ED
  a large one would make a surrogate. -/
  | three {first second third : UInt8} {rest : List UInt8} (lead : 0xE0 ≤ first ∧ first < 0xF0)
      (continued : IsContinuation second ∧ IsContinuation third)
      (shortest : first = 0xE0 → 0xA0 ≤ second) (noSurrogate : first = 0xED → second < 0xA0)
      (others : WellFormed rest) : WellFormed (first :: second :: third :: rest)
  /-- A high surrogate and directly behind it a low one. -/
  | pair {high third low sixth : UInt8} {rest : List UInt8} (isHigh : 0xA0 ≤ high ∧ high < 0xB0)
      (isLow : 0xB0 ≤ low ∧ low < 0xC0) (continued : IsContinuation third ∧ IsContinuation sixth)
      (others : WellFormed rest) :
      WellFormed (0xED :: high :: third :: 0xED :: low :: sixth :: rest)

/-! ## The bytes of a unit -/

/-- The unit of a form of two bytes. -/
def unitOfTwo (first second : UInt8) : UInt16 :=
  UInt16.ofNat ((first.toNat - 0xC0) * 0x40 + (second.toNat - 0x80))

/-- The unit of a form of three bytes. -/
def unitOfThree (first second third : UInt8) : UInt16 :=
  UInt16.ofNat ((first.toNat - 0xE0) * 0x1000 + (second.toNat - 0x80) * 0x40 +
    (third.toNat - 0x80))

/-- A unit of one byte is encoded as that byte. -/
theorem encodeUnit_one (byte : UInt8) (nonzero : 0 < byte) (small : byte < 0x80) :
    encodeUnit (UInt16.ofNat byte.toNat) = [byte] := by
  simp only [UInt8.lt_iff_toNat_lt, UInt8.reduceToNat] at nonzero small
  have value : (UInt16.ofNat byte.toNat).toNat = byte.toNat :=
    UInt16.toNat_ofNat_of_lt' (by show _ < 65536; omega)
  simp only [encodeUnit, value, Bool.and_eq_true, decide_eq_true_eq]
  rw [if_pos ⟨nonzero, small⟩, UInt8.ofNat_toNat]

/-- Two bytes make up the number of their unit. -/
theorem toNat_unitOfTwo (first second : UInt8) (lead : 0xC0 ≤ first ∧ first < 0xE0)
    (continued : IsContinuation second) : (unitOfTwo first second).toNat =
      (first.toNat - 0xC0) * 0x40 + (second.toNat - 0x80) := by
  simp only [IsContinuation, UInt8.le_iff_toNat_le, UInt8.lt_iff_toNat_lt,
    UInt8.reduceToNat] at lead continued
  exact UInt16.toNat_ofNat_of_lt' (by show _ < 65536; omega)

/-- Three bytes make up the number of their unit. -/
theorem toNat_unitOfThree (first second third : UInt8) (lead : 0xE0 ≤ first ∧ first < 0xF0)
    (continued : IsContinuation second ∧ IsContinuation third) :
    (unitOfThree first second third).toNat =
      (first.toNat - 0xE0) * 0x1000 + (second.toNat - 0x80) * 0x40 + (third.toNat - 0x80) := by
  simp only [IsContinuation, UInt8.le_iff_toNat_le, UInt8.lt_iff_toNat_lt,
    UInt8.reduceToNat] at lead continued
  exact UInt16.toNat_ofNat_of_lt' (by show _ < 65536; omega)

/-- A byte is given by its value. -/
theorem ofNat_eq_of_toNat (value : Nat) (byte : UInt8) (same : value = byte.toNat) :
    UInt8.ofNat value = byte := by
  rw [same, UInt8.ofNat_toNat]

/-- A unit of two bytes is encoded as those bytes; a lead below C2 would waste one. -/
theorem encodeUnit_two (first second : UInt8) (lead : 0xC2 ≤ first ∧ first < 0xE0)
    (continued : IsContinuation second) :
    encodeUnit (unitOfTwo first second) = [first, second] := by
  have value := toNat_unitOfTwo first second
    ⟨UInt8.le_trans (by decide) lead.1, lead.2⟩ continued
  simp only [IsContinuation, UInt8.le_iff_toNat_le, UInt8.lt_iff_toNat_lt,
    UInt8.reduceToNat] at lead continued
  simp only [encodeUnit, value, Bool.and_eq_true, decide_eq_true_eq]
  rw [if_neg (by omega), if_pos (by omega), ofNat_eq_of_toNat _ first (by omega),
    ofNat_eq_of_toNat _ second (by omega)]

/-- A unit of three bytes is encoded as those bytes, unless two bytes would have done. -/
theorem encodeUnit_three (first second third : UInt8) (lead : 0xE0 ≤ first ∧ first < 0xF0)
    (continued : IsContinuation second ∧ IsContinuation third)
    (shortest : first = 0xE0 → 0xA0 ≤ second) :
    encodeUnit (unitOfThree first second third) = [first, second, third] := by
  have value := toNat_unitOfThree first second third lead continued
  simp only [IsContinuation, UInt8.le_iff_toNat_le, UInt8.lt_iff_toNat_lt,
    ← UInt8.toNat_inj, UInt8.reduceToNat] at lead continued shortest
  simp only [encodeUnit, value, Bool.and_eq_true, decide_eq_true_eq]
  rw [if_neg (by omega), if_neg (by omega), ofNat_eq_of_toNat _ first (by omega),
    ofNat_eq_of_toNat _ second (by omega), ofNat_eq_of_toNat _ third (by omega)]

/-! ## Surrogates -/

/-- The range of high surrogates, as numbers. -/
theorem isHighSurrogate_iff (unit : UInt16) :
    isHighSurrogate unit = true ↔ 0xD800 ≤ unit.toNat ∧ unit.toNat < 0xDC00 := by
  simp [isHighSurrogate, UInt16.le_iff_toNat_le, UInt16.lt_iff_toNat_lt]

/-- The range of low surrogates, as numbers. -/
theorem isLowSurrogate_iff (unit : UInt16) :
    isLowSurrogate unit = true ↔ 0xDC00 ≤ unit.toNat ∧ unit.toNat < 0xE000 := by
  simp [isLowSurrogate, UInt16.le_iff_toNat_le, UInt16.lt_iff_toNat_lt]

/-- A unit is no surrogate if its value is outside both ranges. -/
theorem noSurrogate_iff (unit : UInt16) :
    (isHighSurrogate unit = false ∧ isLowSurrogate unit = false) ↔
      unit.toNat < 0xD800 ∨ 0xE000 ≤ unit.toNat := by
  rw [← Bool.not_eq_true, ← Bool.not_eq_true, isHighSurrogate_iff, isLowSurrogate_iff]
  omega

/-- Which part of a three-byte form tells surrogates from other units. -/
theorem surrogate_unitOfThree (first second third : UInt8) (lead : 0xE0 ≤ first ∧ first < 0xF0)
    (continued : IsContinuation second ∧ IsContinuation third) :
    (isHighSurrogate (unitOfThree first second third) = true ↔
        first = 0xED ∧ 0xA0 ≤ second ∧ second < 0xB0) ∧
      (isLowSurrogate (unitOfThree first second third) = true ↔ first = 0xED ∧ 0xB0 ≤ second) := by
  rw [isHighSurrogate_iff, isLowSurrogate_iff, toNat_unitOfThree first second third lead continued]
  simp only [IsContinuation, UInt8.le_iff_toNat_le, UInt8.lt_iff_toNat_lt,
    ← UInt8.toNat_inj, UInt8.reduceToNat] at lead continued ⊢
  omega

/-! ## The grammar describes the written forms -/

/-- Well-formed bytes are those of units in which surrogates are paired. -/
theorem WellFormed.exists_units {bytes : List UInt8} (wellFormed : WellFormed bytes) :
    ∃ units, Paired units ∧ units.flatMap encodeUnit = bytes := by
  -- By the grammar of the bytes. Only the last case gives surrogates, and it gives a pair.
  induction wellFormed with
  | nothing => exact ⟨[], .nothing, rfl⟩
  | @one byte rest nonzero small _ inductionHypothesis =>
    obtain ⟨units, paired, rfl⟩ := inductionHypothesis
    have bound : byte.toNat < 256 := byte.toNat_lt
    have value : (UInt16.ofNat byte.toNat).toNat = byte.toNat :=
      UInt16.toNat_ofNat_of_lt' (by show _ < 65536; omega)
    have noSurrogate := (noSurrogate_iff (UInt16.ofNat byte.toNat)).2
      (.inl (by rw [value]; omega))
    refine ⟨_ :: units, .one noSurrogate.1 noSurrogate.2 paired, ?_⟩
    rw [List.flatMap_cons, encodeUnit_one byte nonzero small, List.singleton_append]
  | nul _ inductionHypothesis =>
    obtain ⟨units, paired, rfl⟩ := inductionHypothesis
    exact ⟨0 :: units, .one rfl rfl paired, rfl⟩
  | @two first second rest lead continued _ inductionHypothesis =>
    obtain ⟨units, paired, rfl⟩ := inductionHypothesis
    have noSurrogate := (noSurrogate_iff (unitOfTwo first second)).2 (.inl (by
      rw [toNat_unitOfTwo first second ⟨UInt8.le_trans (by decide) lead.1, lead.2⟩ continued]
      simp only [IsContinuation, UInt8.le_iff_toNat_le, UInt8.lt_iff_toNat_lt,
        UInt8.reduceToNat] at lead continued
      omega))
    refine ⟨_ :: units, .one noSurrogate.1 noSurrogate.2 paired, ?_⟩
    rw [List.flatMap_cons, encodeUnit_two first second lead continued, List.cons_append,
      List.singleton_append]
  | @three first second third rest lead continued shortest noSurrogate _ inductionHypothesis =>
    obtain ⟨units, paired, rfl⟩ := inductionHypothesis
    obtain ⟨isHigh, isLow⟩ := surrogate_unitOfThree first second third lead continued
    have high : isHighSurrogate (unitOfThree first second third) = false := by
      rw [← Bool.not_eq_true, isHigh]
      exact fun ⟨same, large, _⟩ => absurd (noSurrogate same) (UInt8.not_lt.2 large)
    have low : isLowSurrogate (unitOfThree first second third) = false := by
      rw [← Bool.not_eq_true, isLow]
      exact fun ⟨same, large⟩ => absurd (noSurrogate same)
        (UInt8.not_lt.2 (UInt8.le_trans (by decide) large))
    refine ⟨_ :: units, .one high low paired, ?_⟩
    rw [List.flatMap_cons, encodeUnit_three first second third lead continued shortest]
    rfl
  | @pair high third low sixth rest isHigh isLow continued _ inductionHypothesis =>
    obtain ⟨units, paired, rfl⟩ := inductionHypothesis
    have lead : (0xE0 : UInt8) ≤ 0xED ∧ (0xED : UInt8) < 0xF0 := by decide
    have front : IsContinuation high ∧ IsContinuation third :=
      ⟨⟨UInt8.le_trans (by decide) isHigh.1, UInt8.lt_trans isHigh.2 (by decide)⟩, continued.1⟩
    have back : IsContinuation low ∧ IsContinuation sixth :=
      ⟨⟨UInt8.le_trans (by decide) isLow.1, isLow.2⟩, continued.2⟩
    refine ⟨unitOfThree 0xED high third :: unitOfThree 0xED low sixth :: units,
      .pair ((surrogate_unitOfThree _ _ _ lead front).1.2 ⟨rfl, isHigh⟩)
        ((surrogate_unitOfThree _ _ _ lead back).2.2 ⟨rfl, isLow.1⟩) paired, ?_⟩
    rw [List.flatMap_cons, List.flatMap_cons, encodeUnit_three _ _ _ lead front
        (fun overlong => absurd overlong (by decide)),
      encodeUnit_three _ _ _ lead back (fun overlong => absurd overlong (by decide))]
    rfl

/-- A large unit takes three bytes. -/
theorem exists_three (unit : UInt16) (large : 0x800 ≤ unit.toNat) :
    ∃ first second third, encodeUnit unit = [first, second, third] ∧
      (0xE0 ≤ first ∧ first < 0xF0) ∧ (IsContinuation second ∧ IsContinuation third) ∧
      (first = 0xE0 → 0xA0 ≤ second) ∧ unitOfThree first second third = unit := by
  have bound : unit.toNat < 65536 := unit.toNat_lt
  have first := toNat_byte (0xE0 + unit.toNat / 0x1000) (by omega)
  have second := toNat_byte (0x80 + unit.toNat / 0x40 % 0x40) (by omega)
  have third := toNat_byte (0x80 + unit.toNat % 0x40) (by omega)
  have form : encodeUnit unit = [UInt8.ofNat (0xE0 + unit.toNat / 0x1000),
      UInt8.ofNat (0x80 + unit.toNat / 0x40 % 0x40), UInt8.ofNat (0x80 + unit.toNat % 0x40)] := by
    simp only [encodeUnit, Bool.and_eq_true, decide_eq_true_eq]
    rw [if_neg (by omega), if_neg (by omega)]
  have lead : 0xE0 ≤ UInt8.ofNat (0xE0 + unit.toNat / 0x1000) ∧
      UInt8.ofNat (0xE0 + unit.toNat / 0x1000) < 0xF0 := by
    simp only [UInt8.le_iff_toNat_le, UInt8.lt_iff_toNat_lt, first, UInt8.reduceToNat]
    omega
  have continued : IsContinuation (UInt8.ofNat (0x80 + unit.toNat / 0x40 % 0x40)) ∧
      IsContinuation (UInt8.ofNat (0x80 + unit.toNat % 0x40)) := by
    simp only [IsContinuation, UInt8.le_iff_toNat_le, UInt8.lt_iff_toNat_lt, second, third,
      UInt8.reduceToNat]
    omega
  refine ⟨_, _, _, form, lead, continued, ?_, ?_⟩
  · simp only [UInt8.le_iff_toNat_le, ← UInt8.toNat_inj, first, second, UInt8.reduceToNat]
    omega
  · rw [← UInt16.toNat_inj, toNat_unitOfThree _ _ _ lead continued, first, second, third]
    omega

/-- The bytes of a unit that is no surrogate may stand in front of well-formed bytes. -/
theorem WellFormed.unit_append (unit : UInt16) (high : isHighSurrogate unit = false)
    (low : isLowSurrogate unit = false) (rest : List UInt8) (others : WellFormed rest) :
    WellFormed (encodeUnit unit ++ rest) := by
  rcases Nat.lt_or_ge unit.toNat 0x800 with small | large
  · simp only [encodeUnit, Bool.and_eq_true, decide_eq_true_eq, if_pos small]
    split
    next ascii =>
      have byte := toNat_byte unit.toNat (by omega)
      refine .one ?_ ?_ others <;> rw [UInt8.lt_iff_toNat_lt, byte]
      · exact ascii.1
      · exact ascii.2
    next notAscii =>
      rcases Nat.eq_zero_or_pos unit.toNat with zero | positive
      · rw [zero]
        exact .nul others
      · have first := toNat_byte (0xC0 + unit.toNat / 0x40) (by omega)
        have second := toNat_byte (0x80 + unit.toNat % 0x40) (by omega)
        refine .two ?_ ?_ others
        · simp only [UInt8.le_iff_toNat_le, UInt8.lt_iff_toNat_lt, first, UInt8.reduceToNat]
          omega
        · simp only [IsContinuation, UInt8.le_iff_toNat_le, UInt8.lt_iff_toNat_lt, second,
            UInt8.reduceToNat]
          omega
  · obtain ⟨first, second, third, form, lead, continued, shortest, rfl⟩ := exists_three unit large
    obtain ⟨isHigh, isLow⟩ := surrogate_unitOfThree first second third lead continued
    rw [form]
    -- What is not below A0 is below B0 or not, so it is in one of the ranges of surrogates.
    refine .three lead continued shortest (fun same => UInt8.not_le.1 fun tooLarge => ?_) others
    rcases UInt8.lt_or_le second 0xB0 with below | above
    · exact absurd (isHigh.2 ⟨same, tooLarge, below⟩) (by rw [high]; decide)
    · exact absurd (isLow.2 ⟨same, above⟩) (by rw [low]; decide)

/-- The bytes of a surrogate pair may stand in front of well-formed bytes. -/
theorem WellFormed.pair_append (first second : UInt16) (high : isHighSurrogate first = true)
    (low : isLowSurrogate second = true) (rest : List UInt8) (others : WellFormed rest) :
    WellFormed (encodeUnit first ++ (encodeUnit second ++ rest)) := by
  have large := (isHighSurrogate_iff first).1 high
  have largeToo := (isLowSurrogate_iff second).1 low
  obtain ⟨lead, upper, third, form, leads, continued, -, rfl⟩ := exists_three first (by omega)
  obtain ⟨leadToo, lower, sixth, formToo, leadsToo, continuedToo, -, rfl⟩ :=
    exists_three second (by omega)
  obtain ⟨rfl, isHigh⟩ := (surrogate_unitOfThree lead upper third leads continued).1.1 high
  obtain ⟨rfl, isLow⟩ := (surrogate_unitOfThree leadToo lower sixth leadsToo continuedToo).2.1 low
  rw [form, formToo]
  exact .pair isHigh ⟨isLow, continuedToo.1.2⟩ ⟨continued.2, continuedToo.2⟩ others

/-- The bytes of units in which surrogates are paired are well-formed. -/
theorem WellFormed.of_paired (units : List UInt16) (paired : Paired units) :
    WellFormed (units.flatMap encodeUnit) := by
  induction paired with
  | nothing => exact .nothing
  | one high low _ inductionHypothesis =>
    exact unit_append _ high low _ inductionHypothesis
  | pair high low _ inductionHypothesis =>
    exact pair_append _ _ high low _ inductionHypothesis

/-- The grammar describes the bytes that are written for some text. -/
theorem isCanonical_iff_wellFormed (bytes : List UInt8) : IsCanonical bytes ↔ WellFormed bytes := by
  constructor
  · rintro ⟨text, rfl⟩
    exact .of_paired _ ((paired_iff _).2 ⟨text.toList, rfl⟩)
  · intro wellFormed
    obtain ⟨units, paired, rfl⟩ := wellFormed.exists_units
    exact (isCanonical_flatMap_iff units).2 paired

/-! ## Names in a pool -/

/-- Different texts are written differently. -/
theorem encode_injective : Function.Injective encode :=
  Function.LeftInverse.injective decode_encode

/-- Modified UTF-8 is exact: each text is read as it was written, an index of a pool is
equal to the written form of one text at most and then resolves to that text, and the
bytes that come back the same are the well-formed ones. -/
theorem reads_exactly :
    (∀ text, decode (encode text) = text) ∧ Function.Injective encode ∧
      (∀ (pool : Pool) (index : UInt16) (first second : String),
        pool.utf8Is index first = true → pool.utf8Is index second = true → first = second) ∧
      (∀ (pool : Pool) (index : UInt16) (text : String),
        pool.utf8Is index text = true → pool.utf8 index = .ok text) ∧
      (∀ bytes, encode (decode bytes) = bytes ↔ WellFormed bytes) := by
  refine ⟨decode_encode, encode_injective, fun pool index first second one other => ?_,
    fun pool => pool.utf8_of_utf8Is, fun bytes => ?_⟩
  · exact encode_injective (Pool.holds_unique one other)
  · rw [encode_decode_iff, isCanonical_iff_wellFormed]

/-- A text with NUL in it, found in a pool by its two bytes and read from them, and the
same character in a form that is too long. -/
theorem reads_nul_exactly :
    ((Pool.ofSlots #[none, some (.utf8 [0xC0, 0x80])]).utf8Is 1 "\x00" = true ∧
      (Pool.ofSlots #[none, some (.utf8 [0xC0, 0x80])]).utf8 1 = .ok "\x00") ∧
    (WellFormed [0xC0, 0x80] ∧ encode (decode [0xC0, 0x80]) = [0xC0, 0x80]) ∧
    ¬ WellFormed [0xE0, 0x80, 0x80] := by
  have found : (Pool.ofSlots #[none, some (.utf8 [0xC0, 0x80])]).utf8Is 1 "\x00" = true := by decide
  obtain ⟨-, -, -, reads, same⟩ := reads_exactly
  exact ⟨⟨found, reads _ _ _ found⟩, ⟨.nul .nothing, (same _).2 (.nul .nothing)⟩,
    fun wellFormed => absurd ((same _).2 wellFormed) (by decide)⟩

end NullGuard.Text.ModifiedUtf8
