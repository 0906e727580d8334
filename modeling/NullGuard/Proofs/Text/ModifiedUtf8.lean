import NullGuard.Text.ModifiedUtf8

/-!
# Reading back what was written

Every text can be written in modified UTF-8 and is then read back as it was: the
lead byte of a form says how many bytes it has, and no character is written as
half of a surrogate pair on its own.
-/

namespace NullGuard.Text

/-- A character outside the range of surrogates is its own unit. -/
theorem charsOfUnits_unit (unit : UInt16) (rest : List UInt16)
    (high : isHighSurrogate unit = false) (low : isLowSurrogate unit = false) :
    charsOfUnits (unit :: rest) = Char.ofNat unit.toNat :: charsOfUnits rest := by
  cases rest with
  | nil => simp [charsOfUnits, high, low]
  | cons next others => simp [charsOfUnits, high, low]

/-- The two halves of a surrogate pair make one character. -/
theorem charsOfUnits_pair (first second : UInt16) (rest : List UInt16)
    (high : isHighSurrogate first = true) (low : isLowSurrogate second = true) :
    charsOfUnits (first :: second :: rest) = pairChar first second :: charsOfUnits rest := by
  simp [charsOfUnits, high, low]

/-- A character is written as a unit that is no surrogate or as a surrogate pair. -/
inductive Unitary (c : Char) : List UInt16 → Prop
  | one (unit : UInt16) (high : isHighSurrogate unit = false) (low : isLowSurrogate unit = false)
      (reads : Char.ofNat unit.toNat = c) : Unitary c [unit]
  | pair (first second : UInt16) (high : isHighSurrogate first = true)
      (low : isLowSurrogate second = true) (reads : pairChar first second = c) :
      Unitary c [first, second]

/-- The units of a character stand for it alone: one unit that is no surrogate, or a pair.
-/
theorem unitary_unitsOfChar (c : Char) : Unitary c (unitsOfChar c) := by
  have valid : c.toNat < 0xD800 ∨ (0xDFFF < c.toNat ∧ c.toNat < 0x110000) := c.valid
  rw [unitsOfChar]
  split
  next small =>
    have word : (UInt16.ofNat c.toNat).toNat = c.toNat := UInt16.toNat_ofNat_of_lt' small
    refine .one _ ?_ ?_ (by rw [word, Char.ofNat_toNat])
    · simp only [isHighSurrogate, Bool.and_eq_false_imp, decide_eq_true_eq, decide_eq_false_iff_not,
        UInt16.le_iff_toNat_le, UInt16.lt_iff_toNat_lt, word, UInt16.reduceToNat]
      omega
    · simp only [isLowSurrogate, Bool.and_eq_false_imp, decide_eq_true_eq, decide_eq_false_iff_not,
        UInt16.le_iff_toNat_le, UInt16.lt_iff_toNat_lt, word, UInt16.reduceToNat]
      omega
  next large =>
    have first : (UInt16.ofNat (0xD800 + (c.toNat - 0x10000) / 0x400)).toNat =
        0xD800 + (c.toNat - 0x10000) / 0x400 :=
      UInt16.toNat_ofNat_of_lt' (by show _ < 65536; omega)
    have second : (UInt16.ofNat (0xDC00 + (c.toNat - 0x10000) % 0x400)).toNat =
        0xDC00 + (c.toNat - 0x10000) % 0x400 :=
      UInt16.toNat_ofNat_of_lt' (by show _ < 65536; omega)
    have joined : 0x10000 + (0xD800 + (c.toNat - 0x10000) / 0x400 - 0xD800) * 0x400 +
        (0xDC00 + (c.toNat - 0x10000) % 0x400 - 0xDC00) = c.toNat := by
      omega
    refine .pair _ _ ?_ ?_ (by rw [pairChar, first, second, joined, Char.ofNat_toNat])
    · simp only [isHighSurrogate, Bool.and_eq_true, decide_eq_true_eq, UInt16.le_iff_toNat_le,
        UInt16.lt_iff_toNat_lt, first, UInt16.reduceToNat]
      omega
    · simp only [isLowSurrogate, Bool.and_eq_true, decide_eq_true_eq, UInt16.le_iff_toNat_le,
        UInt16.lt_iff_toNat_lt, second, UInt16.reduceToNat]
      omega

/-- The units of a character are read as that character. -/
theorem charsOfUnits_unitsOfChar (c : Char) (rest : List UInt16) :
    charsOfUnits (unitsOfChar c ++ rest) = c :: charsOfUnits rest := by
  have units := unitary_unitsOfChar c
  generalize unitsOfChar c = form at units ⊢
  cases units with
  | one unit high low reads =>
    rw [List.singleton_append, charsOfUnits_unit unit rest high low, reads]
  | pair first second high low reads =>
    rw [List.cons_append, List.singleton_append, charsOfUnits_pair first second rest high low,
      reads]

/-- The characters of a text are found again from their units. -/
theorem charsOfUnits_flatMap (chars : List Char) :
    charsOfUnits (chars.flatMap unitsOfChar) = chars := by
  induction chars with
  | nil => rfl
  | cons c others inductionHypothesis =>
    rw [List.flatMap_cons, charsOfUnits_unitsOfChar, inductionHypothesis]

/-! ## Units of texts -/

/-- Units in which every half of a surrogate pair stands next to its other half. -/
inductive Paired : List UInt16 → Prop
  | nothing : Paired []
  | one {unit : UInt16} {rest : List UInt16} (high : isHighSurrogate unit = false)
      (low : isLowSurrogate unit = false) (others : Paired rest) : Paired (unit :: rest)
  | pair {first second : UInt16} {rest : List UInt16} (high : isHighSurrogate first = true)
      (low : isLowSurrogate second = true) (others : Paired rest) : Paired (first :: second :: rest)

/-- A number that is a code point is that of its character. -/
theorem toNat_ofNat (value : Nat) (valid : value.isValidChar) :
    (Char.ofNat value).toNat = value := by
  rw [Char.ofNat, dif_pos valid]
  rfl

/-- A unit that is no surrogate is the only unit of a character. -/
theorem unitsOfChar_of_unit (unit : UInt16) (high : isHighSurrogate unit = false)
    (low : isLowSurrogate unit = false) : unitsOfChar (Char.ofNat unit.toNat) = [unit] := by
  have bound : unit.toNat < 0x10000 := unit.toNat_lt
  simp only [isHighSurrogate, isLowSurrogate, Bool.and_eq_false_imp, decide_eq_true_eq,
    decide_eq_false_iff_not, UInt16.le_iff_toNat_le, UInt16.lt_iff_toNat_lt,
    UInt16.reduceToNat] at high low
  have valid : unit.toNat.isValidChar := by
    rw [Nat.isValidChar]
    omega
  rw [unitsOfChar, toNat_ofNat _ valid, if_pos bound, UInt16.ofNat_toNat]

/-- A surrogate pair is all units of a character. -/
theorem unitsOfChar_pairChar (first second : UInt16) (high : isHighSurrogate first = true)
    (low : isLowSurrogate second = true) :
    unitsOfChar (pairChar first second) = [first, second] := by
  simp only [isHighSurrogate, isLowSurrogate, Bool.and_eq_true, decide_eq_true_eq,
    UInt16.le_iff_toNat_le, UInt16.lt_iff_toNat_lt, UInt16.reduceToNat] at high low
  have valid : (0x10000 + (first.toNat - 0xD800) * 0x400 +
      (second.toNat - 0xDC00)).isValidChar := by
    rw [Nat.isValidChar]
    omega
  have upper : 0xD800 + (0x10000 + (first.toNat - 0xD800) * 0x400 + (second.toNat - 0xDC00) -
      0x10000) / 0x400 = first.toNat := by
    omega
  have lower : 0xDC00 + (0x10000 + (first.toNat - 0xD800) * 0x400 + (second.toNat - 0xDC00) -
      0x10000) % 0x400 = second.toNat := by
    omega
  rw [unitsOfChar, pairChar, toNat_ofNat _ valid, if_neg (by omega), upper, lower,
    UInt16.ofNat_toNat, UInt16.ofNat_toNat]

/-- The units of texts are the ones in which surrogates are paired. -/
theorem paired_iff (units : List UInt16) :
    Paired units ↔ ∃ chars : List Char, chars.flatMap unitsOfChar = units := by
  constructor
  · intro paired
    induction paired with
    | nothing => exact ⟨[], rfl⟩
    | @one unit rest high low _ inductionHypothesis =>
      obtain ⟨chars, rfl⟩ := inductionHypothesis
      refine ⟨Char.ofNat unit.toNat :: chars, ?_⟩
      rw [List.flatMap_cons, unitsOfChar_of_unit unit high low, List.singleton_append]
    | @pair first second rest high low _ inductionHypothesis =>
      obtain ⟨chars, rfl⟩ := inductionHypothesis
      refine ⟨pairChar first second :: chars, ?_⟩
      rw [List.flatMap_cons, unitsOfChar_pairChar first second high low, List.cons_append,
        List.singleton_append]
  · rintro ⟨chars, rfl⟩
    induction chars with
    | nil => exact .nothing
    | cons c others inductionHypothesis =>
      rw [List.flatMap_cons]
      have units := unitary_unitsOfChar c
      generalize unitsOfChar c = form at units ⊢
      cases units with
      | one unit high low _ => exact .one high low inductionHypothesis
      | pair first second high low _ => exact .pair high low inductionHypothesis

namespace ModifiedUtf8

/-! The lead byte tells how many bytes a form has. -/

/-- A byte below 80 is a unit. -/
theorem decodeUnits_one (first : UInt8) (rest : List UInt8) (one : first < 0x80) :
    decodeUnits (first :: rest) = UInt16.ofNat first.toNat :: decodeUnits rest := by
  rw [decodeUnits.eq_def]
  simp only [if_pos one]

/-- A byte from C0 to DF makes up a unit with the next one. -/
theorem decodeUnits_two (first second : UInt8) (rest : List UInt8) (notOne : ¬ first < 0x80)
    (two : 0xC0 ≤ first ∧ first < 0xE0) :
    decodeUnits (first :: second :: rest) =
      UInt16.ofNat (first.toNat % 0x20 * 0x40 + second.toNat % 0x40) :: decodeUnits rest := by
  rw [decodeUnits.eq_def]
  simp only [if_neg notOne, Bool.and_eq_true, decide_eq_true_eq, if_pos two]

/-- A byte from E0 to EF makes up a unit with the next two. -/
theorem decodeUnits_three (first second third : UInt8) (rest : List UInt8)
    (three : 0xE0 ≤ first ∧ first < 0xF0) :
    decodeUnits (first :: second :: third :: rest) =
      UInt16.ofNat (first.toNat % 0x10 * 0x1000 + second.toNat % 0x40 * 0x40 +
        third.toNat % 0x40) :: decodeUnits rest := by
  have notOne : ¬ first < 0x80 := fun one =>
    absurd (UInt8.lt_of_le_of_lt three.1 one) (by decide)
  have notTwo : ¬ (0xC0 ≤ first ∧ first < 0xE0) := fun two =>
    absurd (UInt8.lt_of_le_of_lt three.1 two.2) (by decide)
  rw [decodeUnits.eq_def]
  simp only [if_neg notOne, Bool.and_eq_true, decide_eq_true_eq, if_neg notTwo, if_pos three]

/-- A number below 256 is that of its byte. -/
theorem toNat_byte (value : Nat) (small : value < 256) : (UInt8.ofNat value).toNat = value :=
  UInt8.toNat_ofNat_of_lt' small

/-- The bytes of a unit are read as that unit. -/
theorem decodeUnits_encodeUnit (unit : UInt16) (rest : List UInt8) :
    decodeUnits (encodeUnit unit ++ rest) = unit :: decodeUnits rest := by
  have bound : unit.toNat < 65536 := unit.toNat_lt
  simp only [encodeUnit, Bool.and_eq_true, decide_eq_true_eq]
  split
  next one =>
    have byte := toNat_byte unit.toNat (by omega)
    have lead : UInt8.ofNat unit.toNat < 0x80 := by
      rw [UInt8.lt_iff_toNat_lt, byte]
      exact one.2
    rw [List.singleton_append, decodeUnits_one _ _ lead, byte, UInt16.ofNat_toNat]
  next =>
    split
    next two =>
      have first := toNat_byte (0xC0 + unit.toNat / 0x40) (by omega)
      have second := toNat_byte (0x80 + unit.toNat % 0x40) (by omega)
      have notOne : ¬ UInt8.ofNat (0xC0 + unit.toNat / 0x40) < 0x80 := by
        rw [UInt8.lt_iff_toNat_lt, first]
        simp only [UInt8.toNat_ofNat]
        omega
      have lead : 0xC0 ≤ UInt8.ofNat (0xC0 + unit.toNat / 0x40) ∧
          UInt8.ofNat (0xC0 + unit.toNat / 0x40) < 0xE0 := by
        rw [UInt8.le_iff_toNat_le, UInt8.lt_iff_toNat_lt, first]
        simp only [UInt8.toNat_ofNat]
        omega
      rw [List.cons_append, List.singleton_append, decodeUnits_two _ _ _ notOne lead, first, second]
      congr 1
      apply UInt16.toNat_inj.1
      rw [UInt16.toNat_ofNat']
      omega
    next =>
      have first := toNat_byte (0xE0 + unit.toNat / 0x1000) (by omega)
      have second := toNat_byte (0x80 + unit.toNat / 0x40 % 0x40) (by omega)
      have third := toNat_byte (0x80 + unit.toNat % 0x40) (by omega)
      have lead : 0xE0 ≤ UInt8.ofNat (0xE0 + unit.toNat / 0x1000) ∧
          UInt8.ofNat (0xE0 + unit.toNat / 0x1000) < 0xF0 := by
        rw [UInt8.le_iff_toNat_le, UInt8.lt_iff_toNat_lt, first]
        simp only [UInt8.toNat_ofNat]
        omega
      rw [List.cons_append, List.cons_append, List.singleton_append,
        decodeUnits_three _ _ _ _ lead, first, second, third]
      congr 1
      apply UInt16.toNat_inj.1
      rw [UInt16.toNat_ofNat']
      omega

/-- The units of a text are found again from their bytes. -/
theorem decodeUnits_flatMap (units : List UInt16) :
    decodeUnits (units.flatMap encodeUnit) = units := by
  induction units with
  | nil => rfl
  | cons unit others inductionHypothesis =>
    rw [List.flatMap_cons, decodeUnits_encodeUnit, inductionHypothesis]

/-- What was written of a text is read as that text. -/
theorem decode_encode (text : String) : decode (encode text) = text := by
  rw [decode, encode, decodeUnits_flatMap, charsOfUnits_flatMap, String.ofList_toList]

/-! ## Canonical bytes -/

/-- The bytes that are written for some text. -/
def IsCanonical (bytes : List UInt8) : Prop := ∃ text, encode text = bytes

/-- Bytes that are read and written again stay the same if they are canonical. -/
theorem encode_decode_iff (bytes : List UInt8) :
    encode (decode bytes) = bytes ↔ IsCanonical bytes := by
  constructor
  · exact fun same => ⟨decode bytes, same⟩
  · rintro ⟨text, rfl⟩
    rw [decode_encode]

/-- The bytes of units are canonical if surrogates are paired in the units. -/
theorem isCanonical_flatMap_iff (units : List UInt16) :
    IsCanonical (units.flatMap encodeUnit) ↔ Paired units := by
  rw [paired_iff]
  constructor
  · rintro ⟨text, same⟩
    refine ⟨text.toList, ?_⟩
    rw [← decodeUnits_flatMap (text.toList.flatMap unitsOfChar), ← encode, same,
      decodeUnits_flatMap]
  · rintro ⟨chars, rfl⟩
    exact ⟨String.ofList chars, by rw [encode, String.toList_ofList]⟩

/-- Half of a surrogate pair is not canonical on its own. -/
example : ¬ IsCanonical ([0xd800].flatMap encodeUnit) := by
  rw [isCanonical_flatMap_iff]
  intro paired
  cases paired with
  | one high _ _ => exact absurd high (by decide)

end ModifiedUtf8

end NullGuard.Text
