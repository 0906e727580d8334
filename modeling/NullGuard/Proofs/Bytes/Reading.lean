import Mathlib.Data.List.Forall2
import NullGuard.Bytes.Reader
import NullGuard.Bytes.Written
import NullGuard.Proofs.Outcome

/-!
# What readers take

A reader takes some bytes as a value if it finds that value in front of any
further bytes and leaves those. All readers here are local: what they return
depends on no byte behind the ones they use up. For local readers running,
sequencing and repeating can be restated as splits of the input, and a reader
together with its written form becomes one equivalence: the bytes taken as a
value are the written form of that value.
-/

namespace NullGuard.Reader

variable {α β : Type}

/-- The reader takes exactly these bytes as the value, whatever follows them. -/
def Takes (reader : Reader α) (front : List UInt8) (value : α) : Prop :=
  ∀ rest, reader (front ++ rest) = .ok (value, rest)

/-- A value depends only on the bytes that are used up for it. -/
class Local (reader : Reader α) : Prop where
  split : ∀ input value rest, reader input = .ok (value, rest) →
    ∃ front, input = front ++ rest ∧ reader.Takes front value

/-- The bytes in front of a rest are those that a local reader takes. -/
theorem run_eq_ok (reader : Reader α) [Local reader] (input rest : List UInt8) (value : α) :
    reader input = .ok (value, rest) ↔
      ∃ front, input = front ++ rest ∧ reader.Takes front value := by
  constructor
  · exact Local.split input value rest
  · rintro ⟨front, rfl, taken⟩
    exact taken rest

/-! ## Steps without input -/

/-- A reader that only returns a value uses up nothing. -/
instance (value : α) : Local (pure value : Reader α) where
  split input found rest ran := by
    obtain ⟨rfl, rfl⟩ := Prod.mk.inj (Except.ok.inj ran)
    exact ⟨[], rfl, fun _ => rfl⟩

/-- Without a look at the input, no bytes are taken as the value. -/
@[simp] theorem takes_pure (value other : α) (front : List UInt8) :
    Takes (pure value) front other ↔ front = [] ∧ other = value := by
  constructor
  · intro taken
    have same : (value, front ++ []) = (other, []) := Except.ok.inj (taken [])
    obtain ⟨rfl, nothing⟩ := Prod.mk.inj same
    exact ⟨List.append_eq_nil_iff.1 nothing |>.1, rfl⟩
  · rintro ⟨rfl, rfl⟩ rest
    rfl

/-- A reader that fails returns nothing that could depend on the input. -/
instance (cause : Cause) : Local (fail cause : Reader α) where
  split input value rest ran := by cases ran

/-- A reader that fails takes nothing. -/
@[simp] theorem takes_fail (cause : Cause) (front : List UInt8) (value : α) :
    ¬ Takes (fail cause : Reader α) front value := by
  intro taken
  cases taken []

/-- A computation that reads nothing. -/
instance (outcome : Except Failure α) : Local (monadLift outcome : Reader α) where
  split input value rest ran := by
    cases outcome with
    | error failure => cases ran
    | ok found =>
      cases ran
      exact ⟨[], rfl, fun _ => rfl⟩

/-- An outcome that is known beforehand is taken from no bytes. -/
@[simp] theorem takes_lift (outcome : Except Failure α) (front : List UInt8) (value : α) :
    Takes (monadLift outcome : Reader α) front value ↔ front = [] ∧ outcome = .ok value := by
  constructor
  · intro taken
    cases outcome with
    | error failure => cases taken []
    | ok found =>
      have same : (found, front ++ []) = (value, []) := Except.ok.inj (taken [])
      obtain ⟨rfl, emptied⟩ := Prod.mk.inj same
      exact ⟨by simpa using emptied, rfl⟩
  · rintro ⟨rfl, rfl⟩ rest
    rfl

/-- Naming the step of a failure does not change a success. -/
theorem during_eq_ok (step : Step) (reader : Reader α) (input rest : List UInt8) (value : α) :
    (during step reader : Reader α) input = .ok (value, rest) ↔
      reader input = .ok (value, rest) := by
  have unfolded : (during step reader : Reader α) input =
      tryCatch (reader input) fun failure => throw (failure.during step) := rfl
  rw [unfolded]
  cases reader input with
  | error failure =>
    constructor
    · intro impossible
      cases impossible
    · intro impossible
      cases impossible
  | ok result => rfl

/-- What a failure is reported under makes no difference to what is taken. -/
@[simp] theorem takes_during (step : Step) (reader : Reader α) (front : List UInt8) (value : α) :
    Takes (during step reader : Reader α) front value ↔ reader.Takes front value :=
  forall_congr' fun rest => during_eq_ok step reader (front ++ rest) rest value

/-- What a failure is reported under does not make a reader look further. -/
instance (step : Step) (reader : Reader α) [Local reader] :
    Local (during step reader : Reader α) where
  split input value rest ran := by
    obtain ⟨front, split, taken⟩ := Local.split input value rest ((during_eq_ok ..).1 ran)
    exact ⟨front, split, (takes_during ..).2 taken⟩

/-- A reader that branches is local if both branches are. -/
instance (condition : Prop) [Decidable condition] (first second : Reader α) [Local first]
    [Local second] : Local (if condition then first else second) := by
  split <;> infer_instance

/-! ## One step after another -/

/-- Two readers in a row succeed if the first does and the second does with what it leaves.
-/
theorem bind_eq_ok (reader : Reader α) (next : α → Reader β) (input rest : List UInt8)
    (value : β) :
    (reader >>= next) input = .ok (value, rest) ↔
      ∃ first middle, reader input = .ok (first, middle) ∧
        next first middle = .ok (value, rest) := by
  show (StateT.bind reader next) input = _ ↔ _
  unfold StateT.bind
  cases found : reader input with
  | error failure => simp [bind, Except.bind]
  | ok result =>
    obtain ⟨first, middle⟩ := result
    simp only [bind, Except.bind]
    constructor
    · intro reached
      exact ⟨first, middle, rfl, reached⟩
    · rintro ⟨other, others, same, reached⟩
      obtain ⟨rfl, rfl⟩ := Prod.mk.inj (Except.ok.inj same)
      exact reached

/-- Local readers in a row are local: what the first leaves, the second splits once more. -/
instance (reader : Reader α) (next : α → Reader β) [Local reader] [∀ value, Local (next value)] :
    Local (reader >>= next) where
  split input value rest ran := by
    obtain ⟨found, middle, begun, ended⟩ := (bind_eq_ok ..).1 ran
    obtain ⟨front, split, taken⟩ := Local.split _ _ _ begun
    obtain ⟨back, splitAgain, takenAgain⟩ := Local.split _ _ _ ended
    refine ⟨front ++ back, by rw [split, splitAgain, List.append_assoc], ?_⟩
    intro others
    rw [bind_eq_ok, List.append_assoc]
    exact ⟨found, back ++ others, taken _, takenAgain others⟩

/-- A value that is converted depends on the bytes that it did before. -/
instance (reader : Reader α) (convert : α → β) [Local reader] : Local (convert <$> reader) := by
  rw [map_eq_pure_bind]
  infer_instance

/-- Two steps take the bytes of the first and then those of the second. -/
theorem takes_bind (reader : Reader α) (next : α → Reader β) [Local reader]
    [∀ value, Local (next value)] (bytes : List UInt8) (value : β) :
    Takes (reader >>= next) bytes value ↔
      ∃ found front back, bytes = front ++ back ∧ reader.Takes front found ∧
        (next found).Takes back value := by
  constructor
  · intro taken
    obtain ⟨found, middle, begun, ended⟩ := (bind_eq_ok ..).1 (taken [])
    obtain ⟨front, split, takenFirst⟩ := Local.split _ _ _ begun
    obtain ⟨back, splitAgain, takenSecond⟩ := Local.split _ _ _ ended
    refine ⟨found, front, back, ?_, takenFirst, takenSecond⟩
    simpa [splitAgain] using split
  · rintro ⟨found, front, back, rfl, takenFirst, takenSecond⟩ rest
    rw [bind_eq_ok, List.append_assoc]
    exact ⟨found, back ++ rest, takenFirst _, takenSecond rest⟩

/-- A step whose result is only converted. -/
theorem takes_map (reader : Reader α) (convert : α → β) [Local reader] (bytes : List UInt8)
    (value : β) :
    Takes (convert <$> reader) bytes value ↔
      ∃ found, reader.Takes bytes found ∧ value = convert found := by
  rw [map_eq_pure_bind, takes_bind]
  constructor
  · rintro ⟨found, front, back, rfl, taken, returned⟩
    obtain ⟨rfl, rfl⟩ := (takes_pure ..).1 returned
    exact ⟨found, by simpa using taken, rfl⟩
  · rintro ⟨found, taken, rfl⟩
    exact ⟨found, bytes, [], by simp, taken, (takes_pure ..).2 ⟨rfl, rfl⟩⟩

/-- A first step with a written form: that form stands in front of the bytes of
the steps behind it. -/
theorem takes_bind_of {reader : Reader α} {written : α → List UInt8} {Fits : α → Prop}
    [Local reader]
    (exactly : ∀ front found, reader.Takes front found ↔ front = written found ∧ Fits found)
    (next : α → Reader β) [∀ value, Local (next value)] (bytes : List UInt8) (value : β) :
    Takes (reader >>= next) bytes value ↔
      ∃ found back, Fits found ∧ bytes = written found ++ back ∧
        (next found).Takes back value := by
  rw [takes_bind]
  constructor
  · rintro ⟨found, front, back, rfl, taken, others⟩
    obtain ⟨rfl, fits⟩ := (exactly _ _).1 taken
    exact ⟨found, back, fits, rfl, others⟩
  · rintro ⟨found, back, fits, rfl, others⟩
    exact ⟨found, written found, back, rfl, (exactly _ _).2 ⟨rfl, fits⟩, others⟩

/-- A step that reads nothing decides only whether there are further steps. -/
theorem takes_lift_bind (outcome : Except Failure α) (next : α → Reader β)
    [∀ value, Local (next value)] (bytes : List UInt8) (value : β) :
    Takes (monadLift outcome >>= next : Reader β) bytes value ↔
      ∃ found, outcome = .ok found ∧ (next found).Takes bytes value := by
  rw [takes_bind]
  constructor
  · rintro ⟨found, front, back, rfl, taken, others⟩
    obtain ⟨rfl, succeeded⟩ := (takes_lift ..).1 taken
    exact ⟨found, succeeded, others⟩
  · rintro ⟨found, succeeded, others⟩
    exact ⟨found, [], bytes, rfl, (takes_lift ..).2 ⟨rfl, succeeded⟩, others⟩

/-! ## Words -/

/-- A word of two bytes is read back, whatever stands behind it. -/
theorem u16_written (value : UInt16) (rest : List UInt8) :
    u16 (Written.u16 value ++ rest) = .ok (value, rest) := by
  have bound : value.toNat < 65536 := value.toNat_lt
  have word : UInt16.ofNat ((UInt8.ofNat (value.toNat / 256)).toNat * 256 +
      (UInt8.ofNat value.toNat).toNat) = value := by
    apply UInt16.toNat_inj.1
    simp only [UInt8.toNat_ofNat', UInt16.toNat_ofNat']
    omega
  simp only [Written.u16, List.cons_append, List.nil_append, u16, word]

/-- A word of four bytes is read back, whatever stands behind it. -/
theorem u32_written (value : UInt32) (rest : List UInt8) :
    u32 (Written.u32 value ++ rest) = .ok (value, rest) := by
  have bound : value.toNat < 4294967296 := value.toNat_lt
  have word : UInt32.ofNat (ofDigits (Written.u32 value)) = value := by
    apply UInt32.toNat_inj.1
    simp only [ofDigits, Written.u32, List.foldl_cons, List.foldl_nil, UInt8.toNat_ofNat',
      UInt32.toNat_ofNat']
    omega
  simp only [Written.u32, List.cons_append, List.nil_append, u32]
  simp only [Written.u32] at word
  rw [word]

/-- A byte is taken as itself. -/
@[simp] theorem takes_u8 (front : List UInt8) (value : UInt8) :
    u8.Takes front value ↔ front = [value] := by
  constructor
  · intro taken
    have ran := taken []
    match front with
    | [] => cases ran
    | [byte] => cases ran; rfl
    | byte :: next :: others => simp [u8] at ran
  · rintro rfl rest
    rfl

/-- A word of two bytes is taken from its byte form, and from nothing else. -/
@[simp] theorem takes_u16 (front : List UInt8) (value : UInt16) :
    u16.Takes front value ↔ front = Written.u16 value := by
  constructor
  · intro taken
    have ran := taken []
    match front with
    | [] => cases ran
    | [byte] => cases ran
    | [high, low] =>
      simp only [List.append_nil, u16, Except.ok.injEq, Prod.mk.injEq, and_true] at ran
      have highBound : high.toNat < 256 := high.toNat_lt
      have lowBound : low.toNat < 256 := low.toNat_lt
      have size : value.toNat = high.toNat * 256 + low.toNat := by
        rw [← ran, UInt16.toNat_ofNat']
        omega
      rw [Written.u16, size]
      congr 1
      · apply UInt8.toNat_inj.1
        rw [UInt8.toNat_ofNat']
        omega
      · congr 1
        apply UInt8.toNat_inj.1
        rw [UInt8.toNat_ofNat']
        omega
    | high :: low :: next :: others => simp [u16] at ran
  · rintro rfl rest
    exact u16_written value rest

/-- A word of four bytes is taken from its byte form, and from nothing else. -/
@[simp] theorem takes_u32 (front : List UInt8) (value : UInt32) :
    u32.Takes front value ↔ front = Written.u32 value := by
  constructor
  · intro taken
    have ran := taken []
    match front with
    | [] => cases ran
    | [_] => cases ran
    | [_, _] => cases ran
    | [_, _, _] => cases ran
    | [a, b, c, d] =>
      simp only [List.append_nil, u32, Except.ok.injEq, Prod.mk.injEq, and_true] at ran
      have boundA : a.toNat < 256 := a.toNat_lt
      have boundB : b.toNat < 256 := b.toNat_lt
      have boundC : c.toNat < 256 := c.toNat_lt
      have boundD : d.toNat < 256 := d.toNat_lt
      have size : value.toNat =
          ((a.toNat * 256 + b.toNat) * 256 + c.toNat) * 256 + d.toNat := by
        rw [← ran, UInt32.toNat_ofNat']
        simp only [ofDigits, List.foldl_cons, List.foldl_nil]
        omega
      rw [Written.u32, size]
      have digit (byte : UInt8) (number : Nat) (same : number % 256 = byte.toNat) :
          byte = UInt8.ofNat number := by
        apply UInt8.toNat_inj.1
        rw [UInt8.toNat_ofNat', ← same]
      rw [← digit a _ (by omega), ← digit b _ (by omega), ← digit c _ (by omega),
        ← digit d _ (by omega)]
    | _ :: _ :: _ :: _ :: _ :: _ => simp [u32] at ran
  · rintro rfl rest
    exact u32_written value rest

/-- As many bytes as are asked for are taken as they are. -/
@[simp] theorem takes_bytes (count : Nat) (front value : List UInt8) :
    (bytes count).Takes front value ↔ front = value ∧ value.length = count := by
  constructor
  · intro taken
    have ran := taken []
    simp only [List.append_nil, bytes] at ran
    split at ran
    next enough =>
      simp only [Except.ok.injEq, Prod.mk.injEq, List.drop_eq_nil_iff] at ran
      obtain ⟨rfl, used⟩ := ran
      exact ⟨(List.take_of_length_le used).symm, enough⟩
    next => cases ran
  · rintro ⟨rfl, rfl⟩ rest
    simp [bytes]

/-! The primitive readers use up bytes from the front and look no further. -/

/-- A byte is read without a look at what follows. -/
instance : Local u8 where
  split input value rest ran := by
    match input with
    | [] => cases ran
    | byte :: others =>
      cases ran
      exact ⟨[value], rfl, (takes_u8 ..).2 rfl⟩

/-- A word of two bytes is read without a look at what follows. -/
instance : Local u16 where
  split input value rest ran := by
    match input with
    | [] => cases ran
    | [_] => cases ran
    | high :: low :: others =>
      cases ran
      exact ⟨[high, low], rfl, fun _ => rfl⟩

/-- A word of four bytes is read without a look at what follows. -/
instance : Local u32 where
  split input value rest ran := by
    match input with
    | [] => cases ran
    | [_] => cases ran
    | [_, _] => cases ran
    | [_, _, _] => cases ran
    | a :: b :: c :: d :: others =>
      cases ran
      exact ⟨[a, b, c, d], rfl, fun _ => rfl⟩

/-- Bytes of a given number are read without a look at what follows. -/
instance (count : Nat) : Local (bytes count) where
  split input value rest ran := by
    simp only [bytes] at ran
    split at ran
    next enough =>
      simp only [Except.ok.injEq, Prod.mk.injEq] at ran
      obtain ⟨rfl, rfl⟩ := ran
      exact ⟨input.take count, (List.take_append_drop count input).symm,
        (takes_bytes ..).2 ⟨rfl, enough⟩⟩
    next => cases ran

/-- A signed number of four bytes is read without a look at what follows. -/
instance : Local i32 := by
  unfold i32
  infer_instance

/-- A signed number of four bytes is taken from its byte form. -/
@[simp] theorem takes_i32 (front : List UInt8) (value : Int32) :
    i32.Takes front value ↔ front = Written.i32 value := by
  simp only [i32, bind_pure_comp, takes_map, takes_u32]
  constructor
  · rintro ⟨word, rfl, rfl⟩
    simp [Written.i32]
  · rintro rfl
    exact ⟨value.toUInt32, rfl, by simp⟩

/-- A word of eight bytes is read without a look at what follows. -/
instance : Local u64 := by
  unfold u64
  infer_instance

/-- A signed number of eight bytes is read without a look at what follows. -/
instance : Local i64 := by
  unfold i64
  infer_instance

/-- The four bytes of a word go on from the number that the digits in front of them
make. -/
theorem ofDigits_append_written (front : List UInt8) (word : UInt32) :
    ofDigits (front ++ Written.u32 word) = ofDigits front * 4294967296 + word.toNat := by
  have bound : word.toNat < 4294967296 := word.toNat_lt
  rw [ofDigits, List.foldl_append, ← ofDigits]
  simp only [Written.u32, List.foldl_cons, List.foldl_nil, UInt8.toNat_ofNat']
  omega

/-- The digits of a word of four bytes make up its number. -/
theorem ofDigits_written (word : UInt32) : ofDigits (Written.u32 word) = word.toNat := by
  have digits := ofDigits_append_written [] word
  rw [List.nil_append] at digits
  rw [digits, ofDigits, List.foldl_nil, Nat.zero_mul, Nat.zero_add]

/-- Any four bytes are those of a word. -/
theorem exists_word (bytes : List UInt8) (four : bytes.length = 4) :
    ∃ word, bytes = Written.u32 word := by
  match bytes, four with
  | [a, b, c, d], _ => exact ⟨_, (takes_u32 [a, b, c, d] _).1 fun _ => rfl⟩

/-- A word of eight bytes is taken from its byte form. -/
@[simp] theorem takes_u64 (front : List UInt8) (value : UInt64) :
    u64.Takes front value ↔ front = Written.u64 value := by
  have digits (high low : UInt32) : ofDigits (Written.u32 high ++ Written.u32 low) =
      high.toNat * 4294967296 + low.toNat := by
    rw [ofDigits_append_written, ofDigits_written]
  simp only [u64, bind_pure_comp, takes_map, takes_bytes]
  constructor
  · rintro ⟨bytes, ⟨rfl, eight⟩, rfl⟩
    obtain ⟨high, isHigh⟩ := exists_word (front.take 4) (by simp [eight])
    obtain ⟨low, isLow⟩ := exists_word (front.drop 4) (by simp [eight])
    have split : front = Written.u32 high ++ Written.u32 low := by
      rw [← isHigh, ← isLow, List.take_append_drop]
    have highBound : high.toNat < 4294967296 := high.toNat_lt
    have lowBound : low.toNat < 4294967296 := low.toNat_lt
    rw [split, digits, Written.u64,
      UInt64.toNat_ofNat_of_lt' (by show _ < 18446744073709551616; omega)]
    congr 2 <;> apply UInt32.toNat_inj.1 <;> rw [UInt32.toNat_ofNat'] <;> omega
  · rintro rfl
    have bound : value.toNat < 18446744073709551616 := value.toNat_lt
    refine ⟨_, ⟨rfl, rfl⟩, ?_⟩
    apply UInt64.toNat_inj.1
    rw [Written.u64, digits, UInt32.toNat_ofNat', UInt32.toNat_ofNat', UInt64.toNat_ofNat']
    omega

/-- A signed number of eight bytes is taken from its byte form. -/
@[simp] theorem takes_i64 (front : List UInt8) (value : Int64) :
    i64.Takes front value ↔ front = Written.i64 value := by
  simp only [i64, bind_pure_comp, takes_map, takes_u64]
  constructor
  · rintro ⟨word, rfl, rfl⟩
    simp [Written.i64]
  · rintro rfl
    exact ⟨value.toUInt64, rfl, by simp⟩

/-- Bytes are passed over without a look at what follows. -/
instance (count : Nat) : Local (skip count) := by
  unfold skip
  infer_instance

/-- Any bytes can be passed over if there are as many as are asked for. -/
@[simp] theorem takes_skip (count : Nat) (front : List UInt8) (value : Unit) :
    (skip count).Takes front value ↔ front.length = count := by
  simp only [skip, bind_pure_comp, takes_map, takes_bytes]
  constructor
  · rintro ⟨found, ⟨rfl, size⟩, -⟩
    exact size
  · intro size
    exact ⟨front, ⟨rfl, size⟩, trivial⟩

/-! The same for a word that further steps depend on. -/

section Bind

variable (bytes : List UInt8) (value : β)

/-- A byte, and what is taken behind it. -/
theorem takes_u8_bind (next : UInt8 → Reader β) [∀ word, Local (next word)] :
    Takes (u8 >>= next) bytes value ↔
      ∃ byte back, bytes = byte :: back ∧ (next byte).Takes back value := by
  rw [takes_bind]
  simp

/-- A word of two bytes, and what is taken behind it. -/
theorem takes_u16_bind (next : UInt16 → Reader β) [∀ word, Local (next word)] :
    Takes (u16 >>= next) bytes value ↔
      ∃ word back, bytes = Written.u16 word ++ back ∧ (next word).Takes back value := by
  rw [takes_bind]
  simp

/-- A word of four bytes, and what is taken behind it. -/
theorem takes_u32_bind (next : UInt32 → Reader β) [∀ word, Local (next word)] :
    Takes (u32 >>= next) bytes value ↔
      ∃ word back, bytes = Written.u32 word ++ back ∧ (next word).Takes back value := by
  rw [takes_bind]
  simp

/-- A signed number of four bytes, and what is taken behind it. -/
theorem takes_i32_bind (next : Int32 → Reader β) [∀ word, Local (next word)] :
    Takes (i32 >>= next) bytes value ↔
      ∃ word back, bytes = Written.i32 word ++ back ∧ (next word).Takes back value := by
  rw [takes_bind]
  simp

/-- So many bytes, and what is taken behind them. -/
theorem takes_bytes_bind (count : Nat) (next : List UInt8 → Reader β)
    [∀ word, Local (next word)] :
    Takes (Reader.bytes count >>= next) bytes value ↔
      ∃ front back, front.length = count ∧ bytes = front ++ back ∧
        (next front).Takes back value :=
  takes_bind_of (takes_bytes count) next bytes value

/-- A gap of so many bytes, and what is taken behind it. -/
theorem takes_skip_bind (count : Nat) (next : Unit → Reader β) [∀ word, Local (next word)] :
    Takes (skip count >>= next) bytes value ↔
      ∃ gap back, gap.length = count ∧ bytes = gap ++ back ∧ (next ()).Takes back value := by
  rw [takes_bind]
  constructor
  · rintro ⟨⟨⟩, front, back, rfl, taken, others⟩
    exact ⟨front, back, (takes_skip ..).1 taken, rfl, others⟩
  · rintro ⟨gap, back, size, rfl, others⟩
    exact ⟨(), gap, back, rfl, (takes_skip ..).2 size, others⟩

end Bind

/-! ## Repetition -/

section Repetition

variable (item : Reader α) [Local item]

/-- Repeating a local reader gives a local one. -/
instance (count : Nat) : Local (times count item) := by
  induction count with
  | zero => exact inferInstanceAs (Local (pure []))
  | succ count inductionHypothesis =>
    rw [times_succ]
    infer_instance

/-- Several items take their bytes one after the other. -/
theorem takes_times (count : Nat) (bytes : List UInt8) (values : List α) :
    (times count item).Takes bytes values ↔
      values.length = count ∧
        ∃ fronts, bytes = fronts.flatten ∧ List.Forall₂ item.Takes fronts values := by
  induction count generalizing bytes values with
  | zero =>
    rw [times_zero, takes_pure]
    constructor
    · rintro ⟨rfl, rfl⟩
      exact ⟨rfl, [], rfl, .nil⟩
    · rintro ⟨none, fronts, rfl, taken⟩
      obtain rfl : values = [] := List.eq_nil_of_length_eq_zero none
      cases taken
      exact ⟨rfl, rfl⟩
  | succ count inductionHypothesis =>
    rw [times_succ, takes_bind]
    simp only [bind_pure_comp, takes_map]
    constructor
    · rintro ⟨first, front, back, rfl, takenFirst, others, taken, rfl⟩
      obtain ⟨size, fronts, rfl, each⟩ := (inductionHypothesis ..).1 taken
      exact ⟨by simp [size], front :: fronts, by simp, .cons takenFirst each⟩
    · rintro ⟨size, fronts, rfl, each⟩
      cases each with
      | nil => simp at size
      | @cons front first fronts others takenFirst takenOthers =>
        have taken := (inductionHypothesis fronts.flatten others).2
          ⟨by simpa using size, fronts, rfl, takenOthers⟩
        exact ⟨first, front, fronts.flatten, rfl, takenFirst, others, taken, rfl⟩

/-- A table ends where its last row ends. -/
instance : Local (table item) := by
  unfold table
  infer_instance

/-- A table takes a count below 65536 and that many rows. -/
theorem takes_table (bytes : List UInt8) (rows : List α) :
    (table item).Takes bytes rows ↔
      rows.length < 65536 ∧ ∃ fronts,
        bytes = Written.u16 (UInt16.ofNat rows.length) ++ fronts.flatten ∧
          List.Forall₂ item.Takes fronts rows := by
  rw [table, takes_u16_bind]
  simp only [takes_times]
  constructor
  · rintro ⟨count, back, rfl, size, fronts, rfl, each⟩
    have bound := count.toNat_lt
    refine ⟨by omega, fronts, ?_, each⟩
    rw [size, UInt16.ofNat_toNat]
  · rintro ⟨bound, fronts, rfl, each⟩
    exact ⟨_, _, rfl, (UInt16.toNat_ofNat_of_lt' bound).symm, fronts, rfl, each⟩

end Repetition

section Rows

variable {item : Reader α} {written : α → List UInt8} {Fits : α → Prop}
  (exactly : ∀ front value, item.Takes front value ↔ front = written value ∧ Fits value)

include exactly

/-- Items with a written form take those forms one after the other. -/
theorem forall₂_takes_of (fronts : List (List UInt8)) (values : List α) :
    List.Forall₂ item.Takes fronts values ↔
      fronts = values.map written ∧ ∀ value ∈ values, Fits value := by
  constructor
  · intro each
    induction each with
    | nil => simp
    | cons first _ inductionHypothesis =>
      obtain ⟨rfl, fits⟩ := (exactly ..).1 first
      obtain ⟨rfl, fit⟩ := inductionHypothesis
      exact ⟨rfl, by simpa using ⟨fits, fit⟩⟩
  · rintro ⟨rfl, fit⟩
    rw [List.forall₂_map_left_iff, List.forall₂_same]
    intro value member
    exact (exactly ..).2 ⟨rfl, fit value member⟩

variable [Local item]

/-- If items are taken from their byte forms, so many items are taken from the byte forms in
a row. -/
theorem takes_times_of (count : Nat) (bytes : List UInt8) (values : List α) :
    (times count item).Takes bytes values ↔
      bytes = values.flatMap written ∧ values.length = count ∧ ∀ value ∈ values, Fits value := by
  simp only [takes_times, forall₂_takes_of exactly]
  constructor
  · rintro ⟨size, fronts, rfl, rfl, fit⟩
    exact ⟨List.flatMap_def.symm, size, fit⟩
  · rintro ⟨rfl, size, fit⟩
    exact ⟨size, _, List.flatMap_def, rfl, fit⟩

end Rows

/-! Items that are read only from their written forms, and items that are read from them:
either half by itself, for readers that do not read all that can be written. -/

section Halves

variable {item : Reader α} [Local item] {written : α → List UInt8}

section Sound

variable {Fits : α → Prop}
  (sound : ∀ front value, item.Takes front value → front = written value ∧ Fits value)

include sound

/-- If items are taken from nothing but their byte forms, the same holds of so many items.
-/
theorem of_takes_times (count : Nat) (bytes : List UInt8) (values : List α)
    (took : (times count item).Takes bytes values) :
    bytes = values.flatMap written ∧ values.length = count ∧ ∀ value ∈ values, Fits value := by
  obtain ⟨counted, fronts, rfl, each⟩ := (takes_times ..).1 took
  have same : fronts = values.map written := by
    rw [← List.forall₂_eq_eq_eq, List.forall₂_map_right_iff]
    exact each.imp fun front value taken => (sound front value taken).1
  refine ⟨by rw [same, List.flatMap_def], counted, ?_⟩
  intro value member
  obtain ⟨front, -, taken⟩ := Outcome.exists_of_forall₂ each value member
  exact (sound front value taken).2

/-- A table is read only from its written form, if its rows are. -/
theorem of_takes_table (bytes : List UInt8) (rows : List α)
    (took : (table item).Takes bytes rows) :
    bytes = Written.u16 (UInt16.ofNat rows.length) ++ rows.flatMap written ∧
      rows.length < 65536 ∧ ∀ row ∈ rows, Fits row := by
  obtain ⟨count, back, rfl, taken⟩ := (takes_u16_bind ..).1 took
  obtain ⟨rfl, counted, fit⟩ := of_takes_times sound _ _ _ taken
  rw [counted, UInt16.ofNat_toNat]
  exact ⟨rfl, count.toNat_lt, fit⟩

end Sound

section Complete

variable {values : List α} (complete : ∀ value ∈ values, item.Takes (written value) value)

include complete

/-- Byte forms in a row are taken as their items if each of them is. -/
theorem takes_times_of_each :
    (times values.length item).Takes (values.flatMap written) values := by
  refine (takes_times ..).2 ⟨rfl, values.map written, List.flatMap_def, ?_⟩
  rw [List.forall₂_map_left_iff, List.forall₂_same]
  exact complete

/-- A table is read from its written form, if its rows are. -/
theorem takes_table_of_each (few : values.length < 65536) :
    (table item).Takes (Written.u16 (UInt16.ofNat values.length) ++ values.flatMap written)
      values := by
  refine (takes_u16_bind ..).2 ⟨UInt16.ofNat values.length, _, rfl, ?_⟩
  rw [UInt16.toNat_ofNat_of_lt' few]
  exact takes_times_of_each complete

end Complete

end Halves

/-! The same for items whose written form may not exist. -/

section Written

variable {item : Reader α} {written : α → Except Failure (List UInt8)}
  (exactly : ∀ front value, item.Takes front value ↔ written value = .ok front)

include exactly

/-- Bytes are taken item by item exactly if they are the byte forms of the items. -/
theorem forall₂_takes_written (fronts : List (List UInt8)) (values : List α) :
    List.Forall₂ item.Takes fronts values ↔ values.mapM written = .ok fronts := by
  rw [Outcome.mapM_eq_ok]
  constructor
  · intro each
    exact (each.imp fun front value taken => (exactly front value).1 taken).flip
  · intro each
    exact (each.imp fun value front wrote => (exactly front value).2 wrote).flip

variable [Local item]

/-- If items are taken from byte forms that can fail, so many items are taken from the byte
forms in a row, each of which exists. -/
theorem takes_times_written (count : Nat) (bytes : List UInt8) (values : List α) :
    (times count item).Takes bytes values ↔
      values.length = count ∧ ∃ fronts, values.mapM written = .ok fronts ∧
        bytes = fronts.flatten := by
  simp only [takes_times, forall₂_takes_written exactly]
  constructor
  · rintro ⟨size, fronts, rfl, wrote⟩
    exact ⟨size, fronts, wrote, rfl⟩
  · rintro ⟨size, fronts, wrote, rfl⟩
    exact ⟨size, fronts, rfl, wrote⟩

/-- A table is read as what it was written from. -/
theorem takes_table_written (what : String) (bytes : List UInt8) (rows : List α) :
    (table item).Takes bytes rows ↔ Written.table what written rows = .ok bytes := by
  simp only [takes_table, forall₂_takes_written exactly, Written.table, Written.tableLength,
    Outcome.bind_eq_ok, Outcome.pure_eq_ok]
  constructor
  · rintro ⟨bound, fronts, rfl, wrote⟩
    exact ⟨_, if_pos bound, fronts, wrote, rfl⟩
  · rintro ⟨length, counted, fronts, wrote, rfl⟩
    split at counted
    next bound =>
      obtain rfl := Except.ok.inj counted
      exact ⟨bound, fronts, rfl, wrote⟩
    next => cases counted

end Written

/-! ## Using up the input -/

/-- A reader that is applied to a whole input leaves nothing of it. -/
theorem run_of_whole (what : String) (reader : Reader α) (input : List UInt8) (value : α)
    (ran : whole what reader input = .ok value) : reader input = .ok (value, []) := by
  have rest : ∃ rest, (do let value ← reader; expectEnd what; return value : Reader α) input =
      .ok (value, rest) := by
    simp only [whole, StateT.run'] at ran
    cases reached : (do let value ← reader; expectEnd what; return value : Reader α) input with
    | error failure => rw [reached] at ran; cases ran
    | ok result => rw [reached] at ran; cases ran; exact ⟨result.2, rfl⟩
  obtain ⟨rest, ran⟩ := rest
  obtain ⟨found, middle, begun, ended⟩ := (bind_eq_ok ..).1 ran
  obtain ⟨_, last, checked, returned⟩ := (bind_eq_ok ..).1 ended
  cases returned
  simp only [expectEnd] at checked
  split at checked
  next empty =>
    obtain rfl := List.isEmpty_iff.1 empty
    exact begun
  next => cases checked

/-- A local reader succeeds on a whole input if it takes all of it. -/
theorem whole_eq_ok (what : String) (reader : Reader α) [Local reader] (input : List UInt8)
    (value : α) : whole what reader input = .ok value ↔ reader.Takes input value := by
  constructor
  · intro ran
    obtain ⟨front, rfl, taken⟩ := (run_eq_ok ..).1 (run_of_whole what reader input value ran)
    rw [List.append_nil]
    exact taken
  · intro taken
    have ran : (do let value ← reader; expectEnd what; return value : Reader α) input =
        .ok (value, []) := by
      rw [bind_eq_ok]
      exact ⟨value, [], by simpa using taken [], rfl⟩
    simp only [whole, StateT.run', ran]
    rfl

/-- Dropping what is left keeps the value. -/
theorem run'_eq_ok (reader : Reader α) [Local reader] (input : List UInt8) (value : α) :
    reader.run' input = .ok value ↔
      ∃ front rest, input = front ++ rest ∧ reader.Takes front value := by
  have split : reader.run' input = .ok value ↔ ∃ rest, reader input = .ok (value, rest) := by
    simp only [StateT.run']
    cases reader input with
    | error failure =>
      constructor
      · intro impossible
        cases impossible
      · rintro ⟨rest, impossible⟩
        cases impossible
    | ok result =>
      constructor
      · intro same
        cases same
        exact ⟨result.2, rfl⟩
      · rintro ⟨rest, same⟩
        cases same
        rfl
  rw [split]
  constructor
  · rintro ⟨rest, ran⟩
    obtain ⟨front, rfl, taken⟩ := (run_eq_ok ..).1 ran
    exact ⟨front, rest, rfl, taken⟩
  · rintro ⟨front, rest, rfl, taken⟩
    exact ⟨rest, taken rest⟩

end NullGuard.Reader
