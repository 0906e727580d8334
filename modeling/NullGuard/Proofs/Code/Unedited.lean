import NullGuard.Proofs.Code.Acceptance

/-!
# Code that is only decoded and encoded

A decoded stream without groups is laid out as the code was cut: each instruction
stands where it was found (`IsStreamOf.founds_eq`). So encoding it yields the forms
that were there, except that the padding of switches is filled with zeros.
-/

namespace NullGuard

/-- Whether the operand is aligned, so that padding stands before it. -/
def Operand.isSwitch {τ : Type} : Operand τ → Bool
  | .tableSwitch .. | .lookupSwitch .. => true
  | _ => false

namespace Instruction

variable {τ : Type}

/-- An instruction is known by its targets and by what it is without them. -/
theorem eq_of_targets (first second : Instruction τ)
    (same : first.map (fun _ => ()) = second.map (fun _ => ()))
    (targets : first.targets = second.targets) : first = second := by
  obtain ⟨opcode, operand⟩ := first
  obtain ⟨other, others⟩ := second
  simp only [map, Instruction.mk.injEq] at same
  obtain ⟨rfl, same⟩ := same
  congr 1
  simp only [Instruction.targets] at targets
  cases operand with
  | lookupSwitch default pairs =>
    cases others with
    | lookupSwitch another others =>
      simp only [Operand.targets, List.cons.injEq] at targets
      simp only [Operand.map, Operand.lookupSwitch.injEq, true_and] at same
      have keys := congrArg (List.map Prod.fst) same
      simp only [List.map_map, Function.comp_def] at keys
      obtain ⟨rfl, values⟩ := targets
      congr 1
      rw [← List.zip_unzip pairs, ← List.zip_unzip others, List.unzip_eq_map, List.unzip_eq_map,
        keys, values]
    | _ => cases same
  | _ => cases others <;> simp_all [Operand.targets, Operand.map]

/-- Padding stands directly behind the opcode of a switch. -/
theorem exists_form_of_isSwitch (instruction : Instruction Int)
    (aligned : instruction.operand.isSwitch = true) :
    ∃ rest, ∀ gap, instruction.form gap = instruction.opcode :: (gap ++ rest) := by
  obtain ⟨opcode, operand⟩ := instruction
  cases operand with
  | tableSwitch default low high targets => exact ⟨_, fun gap => rfl⟩
  | lookupSwitch default pairs => exact ⟨_, fun gap => rfl⟩
  | _ => cases aligned

/-- The form of an instruction that is no switch does not depend on padding. -/
theorem form_of_not_isSwitch (instruction : Instruction Int)
    (unaligned : instruction.operand.isSwitch = false) (gap other : List UInt8) :
    instruction.form gap = instruction.form other := by
  obtain ⟨opcode, operand⟩ := instruction
  cases operand with
  | tableSwitch default low high targets => cases unaligned
  | lookupSwitch default pairs => cases unaligned
  | _ => rfl

end Instruction

namespace Stream

/-- Whether an offset belongs to the padding of a switch. -/
def Found.Pads (found : Found) (place : Nat) : Prop :=
  found.instruction.operand.isSwitch = true ∧ found.offset < place ∧
    place ≤ found.offset + padding found.offset

/-- Whether an offset belongs to the padding of one of the switches. -/
def IsPadding (founds : List Found) (place : Nat) : Prop := ∃ found ∈ founds, found.Pads place

/-- Whether a place is padding of an instruction is seen from its offset. -/
instance (found : Found) (place : Nat) : Decidable (found.Pads place) :=
  inferInstanceAs (Decidable (_ ∧ _ ∧ _))

/-- Whether a place is padding is seen by going through the instructions. -/
instance (founds : List Found) (place : Nat) : Decidable (IsPadding founds place) :=
  inferInstanceAs (Decidable (∃ found ∈ founds, found.Pads place))

/-- The forms of the instructions with zeros as padding. -/
def plainForm (founds : List Found) : List UInt8 :=
  founds.flatMap fun found => found.instruction.form (List.replicate (padding found.offset) 0)

/-- Two forms of an instruction differ in the padding only. -/
theorem plain_of_form (found : Found) (bytes : List UInt8)
    (spelled : found.instruction.IsForm found.offset bytes) (distance : Nat) :
    (found.Pads (found.offset + distance) →
      (found.instruction.form (List.replicate (padding found.offset) 0))[distance]? = some 0) ∧
    (¬ found.Pads (found.offset + distance) →
      (found.instruction.form (List.replicate (padding found.offset) 0))[distance]? =
        bytes[distance]?) := by
  obtain ⟨-, -, gap, padded, rfl⟩ := spelled
  rw [Found.Pads]
  cases aligned : found.instruction.operand.isSwitch with
  | false =>
    constructor
    · rintro ⟨impossible, -⟩
      cases impossible
    · intro _
      rw [found.instruction.form_of_not_isSwitch aligned]
  | true =>
    obtain ⟨rest, form⟩ := found.instruction.exists_form_of_isSwitch aligned
    rw [form, form]
    cases distance with
    | zero =>
      constructor
      · intro pads
        omega
      · intro _
        rfl
    | succ distance =>
      rw [List.getElem?_cons_succ, List.getElem?_cons_succ]
      by_cases inside : distance < padding found.offset
      · constructor
        · intro _
          rw [List.getElem?_append_left (by simpa using inside),
            List.getElem?_replicate_of_lt inside]
        · intro outside
          exact absurd ⟨rfl, by omega, by omega⟩ outside
      · constructor
        · intro pads
          omega
        · intro _
          rw [List.getElem?_append_right (by simpa using inside),
            List.getElem?_append_right (by omega), List.length_replicate, padded]

/-- The padding of a switch stands within its form. -/
theorem Found.Pads.lt_size {found : Found} {place : Nat} (pads : found.Pads place) :
    place < found.offset + found.instruction.size found.offset := by
  obtain ⟨aligned, -, above⟩ := pads
  obtain ⟨offset, length, opcode, operand⟩ := found
  cases operand with
  | tableSwitch default low high targets =>
    simp only [Instruction.size] at above ⊢
    omega
  | lookupSwitch default pairs =>
    simp only [Instruction.size] at above ⊢
    omega
  | _ => cases aligned

/-- The bytes that some code consists of and the forms with zeros as padding are
equal in front of and behind the padding of switches. The induction is on the
instructions: a place lies inside the first of them or behind it. -/
theorem Cut.plain {offset : Nat} {code : List UInt8} {founds : List Found}
    (cut : Cut offset code founds) :
    (plainForm founds).length = code.length ∧ ∀ distance,
      (IsPadding founds (offset + distance) → (plainForm founds)[distance]? = some 0) ∧
      (¬ IsPadding founds (offset + distance) →
        (plainForm founds)[distance]? = code[distance]?) := by
  induction cut with
  | done offset =>
    refine ⟨rfl, ?_⟩
    intro distance
    constructor
    · rintro ⟨found, none, -⟩
      cases none
    · intro _
      rfl
  | next offset code instruction bytes rest others split spelled behind inductionHypothesis =>
    obtain ⟨sameLength, laterPlaces⟩ := inductionHypothesis
    have size : (instruction.form (List.replicate (padding offset) 0)).length = bytes.length := by
      rw [spelled.length_eq, instruction.length_form offset _ (by simp)]
    have form : plainForm (⟨offset, bytes.length, instruction⟩ :: others) =
        instruction.form (List.replicate (padding offset) 0) ++ plainForm others := rfl
    rw [form, split]
    refine ⟨by rw [List.length_append, List.length_append, size, sameLength], ?_⟩
    intro distance
    have first := plain_of_form ⟨offset, bytes.length, instruction⟩ bytes spelled distance
    by_cases inside : distance < bytes.length
    · have only : IsPadding (⟨offset, bytes.length, instruction⟩ :: others) (offset + distance) ↔
          Found.Pads ⟨offset, bytes.length, instruction⟩ (offset + distance) := by
        rw [IsPadding, List.exists_mem_cons_iff, or_iff_left]
        rintro ⟨found, member, -, above, -⟩
        have later := behind.le_offset found member
        omega
      rw [only, List.getElem?_append_left (by omega), List.getElem?_append_left inside]
      exact first
    · -- Padding ends within the form, so behind it only the other switches count.
      have only : IsPadding (⟨offset, bytes.length, instruction⟩ :: others) (offset + distance) ↔
          IsPadding others (offset + bytes.length + (distance - bytes.length)) := by
        have place : offset + bytes.length + (distance - bytes.length) = offset + distance := by
          omega
        rw [IsPadding, List.exists_mem_cons_iff, or_iff_right, place, IsPadding]
        intro pads
        have within := pads.lt_size
        rw [← spelled.length_eq] at within
        simp only at within
        omega
      rw [only, List.getElem?_append_right (by omega), List.getElem?_append_right (by omega), size]
      exact laterPlaces (distance - bytes.length)

/-! ## The layout of a decoded stream -/

/-- The layout reckons with the offsets and lengths that were found. -/
theorem Cut.placed {whole : List UInt8} {all : List Found} {offset : Nat} {code : List UInt8}
    {founds : List Found} (cut : Cut offset code founds) (instructions : List (Instruction Label))
    (each : List.Forall₂ (Labelled whole all) founds instructions) :
    List.Forall₂ (fun found item => Labelled whole all found item.2 ∧ item.1 = found.offset ∧
        item.2.size item.1 = found.length)
      founds (Layout.placedFrom offset instructions) := by
  induction cut generalizing instructions with
  | done offset =>
    cases each
    exact .nil
  | next offset code instruction bytes rest others split spelled behind inductionHypothesis =>
    cases each with
    | @cons _ first _ later labelled rest =>
      have size : first.size offset = bytes.length := by
        rw [spelled.length_eq, ← first.size_map fun _ => (), labelled.same, Instruction.size_map]
      rw [Layout.placedFrom, size]
      exact .cons ⟨labelled, rfl, size⟩ (inductionHypothesis later rest)

namespace IsStreamOf

variable {code : List UInt8} {founds : List Found} {stream : Stream}
  (isStream : stream.IsStreamOf code founds) (cut : Cut 0 code founds)
include isStream

/-- Without edits only the instructions of the slots are there. -/
theorem flat_eq : stream.flat = stream.instructions :=
  stream.flat_of_bare isStream.entry isStream.bare

/-- Without edits each instruction that is found has one label. -/
theorem count_eq : stream.count = founds.length := by
  rw [← length_instructions, isStream.instructions.length_eq]

include cut

/-- Each instruction is placed where it has been found, and takes as many bytes there. -/
theorem placed : List.Forall₂ (fun found item => Labelled code founds found item.2 ∧
      item.1 = found.offset ∧ item.2.size item.1 = found.length)
    founds (Layout.placedFrom 0 stream.flat) := by
  rw [isStream.flat_eq]
  exact cut.placed _ isStream.instructions

/-- Each instruction takes as many bytes as it did where it was found. -/
theorem sizes_eq : stream.sizes = founds.map Found.length := by
  rw [sizes, ← List.forall₂_eq_eq_eq, List.forall₂_map_left_iff, List.forall₂_map_right_iff]
  exact (isStream.placed cut).flip.imp fun item found placed => placed.2.2

/-- Each label stands at its boundary. -/
theorem getElem?_boundaries (label offset : Nat) :
    (boundaries code founds)[label]? = some offset ↔
      label ≤ stream.count ∧ offset = stream.offsetAt (stream.landing label) := by
  have stands (inside : label ≤ founds.length) :
      stream.offsetAt (stream.landing label) = ((founds.map Found.length).take label).sum := by
    rw [← isStream.count_eq] at inside
    rw [stream.landing_of_bare isStream.entry isStream.bare label inside, offsetAt_eq_sum,
      isStream.sizes_eq cut]
  rw [Stream.getElem?_boundaries cut, isStream.count_eq]
  constructor
  · rintro ⟨inside, rfl⟩
    exact ⟨inside, (stands inside).symm⟩
  · rintro ⟨inside, rfl⟩
    exact ⟨inside, stands inside⟩

/-- With the offsets of its labels an instruction has the displacements that were
found in it. -/
theorem displaced_eq (found : Found) (instruction : Instruction Label)
    (labelled : Labelled code founds found instruction) :
    stream.displaced found.offset instruction = found.instruction := by
  apply Instruction.eq_of_targets
  · rw [displaced, Instruction.map_map]
    exact labelled.same
  · rw [displaced, Instruction.targets_map, ← List.forall₂_eq_eq_eq, List.forall₂_map_left_iff]
    refine labelled.targets.flip.imp fun label displacement reached => ?_
    obtain ⟨boundary, here, reached⟩ := reached
    obtain ⟨-, rfl⟩ := (isStream.getElem?_boundaries cut ..).1 here
    omega

/-- The cut of the encoded code is the cut of the code. -/
theorem founds_eq : stream.founds = founds := by
  rw [Stream.founds, ← List.forall₂_eq_eq_eq, List.forall₂_map_left_iff]
  refine (isStream.placed cut).flip.imp fun item found placed => ?_
  obtain ⟨labelled, starts, size⟩ := placed
  rw [starts] at size
  rw [starts, size, isStream.displaced_eq cut found item.2 labelled]

/-- The layout is as long as the code. -/
theorem endFrom_eq : Layout.endFrom 0 stream.flat = code.length := by
  rw [endFrom_eq_sum, isStream.sizes_eq cut, cut.sum_length]

/-- Code of an admissible length can be encoded, with zeros as padding. -/
theorem encodes (nonempty : 0 < code.length) (bounded : code.length ≤ maxLength) :
    stream.Encodes ⟨plainForm founds, stream.labelOffsets⟩ := by
  refine
    { positive := by rwa [isStream.endFrom_eq cut]
      bounded := by rwa [isStream.endFrom_eq cut]
      labels := rfl
      writable := ?_
      code := ?_ }
  · intro item member
    obtain ⟨found, inside, labelled, starts, -⟩ :=
      Outcome.exists_of_forall₂ (isStream.placed cut) item member
    rw [starts, isStream.displaced_eq cut found item.2 labelled]
    constructor
    · intro label target
      obtain ⟨displacement, -, boundary, here, -⟩ :=
        Outcome.exists_of_forall₂ labelled.targets label target
      exact ((isStream.getElem?_boundaries cut ..).1 here).1
    · intro displacement branch
      have reach := (cut.isForm found inside).2.1
      rw [branch] at reach
      exact reach
  · rw [plainForm, ← isStream.founds_eq cut, Stream.founds, List.flatMap_map]

end IsStreamOf

/-- Code that is decoded and encoded again without any groups has the same length and
the same bytes, except that the padding of its switches is filled with zeros; each
label has the offset at which its instruction was found. -/
theorem encode_unedited (code : List UInt8) (stream : Stream) (decoded : decode code = .ok stream)
    (nonempty : 0 < code.length) (bounded : code.length ≤ 65535) :
    ∃ founds encoded, Cut 0 code founds ∧ stream.encode = .ok encoded ∧
      encoded.code.length = code.length ∧
      (∀ place, IsPadding founds place → encoded.code[place]? = some 0) ∧
      (∀ place, ¬ IsPadding founds place → encoded.code[place]? = code[place]?) ∧
      (encoded.code = code ↔ ∀ place, IsPadding founds place → code[place]? = some 0) ∧
      ∀ label offset, encoded.offsetOf label = .ok offset ↔ stream.labelAt offset = .ok label := by
  obtain ⟨founds, cut, isStream⟩ := isStreamOf_of_decode code stream decoded
  have encodes := isStream.encodes cut nonempty bounded
  obtain ⟨sameLength, places⟩ := cut.plain
  simp only [Nat.zero_add] at places
  refine ⟨founds, _, cut, (encode_eq_ok ..).2 encodes, sameLength, fun place => (places place).1,
    fun place => (places place).2, ?_, ?_⟩
  · constructor
    · intro same place pads
      rw [← (places place).1 pads, ← same]
    · intro zeros
      apply List.ext_getElem?
      intro place
      by_cases pads : IsPadding founds place
      · rw [(places place).1 pads, zeros place pads]
      · exact (places place).2 pads
  · intro label offset
    rw [encodes.offsetOf_eq_ok, isStream.labelAt, isStream.getElem?_boundaries cut]

/-- The loop with a switch with something else than zeros in its padding. -/
def filledSwitchCode : List UInt8 := switchLoopCode.set 2 7

/-- The loop comes back with empty padding, although its padding was filled. -/
theorem encode_unedited_filledSwitch :
    ∃ encoded, switchLoop.encode = .ok encoded ∧ encoded.code.length = 24 ∧
      encoded.code[2]? = some 0 ∧ encoded.code[20]? = some 0xa7 ∧ encoded.code ≠ filledSwitchCode ∧
      encoded.offsetOf 3 = .ok 23 := by
  obtain ⟨founds, encoded, cut, ran, length, zeros, others, identical, labels⟩ :=
    encode_unedited filledSwitchCode switchLoop (by decide +kernel) (by decide) (by decide)
  have found : Stream.cut filledSwitchCode = .ok
      [⟨0, 1, .plain 0x1a⟩, ⟨1, 19, ⟨0xaa, .tableSwitch 22 0 0 [19]⟩⟩, ⟨20, 3, .jump 0xa7 (-20)⟩,
        ⟨23, 1, .plain 0xb0⟩] := by
    decide +kernel
  obtain rfl := Except.ok.inj (((cut_eq_ok ..).2 cut).symm.trans found)
  refine ⟨encoded, ran, length, zeros 2 (by decide), others 20 (by decide), ?_,
    (labels 3 23).2 (by decide +kernel)⟩
  intro same
  have kept := identical.1 same 2 (by decide)
  cases kept

end Stream

end NullGuard
