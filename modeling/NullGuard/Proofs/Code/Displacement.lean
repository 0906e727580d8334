import Mathlib.Data.Int.DivMod
import NullGuard.Proofs.Code.Edits

/-!
# Displacements in encoded code

Where the displacements of an instruction stand in its form, and that each of them
is written without loss: read as a number in two's complement it leads from its
instruction to its label. What can make encoding fail is just the length of the code
and a short branch that would have to reach too far (`encode_exact`).
-/

namespace NullGuard

/-- The number in two's complement that some bytes from a place on hold. -/
def signedAt (place width : Nat) (code : List UInt8) : Int :=
  (Reader.ofDigits ((code.drop place).take width) : Int).bmod (256 ^ width)

/-- A number behind other bytes is read as it is without them. -/
theorem signedAt_append (front rest : List UInt8) (place width : Nat) :
    signedAt (front.length + place) width (front ++ rest) = signedAt place width rest := by
  rw [signedAt, List.drop_length_add_append, signedAt]

/-- A number can be read in what comes behind other bytes. -/
theorem signedAt_drop (offset place width : Nat) (code : List UInt8) :
    signedAt place width (code.drop offset) = signedAt (offset + place) width code := by
  rw [signedAt, List.drop_drop, signedAt]

/-- What two bytes hold is a number in two's complement. -/
theorem signedAt_short (displacement : Int) (short : Operand.IsShort displacement)
    (rest : List UInt8) :
    signedAt 0 2 (Written.u16 (Int16.ofInt displacement).toUInt16 ++ rest) = displacement := by
  obtain ⟨low, high⟩ := short
  have digits (word : UInt16) : Reader.ofDigits (Written.u16 word) = word.toNat := by
    have bound := word.toNat_lt
    simp only [Reader.ofDigits, Written.u16, List.foldl_cons, List.foldl_nil, UInt8.toNat_ofNat']
    omega
  have signed (word : UInt16) : (word.toNat : Int).bmod (256 ^ 2) = word.toInt16.toInt := by
    rw [← Int16.toInt_toBitVec, UInt16.toBitVec_toInt16, BitVec.toInt_eq_toNat_bmod]
    rfl
  rw [signedAt, List.drop_zero, List.take_left' (by rfl), digits, signed, Int16.toInt16_toUInt16,
    Int16.toInt_ofInt_of_le (by omega) (by omega)]

/-- What four bytes hold is a number in two's complement. -/
theorem signedAt_word (displacement : Int) (word : Operand.IsWord displacement)
    (rest : List UInt8) :
    signedAt 0 4 (Instruction.writtenDisplacement displacement ++ rest) = displacement := by
  obtain ⟨low, high⟩ := word
  have signed (word : UInt32) : (word.toNat : Int).bmod (256 ^ 4) = word.toInt32.toInt := by
    rw [← Int32.toInt_toBitVec, UInt32.toBitVec_toInt32, BitVec.toInt_eq_toNat_bmod]
    rfl
  rw [signedAt, List.drop_zero, List.take_left' (Instruction.length_writtenDisplacement _),
    Instruction.writtenDisplacement, Written.i32, Reader.ofDigits_written, signed,
    Int32.toInt32_toUInt32, Int32.toInt_ofInt_of_le (by omega) (by omega)]

/-- In rows of one width each row is read at its own place. -/
theorem signedAt_rows {α : Type} (written : α → List UInt8) (displacement : α → Int)
    (width inner : Nat) (rows : List α) (each : ∀ row ∈ rows, (written row).length = width ∧
      ∀ rest, signedAt inner 4 (written row ++ rest) = displacement row)
    (start : Nat) (front rest : List UInt8) (size : front.length = start) :
    List.Forall₂ (fun row index =>
        signedAt (start + inner + width * index) 4 (front ++ (rows.flatMap written ++ rest)) =
          displacement row)
      rows (List.range rows.length) := by
  subst size
  induction rows generalizing front with
  | nil => exact .nil
  | cons row others inductionHypothesis =>
    obtain ⟨⟨size, here⟩, later⟩ := List.forall_mem_cons.1 each
    rw [List.length_cons, List.range_succ_eq_map, List.flatMap_cons, List.append_assoc]
    refine .cons ?_ ?_
    · rw [Nat.mul_zero, Nat.add_zero, signedAt_append]
      exact here _
    · rw [List.forall₂_map_right_iff]
      refine (inductionHypothesis later (front ++ written row)).imp fun other index found => ?_
      have place : front.length + inner + width * (index + 1) =
          front.length + width + inner + width * index := by
        rw [Nat.mul_succ]
        omega
      rw [List.append_assoc, List.length_append, size] at found
      rw [Nat.succ_eq_add_one, place]
      exact found

namespace Instruction

/-- The places and widths of the displacements, counted from the opcode of an
instruction that stands at an offset. -/
def displacementPlaces {τ : Type} (offset : Nat) (instruction : Instruction τ) :
    List (Nat × Nat) :=
  match instruction.operand with
  | .fixed _ => []
  | .branch _ => [(1, 2)]
  | .wideBranch _ => [(1, 4)]
  | .tableSwitch _ _ _ targets =>
    (1 + padding offset, 4) :: (List.range targets.length).map fun index =>
      (1 + padding offset + 12 + 4 * index, 4)
  | .lookupSwitch _ pairs =>
    (1 + padding offset, 4) :: (List.range pairs.length).map fun index =>
      (1 + padding offset + 12 + 8 * index, 4)

/-- Where displacements stand does not depend on what they are. -/
theorem displacementPlaces_map {τ σ : Type} (f : τ → σ) (offset : Nat)
    (instruction : Instruction τ) :
    (instruction.map f).displacementPlaces offset = instruction.displacementPlaces offset := by
  obtain ⟨opcode, operand⟩ := instruction
  cases operand <;> simp [map, Operand.map, displacementPlaces]

/-- In the form of an instruction its displacements can be read back. -/
theorem signedAt_form (offset : Nat) (instruction : Instruction Int)
    (reach : instruction.operand.InReach) (gap rest : List UInt8)
    (padded : gap.length = padding offset) :
    List.Forall₂ (fun displacement (found : Nat × Nat) =>
        signedAt found.1 found.2 (instruction.form gap ++ rest) = displacement)
      instruction.targets (instruction.displacementPlaces offset) := by
  obtain ⟨opcode, operand⟩ := instruction
  have behindOpcode (bytes : List UInt8) (place width : Nat) :
      signedAt (1 + place) width (opcode :: bytes) = signedAt place width bytes :=
    signedAt_append [opcode] bytes place width
  have behindPadding (bytes : List UInt8) (default : Int) (fits : Operand.IsWord default) :
      signedAt (1 + padding offset) 4 (opcode :: (gap ++ (writtenDisplacement default ++ bytes))) =
        default := by
    rw [behindOpcode, ← padded]
    exact (signedAt_append gap _ 0 4).trans (signedAt_word default fits bytes)
  cases operand with
  | fixed bytes => exact .nil
  | branch displacement =>
    refine .cons ?_ .nil
    exact (behindOpcode _ 0 2).trans (signedAt_short displacement reach rest)
  | wideBranch displacement =>
    refine .cons ?_ .nil
    have word : Operand.IsWord displacement := reach displacement (List.mem_singleton_self _)
    exact (behindOpcode _ 0 4).trans (signedAt_word displacement word rest)
  | tableSwitch default low high targets =>
    obtain ⟨fits, fit⟩ := (inReach_tableSwitch ..).1 reach
    have front : (opcode :: gap ++ writtenDisplacement default ++ Written.i32 low ++
        Written.i32 high).length = 1 + padding offset + 12 := by
      simp [padded, length_writtenDisplacement, Written.i32, Written.u32]
      omega
    have cases := signedAt_rows writtenDisplacement id 4 0 targets
      (fun target member => ⟨rfl, signedAt_word target (fit target member)⟩) _ _ rest front
    simp only [form, Operand.form, List.cons_append, List.append_assoc] at cases ⊢
    refine .cons ?_ ?_
    · exact behindPadding _ default fits
    · rw [List.forall₂_map_right_iff]
      exact cases
  | lookupSwitch default pairs =>
    obtain ⟨fits, fit⟩ := (inReach_lookupSwitch ..).1 reach
    have behindKey (pair : Int32 × Int) (member : pair ∈ pairs) (rest : List UInt8) :
        signedAt 4 4 (writtenCase pair ++ rest) = pair.2 := by
      rw [writtenCase, List.append_assoc]
      exact (signedAt_append (Written.i32 pair.1) _ 0 4).trans
        (signedAt_word pair.2 (fit pair member) rest)
    have front : (opcode :: gap ++ writtenDisplacement default ++
        Written.i32 (Int32.ofNat pairs.length)).length = 1 + padding offset + 8 := by
      simp [padded, length_writtenDisplacement, Written.i32, Written.u32]
      omega
    have cases := signedAt_rows writtenCase Prod.snd 8 4 pairs
      (fun pair member => ⟨rfl, behindKey pair member⟩) _ _ rest front
    simp only [form, Operand.form, List.cons_append, List.append_assoc] at cases ⊢
    refine .cons ?_ ?_
    · exact behindPadding _ default fits
    · rw [List.forall₂_map_left_iff, List.forall₂_map_right_iff]
      exact cases

end Instruction

namespace Stream

/-- Whether a placed instruction is a short branch that cannot reach its label. -/
def OutOfReach (stream : Stream) (item : Nat × Instruction Label) : Prop :=
  ∃ label target, item.2.operand = .branch label ∧ stream.layout.labels[label]? = some target ∧
    ¬ Operand.IsShort ((target : Int) - item.1)

/-- The items of the layout are the instructions at their places. -/
theorem mem_placed (stream : Stream) (item : Nat × Instruction Label) :
    item ∈ stream.layout.placed ↔ item ∈ Layout.placedFrom 0 stream.flat := by
  rw [layout_eq, List.mem_toArray]

/-- Only a short branch has the displacement of one. -/
theorem displaced_branch_iff (stream : Stream) (item : Nat × Instruction Label)
    (displacement : Int) :
    (stream.displaced item.1 item.2).operand = .branch displacement ↔
      ∃ label, item.2.operand = .branch label ∧
        displacement = (stream.offsetAt (stream.landing label) : Int) - item.1 := by
  obtain ⟨offset, opcode, operand⟩ := item
  cases operand <;> simp [displaced, Instruction.map, Operand.map, eq_comm]

/-- An instruction is out of reach if its displacement does not fit into two bytes. -/
theorem outOfReach_iff (stream : Stream) (item : Nat × Instruction Label)
    (inside : ∀ label ∈ item.2.targets, label ≤ stream.count) :
    stream.OutOfReach item ↔
      ∃ displacement, (stream.displaced item.1 item.2).operand = .branch displacement ∧
        ¬ Operand.IsShort displacement := by
  simp only [OutOfReach, displaced_branch_iff]
  constructor
  · rintro ⟨label, target, branch, here, far⟩
    rw [layout_eq, getElem?_labelOffsets] at here
    split at here
    next bound =>
      obtain rfl := Option.some.inj here
      exact ⟨_, ⟨label, branch, rfl⟩, far⟩
    next => cases here
  · rintro ⟨_, ⟨label, branch, rfl⟩, far⟩
    have target : label ∈ item.2.targets := by
      rw [Instruction.targets, branch]
      exact List.mem_singleton_self label
    refine ⟨label, _, branch, ?_, far⟩
    rw [layout_eq, getElem?_labelOffsets, if_pos (inside label target)]

/-- Encoding fails for the length of the code and for short branches, and for nothing
else. -/
theorem exists_encode_error_iff (stream : Stream)
    (inside : ∀ instruction ∈ stream.flat, ∀ label ∈ instruction.targets, label ≤ stream.count) :
    (∃ failure, stream.encode = .error failure) ↔
      stream.layout.length = 0 ∨ maxLength < stream.layout.length ∨
        ∃ item ∈ stream.layout.placed, stream.OutOfReach item := by
  have length : stream.layout.length = Layout.endFrom 0 stream.flat := by rw [layout_eq]
  have targets : ∀ item ∈ Layout.placedFrom 0 stream.flat,
      ∀ label ∈ item.2.targets, label ≤ stream.count := by
    intro item member
    obtain ⟨position, here, -⟩ := stream.exists_of_mem_placed item member
    exact inside item.2 (List.mem_of_getElem? here)
  constructor
  · rintro ⟨failure, failed⟩
    by_contra fine
    simp only [not_or, not_exists, not_and, Nat.not_lt] at fine
    obtain ⟨positive, bounded, near⟩ := fine
    -- If nothing is wrong, the code that encoding gives can be named.
    have encodes : stream.Encodes ⟨(Layout.placedFrom 0 stream.flat).flatMap fun item =>
        (stream.displaced item.1 item.2).form (List.replicate (padding item.1) 0),
        stream.labelOffsets⟩ := by
      refine
        { positive := by omega
          bounded := by omega
          labels := rfl
          writable := fun item member => ⟨targets item member, ?_⟩
          code := rfl }
      intro displacement branch
      by_contra far
      exact near item ((stream.mem_placed item).2 member)
        ((stream.outOfReach_iff item (targets item member)).2 ⟨displacement, branch, far⟩)
    rw [(encode_eq_ok ..).2 encodes] at failed
    cases failed
  · intro wrong
    cases ran : stream.encode with
    | error failure => exact ⟨failure, rfl⟩
    | ok encoded =>
      have encodes := (encode_eq_ok ..).1 ran
      have positive := encodes.positive
      have bounded := encodes.bounded
      obtain empty | long | ⟨item, member, far⟩ := wrong
      · omega
      · omega
      · rw [mem_placed] at member
        obtain ⟨displacement, branch, far⟩ :=
          (stream.outOfReach_iff item (targets item member)).1 far
        exact absurd ((encodes.writable item member).2 displacement branch) far

/-- In the encoded code every instruction stands where the layout puts it and each of
its displacements leads to its label. -/
theorem Encodes.exact {stream : Stream} {encoded : Encoded} (encodes : stream.Encodes encoded)
    (fits : ∀ instruction ∈ stream.flat, instruction.Fits) (item : Nat × Instruction Label)
    (member : item ∈ Layout.placedFrom 0 stream.flat) :
    encoded.code[item.1]? = some item.2.opcode ∧
      List.Forall₂ (fun label (found : Nat × Nat) => ∃ target, encoded.offsetOf label = .ok target ∧
          (item.1 : Int) + signedAt (item.1 + found.1) found.2 encoded.code = target)
        item.2.targets (item.2.displacementPlaces item.1) := by
  -- What the cutter finds at the offset has some padding; which one does not matter here.
  have found : ⟨item.1, item.2.size item.1, stream.displaced item.1 item.2⟩ ∈ stream.founds :=
    List.mem_map_of_mem (f := fun item => Found.mk item.1 (item.2.size item.1)
      (stream.displaced item.1 item.2)) member
  obtain ⟨-, reach, gap, padded, spelled⟩ := (encodes.cut fits).isForm _ found
  rw [Nat.sub_zero] at spelled
  have split : encoded.code.drop item.1 = (stream.displaced item.1 item.2).form gap ++
      (encoded.code.drop item.1).drop (item.2.size item.1) := by
    rw [← spelled, List.take_append_drop]
  constructor
  · have opcode : (encoded.code.drop item.1)[0]? = encoded.code[item.1]? := List.getElem?_drop
    rw [← opcode, split]
    rfl
  · have read := Instruction.signedAt_form item.1 _ reach gap
      ((encoded.code.drop item.1).drop (item.2.size item.1)) padded
    rw [← split, displaced, Instruction.targets_map, Instruction.displacementPlaces_map,
      List.forall₂_map_left_iff] at read
    refine ((List.forall₂_and_left ..).2 ⟨(encodes.writable item member).1, read⟩).imp ?_
    rintro label found ⟨inside, displacement⟩
    rw [signedAt_drop] at displacement
    refine ⟨_, (encodes.offsetOf_eq_ok ..).2 ⟨inside, rfl⟩, ?_⟩
    rw [displacement]
    omega

/-- Encoding never loses a part of a displacement. Whatever groups of independent
instructions are put into decoded code, encoding fails just for a length that code
cannot have and for a short branch that would have to reach too far; otherwise each
displacement in the code, read as a number in two's complement and counted from its
instruction, leads exactly to its label. -/
theorem encode_exact (code : List UInt8) (original : Stream) (decoded : decode code = .ok original)
    (edits : List Edit) (fit : ∀ edit ∈ edits, edit.FitsInto original) :
    ∃ stream, Edit.applyAll edits original = .ok stream ∧
      ((∃ failure, stream.encode = .error failure) ↔
        stream.layout.length = 0 ∨ 65535 < stream.layout.length ∨
          ∃ item ∈ stream.layout.placed, stream.OutOfReach item) ∧
      ∀ encoded, stream.encode = .ok encoded → ∀ item ∈ stream.layout.placed,
        encoded.code[item.1]? = some item.2.opcode ∧
        List.Forall₂ (fun label (found : Nat × Nat) =>
            ∃ target, encoded.offsetOf label = .ok target ∧
              (item.1 : Int) + signedAt (item.1 + found.1) found.2 encoded.code = target)
          item.2.targets (item.2.displacementPlaces item.1) := by
  obtain ⟨lengths, isDecoded, -⟩ := isDecoded_of_decode code original decoded
  have extended := extends_edited edits original fit isDecoded
  have inside := extended.inside isDecoded
  rw [← extended.count_eq] at inside
  refine ⟨_, applyAll_eq edits original fit, exists_encode_error_iff _ inside, ?_⟩
  intro encoded ran item member
  rw [mem_placed] at member
  exact ((encode_eq_ok ..).1 ran).exact (extended.fits isDecoded) item member

/-- The jump back to the load leads to the group in front of it. -/
theorem encode_exact_switchLoop :
    ∃ stream encoded, Edit.applyAll switchLoopEdits switchLoop = .ok stream ∧
      stream.encode = .ok encoded ∧ encoded.code[24]? = some 0xa7 ∧
      24 + signedAt 25 2 encoded.code = 1 := by
  obtain ⟨stream, applied, -, exactly⟩ := encode_exact switchLoopCode switchLoop
    (by decide +kernel) switchLoopEdits (by decide +kernel)
  have edited := applyAll_eq switchLoopEdits switchLoop (by decide +kernel)
  obtain rfl := Except.ok.inj (edited.symm.trans applied)
  have load : ((switchLoop.edited switchLoopEdits).encode >>= (Encoded.offsetOf · 0)) = .ok 1 := by
    decide +kernel
  obtain ⟨encoded, ran, load⟩ := (Outcome.bind_eq_ok ..).1 load
  obtain ⟨opcode, displacements⟩ := exactly encoded ran (24, .jump 0xa7 0) (by decide +kernel)
  cases displacements with
  | cons leads _ =>
    obtain ⟨target, here, leads⟩ := leads
    obtain rfl := Except.ok.inj (load.symm.trans here)
    exact ⟨_, encoded, applied, ran, opcode, leads⟩

end Stream

end NullGuard
