import Mathlib.Algebra.GroupWithZero.Nat
import NullGuard.Code.Stream
import NullGuard.Proofs.Code.Instruction

/-!
# Cutting code into instructions

`Cut` says what it means that bytes consist of instructions: from some offset
on they are the forms of fitting instructions one behind the other. Cutting
finds exactly that (`cut_eq_ok`), and its landmarks are the offsets at which
those instructions begin, together with the end (`labelIn_landmarksOf`).
-/

namespace NullGuard

/-- The bytes are a form of the instruction at an offset, with any padding. -/
def Instruction.IsForm (offset : Nat) (bytes : List UInt8) (instruction : Instruction Int) : Prop :=
  instruction.Fits ∧ instruction.operand.InReach ∧
    ∃ gap, gap.length = padding offset ∧ bytes = instruction.form gap

/-- The form of an instruction at an offset is as long as its size there. -/
theorem Instruction.IsForm.length_eq {offset : Nat} {bytes : List UInt8}
    {instruction : Instruction Int} (spelled : instruction.IsForm offset bytes) :
    bytes.length = instruction.size offset := by
  obtain ⟨-, -, gap, padded, rfl⟩ := spelled
  exact instruction.length_form offset gap padded

/-- An instruction has at least one byte, its opcode. -/
theorem Instruction.IsForm.exists_cons {offset : Nat} {bytes : List UInt8}
    {instruction : Instruction Int} (spelled : instruction.IsForm offset bytes) :
    ∃ operands, bytes = instruction.opcode :: operands := by
  obtain ⟨-, -, gap, -, rfl⟩ := spelled
  exact ⟨_, rfl⟩

/-- An instruction is read from its forms, which the code begins with, and from nothing
else. -/
theorem Instruction.read_form_eq_ok (offset : Nat) (code : List UInt8)
    (instruction : Instruction Int) (length : Nat) :
    Instruction.read offset code = .ok (instruction, length) ↔
      ∃ bytes rest, code = bytes ++ rest ∧ instruction.IsForm offset bytes ∧
        length = bytes.length := by
  rw [Instruction.read_eq_ok]
  constructor
  · rintro ⟨fits, reach, rfl, gap, rest, padded, rfl⟩
    exact ⟨_, rest, rfl, ⟨fits, reach, gap, padded, rfl⟩,
      (instruction.length_form offset gap padded).symm⟩
  · rintro ⟨bytes, rest, rfl, spelled, rfl⟩
    have size := spelled.length_eq
    obtain ⟨fits, reach, gap, padded, rfl⟩ := spelled
    exact ⟨fits, reach, size, gap, rest, padded, rfl⟩

namespace Stream

/-- The bytes from an offset on are the forms of these instructions. -/
inductive Cut : Nat → List UInt8 → List Found → Prop
  | done (offset : Nat) : Cut offset [] []
  | next (offset : Nat) (code : List UInt8) (instruction : Instruction Int)
      (bytes rest : List UInt8) (others : List Found) (split : code = bytes ++ rest)
      (spelled : instruction.IsForm offset bytes)
      (behind : Cut (offset + bytes.length) rest others) :
      Cut offset code (⟨offset, bytes.length, instruction⟩ :: others)

/-! ## The cutter -/

/-- The bytes of the instruction found last are passed over. -/
theorem cutFrom_append (front rest : List UInt8) (offset : Nat) (found : List Found) :
    cutFrom front.length offset found (front ++ rest) =
      cutFrom 0 (offset + front.length) found rest := by
  induction front generalizing offset with
  | nil => rfl
  | cons byte others inductionHypothesis =>
    rw [List.length_cons, List.cons_append, cutFrom, inductionHypothesis]
    congr 1
    omega

/-- One step of the cutter reads an instruction and goes on behind it. -/
theorem cutFrom_step (offset : Nat) (found result : List Found) (byte : UInt8)
    (rest : List UInt8) :
    cutFrom 0 offset found (byte :: rest) = .ok result ↔
      ∃ instruction bytes others, byte :: rest = bytes ++ others ∧
        Instruction.IsForm offset bytes instruction ∧
        cutFrom 0 (offset + bytes.length) (⟨offset, bytes.length, instruction⟩ :: found)
          others = .ok result := by
  rw [cutFrom, Outcome.bind_eq_ok]
  have passed (instruction : Instruction Int) (bytes others : List UInt8)
      (split : byte :: rest = bytes ++ others) (spelled : instruction.IsForm offset bytes) :
      cutFrom (bytes.length - 1) (offset + 1) (⟨offset, bytes.length, instruction⟩ :: found) rest =
        cutFrom 0 (offset + bytes.length) (⟨offset, bytes.length, instruction⟩ :: found)
          others := by
    obtain ⟨tail, rfl⟩ := spelled.exists_cons
    rw [List.cons_append] at split
    obtain ⟨rfl, rfl⟩ := List.cons.inj split
    rw [List.length_cons, Nat.add_sub_cancel, cutFrom_append]
    congr 1
    omega
  constructor
  · rintro ⟨⟨instruction, length⟩, read, reached⟩
    obtain ⟨bytes, others, split, spelled, rfl⟩ := (Instruction.read_form_eq_ok ..).1 read
    refine ⟨instruction, bytes, others, split, spelled, ?_⟩
    rw [← passed instruction bytes others split spelled]
    exact reached
  · rintro ⟨instruction, bytes, others, split, spelled, reached⟩
    refine ⟨⟨instruction, bytes.length⟩, ?_, ?_⟩
    · exact (Instruction.read_form_eq_ok ..).2 ⟨bytes, others, split, spelled, rfl⟩
    · rw [← passed instruction bytes others split spelled] at reached
      exact reached

/-- The cutter goes on to find what the bytes from an offset on consist of. The
induction is on the number of bytes: each instruction takes at least one. -/
theorem cutFrom_eq_ok (code : List UInt8) (offset : Nat) (found result : List Found) :
    cutFrom 0 offset found code = .ok result ↔
      ∃ others, Cut offset code others ∧ result = found.reverse ++ others := by
  induction size : code.length using Nat.strongRecOn generalizing code offset found with
  | _ count inductionHypothesis =>
    cases code with
    | nil =>
      rw [cutFrom, Except.ok.injEq]
      constructor
      · rintro rfl
        exact ⟨[], .done offset, by simp⟩
      · rintro ⟨others, cut, rfl⟩
        cases cut with
        | done => simp
        | next _ _ instruction bytes rest others split spelled behind =>
          obtain ⟨operands, rfl⟩ := spelled.exists_cons
          cases split
    | cons byte rest =>
      have shorter (bytes others : List UInt8) (instruction : Instruction Int)
          (split : byte :: rest = bytes ++ others) (spelled : instruction.IsForm offset bytes) :
          others.length < count := by
        obtain ⟨operands, rfl⟩ := spelled.exists_cons
        rw [← size, split, List.length_append, List.length_cons]
        omega
      rw [cutFrom_step]
      constructor
      · rintro ⟨instruction, bytes, others, split, spelled, reached⟩
        obtain ⟨founds, behind, rfl⟩ := (inductionHypothesis _
          (shorter bytes others instruction split spelled) others _ _ rfl).1 reached
        exact ⟨_, .next offset _ instruction bytes others founds split spelled behind, by simp⟩
      · rintro ⟨founds, cut, rfl⟩
        cases cut with
        | next _ _ instruction bytes others founds split spelled behind =>
          refine ⟨instruction, bytes, others, split, spelled, ?_⟩
          exact (inductionHypothesis _ (shorter bytes others instruction split spelled)
            others _ _ rfl).2 ⟨founds, behind, by simp⟩

/-- Cutting finds the instructions that the bytes consist of. -/
theorem cut_eq_ok (code : List UInt8) (founds : List Found) :
    cut code = .ok founds ↔ Cut 0 code founds := by
  rw [cut, cutFrom_eq_ok]
  simp

/-! ## Facts about cuts -/

/-- Every instruction that has been cut off fits its shape. -/
theorem Cut.fits {offset : Nat} {code : List UInt8} {founds : List Found}
    (cut : Cut offset code founds) : ∀ found ∈ founds, found.instruction.Fits := by
  induction cut with
  | done => simp
  | next offset code instruction bytes rest others split spelled behind inductionHypothesis =>
    simpa using ⟨spelled.1, inductionHypothesis⟩

/-- Every instruction that has been cut off takes at least a byte. -/
theorem Cut.length_pos {offset : Nat} {code : List UInt8} {founds : List Found}
    (cut : Cut offset code founds) : ∀ length ∈ founds.map Found.length, 0 < length := by
  induction cut with
  | done => simp
  | next offset code instruction bytes rest others split spelled behind inductionHypothesis =>
    obtain ⟨operands, rfl⟩ := spelled.exists_cons
    rw [List.map_cons, List.forall_mem_cons]
    exact ⟨by simp, inductionHypothesis⟩

/-- What has been cut off makes up the whole code. -/
theorem Cut.sum_length {offset : Nat} {code : List UInt8} {founds : List Found}
    (cut : Cut offset code founds) : (founds.map Found.length).sum = code.length := by
  induction cut with
  | done => rfl
  | next offset code instruction bytes rest others split spelled behind inductionHypothesis =>
    rw [List.map_cons, List.sum_cons, inductionHypothesis, split, List.length_append]

/-- Nothing is found in front of where cutting begins. -/
theorem Cut.le_offset {offset : Nat} {code : List UInt8} {founds : List Found}
    (cut : Cut offset code founds) : ∀ found ∈ founds, offset ≤ found.offset := by
  induction cut with
  | done => simp
  | next offset code instruction bytes rest others split spelled behind inductionHypothesis =>
    rw [List.forall_mem_cons]
    refine ⟨Nat.le_refl offset, ?_⟩
    intro found member
    have later := inductionHypothesis found member
    omega

/-- At the offset of each instruction stands a form of it. -/
theorem Cut.isForm {offset : Nat} {code : List UInt8} {founds : List Found}
    (cut : Cut offset code founds) : ∀ found ∈ founds, found.instruction.IsForm found.offset
      ((code.drop (found.offset - offset)).take found.length) := by
  induction cut with
  | done => simp
  | next offset code instruction bytes rest others split spelled behind inductionHypothesis =>
    rw [List.forall_mem_cons]
    constructor
    · simpa [split] using spelled
    · intro found member
      have later := behind.le_offset found member
      have distance : found.offset - offset =
          bytes.length + (found.offset - (offset + bytes.length)) := by omega
      rw [distance, split, List.drop_length_add_append]
      exact inductionHypothesis found member

/-- An instruction stands behind the bytes of those in front of it. -/
theorem Cut.offset_eq {offset : Nat} {code : List UInt8} {founds : List Found}
    (cut : Cut offset code founds) (position : Nat) (found : Found)
    (here : founds[position]? = some found) :
    found.offset = offset + ((founds.map Found.length).take position).sum := by
  induction cut generalizing position with
  | done => simp at here
  | next offset code instruction bytes rest others split spelled behind inductionHypothesis =>
    cases position with
    | zero =>
      obtain rfl := Option.some.inj here
      simp
    | succ position =>
      rw [inductionHypothesis position here, List.map_cons, List.take_succ_cons, List.sum_cons]
      exact Nat.add_assoc ..

/-! ## Landmarks -/

/-- The landmarks of instructions of given lengths, counted from a label on. -/
def landmarksFrom (start : Nat) (lengths : List Nat) : List (Option Nat) :=
  (lengths.zipIdx start).flatMap (fun (length, label) =>
    some label :: List.replicate (length - 1) none) ++ [some (start + lengths.length)]

/-- The landmark of an instruction stands on its first byte, and on no other of its bytes.
-/
theorem landmarksFrom_cons (start : Nat) (length : Nat) (others : List Nat) :
    landmarksFrom start (length :: others) =
      some start :: (List.replicate (length - 1) none ++ landmarksFrom (start + 1) others) := by
  have last : start + (others.length + 1) = start + 1 + others.length := by omega
  simp [landmarksFrom, last]

/-- An offset is a landmark if some number of instructions stand before it. The
induction is on the instructions; an offset lies at the start of the first one,
inside it or behind it. -/
theorem landmarksFrom_getElem? (lengths : List Nat) (positive : ∀ length ∈ lengths, 0 < length)
    (start offset label : Nat) :
    (landmarksFrom start lengths)[offset]? = some (some label) ↔
      ∃ position, position ≤ lengths.length ∧ label = start + position ∧
        offset = (lengths.take position).sum := by
  induction lengths generalizing start offset with
  | nil =>
    cases offset with
    | zero =>
      simp only [landmarksFrom, List.zipIdx_nil, List.flatMap_nil, List.nil_append,
        List.getElem?_cons_zero, Option.some.injEq, List.length_nil, List.take_nil, List.sum_nil]
      constructor
      · rintro rfl
        exact ⟨0, by omega, rfl, trivial⟩
      · rintro ⟨position, bound, rfl, -⟩
        omega
    | succ offset =>
      simp [landmarksFrom]
  | cons length others inductionHypothesis =>
    obtain ⟨first, rest⟩ := List.forall_mem_cons.1 positive
    rw [landmarksFrom_cons]
    cases offset with
    | zero =>
      simp only [List.getElem?_cons_zero, Option.some.injEq]
      constructor
      · rintro rfl
        exact ⟨0, by omega, rfl, rfl⟩
      · rintro ⟨position, -, rfl, atStart⟩
        cases position with
        | zero => rfl
        | succ position =>
          rw [List.take_succ_cons, List.sum_cons] at atStart
          omega
    | succ offset =>
      rw [List.getElem?_cons_succ]
      by_cases inside : offset < length - 1
      · rw [List.getElem?_append_left (by simpa using inside), List.getElem?_replicate_of_lt inside]
        constructor
        · intro impossible
          cases impossible
        · rintro ⟨position, -, -, within⟩
          cases position with
          | zero => simp at within
          | succ position =>
            rw [List.take_succ_cons, List.sum_cons] at within
            omega
      · rw [List.getElem?_append_right (by simpa using inside), List.length_replicate,
          inductionHypothesis rest]
        constructor
        · rintro ⟨position, bound, rfl, behind⟩
          refine ⟨position + 1, by simpa using bound, by omega, ?_⟩
          rw [List.take_succ_cons, List.sum_cons]
          omega
        · rintro ⟨position, bound, rfl, behind⟩
          cases position with
          | zero => simp at behind
          | succ position =>
            rw [List.take_succ_cons, List.sum_cons] at behind
            exact ⟨position, by simpa using bound, by omega, by omega⟩

/-- The landmarks are the offsets at which instructions begin, and the end. -/
theorem labelIn_landmarksOf (lengths : List Nat) (positive : ∀ length ∈ lengths, 0 < length)
    (offset label : Nat) :
    labelIn (landmarksOf lengths) offset = .ok label ↔
      label ≤ lengths.length ∧ offset = (lengths.take label).sum := by
  have marks : landmarksOf lengths = (landmarksFrom 0 lengths).toArray := by
    simp [landmarksOf, landmarksFrom]
  have found : labelIn (landmarksOf lengths) offset = .ok label ↔
      (landmarksFrom 0 lengths)[offset]? = some (some label) := by
    rw [labelIn, marks, List.getElem?_toArray]
    split
    next other here => simp [here]
    next absent =>
      constructor
      · intro impossible
        cases impossible
      · intro here
        exact absurd here (absent label)
  rw [found, landmarksFrom_getElem? lengths positive]
  constructor
  · rintro ⟨position, bound, rfl, reached⟩
    rw [Nat.zero_add]
    exact ⟨bound, reached⟩
  · rintro ⟨bound, reached⟩
    exact ⟨label, bound, (Nat.zero_add label).symm, reached⟩

end Stream

end NullGuard
