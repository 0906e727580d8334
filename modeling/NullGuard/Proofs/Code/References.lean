import NullGuard.Proofs.Code.ControlFlow

/-!
# References to instructions

A frame names the instruction that has created a value, and an annotation names
the instruction in which a type occurs. Such a reference is to one instruction,
while a relocation takes an offset to the start of a block, where the group before
the instruction begins. So a reference is kept exactly because nothing has been put
before the instruction (`tracks_of_relocation`); then whatever tables a relocation has
moved keep their references (`Attribute.Moved.keepsReferences`).
-/

namespace NullGuard

namespace Stream

/-- The instruction that starts at an offset. -/
def HasInstruction (stream : Stream) (offset : Nat) (instruction : Instruction Label) : Prop :=
  ∃ label, stream.labelAt offset = .ok label ∧ stream.instructions[label]? = some instruction

/-- An instruction that starts at the old offset of the original code starts at the new offset
of the code with the groups. It is its own label that leads there, so it is no other
instruction that looks the same; its targets are positions now. -/
def Tracks (original stream again : Stream) (instruction : Instruction Label) (old new : Nat) :
    Prop :=
  ∃ label slot, stream.slots[label]? = some slot ∧ slot.instruction = instruction ∧
    original.labelAt old = .ok label ∧
    again.labelAt new = .ok (stream.landing label + slot.before.length) ∧
    again.instructions[stream.landing label + slot.before.length]? =
      some (instruction.map stream.landing)

/-- A reference to an instruction with an opcode of some kind is to the same instruction
as before. -/
def KeepsReference (original stream again : Stream) (Kind : UInt8 → Prop) (old new : Nat) : Prop :=
  ∀ instruction, original.HasInstruction old instruction → Kind instruction.opcode →
    original.Tracks stream again instruction old new

section

variable {original stream : Stream} {encoded : Encoded} {lengths : List Nat}
variable (decoded : original.IsDecoded lengths) (extended : stream.Extends original)
variable (encodes : stream.Encodes encoded)
include decoded extended encodes

/-- An offset moves to its instruction if nothing stands before the instruction. -/
theorem tracks_of_relocation (old new : Nat)
    (moved : Body.relocationOf stream encoded old = .ok new) (instruction : Instruction Label)
    (here : original.HasInstruction old instruction)
    (bare : ∀ slot ∈ stream.slots, slot.instruction = instruction → slot.before = []) :
    original.Tracks stream stream.flattened instruction old new := by
  obtain ⟨label, found, reached⟩ := (relocationOf_eq_ok decoded extended encodes ..).1 moved
  obtain ⟨other, foundToo, there⟩ := here
  obtain rfl := Except.ok.inj (found.symm.trans foundToo)
  rw [← extended.instructions, instructions, List.getElem?_map, Option.map_eq_some_iff] at there
  obtain ⟨slot, slotHere, rfl⟩ := there
  have nothing := bare slot (List.mem_of_getElem? slotHere) rfl
  -- The block begins with the instruction itself, so where the block has gone the instruction is.
  refine ⟨label, slot, slotHere, rfl, found, ?_, ?_⟩
  · rw [nothing, List.length_nil, Nat.add_zero]
    exact reached
  · rw [instructions_flattened, List.getElem?_map, stream.getElem?_flat_host label slot slotHere,
      Option.map_some]

/-- A reference that is moved still leads to the same instruction, since nothing is put in
front of an instruction of the kind. -/
theorem keepsReference_of_relocation (Kind : UInt8 → Prop)
    (bare : ∀ slot ∈ stream.slots, Kind slot.instruction.opcode → slot.before = [])
    (old new : Nat) (moved : Body.relocationOf stream encoded old = .ok new) :
    original.KeepsReference stream stream.flattened Kind old new := by
  intro instruction here kind
  refine tracks_of_relocation decoded extended encodes old new moved instruction here ?_
  rintro slot inside rfl
  exact bare slot inside kind

end

end Stream

/-! ## References in frames -/

/-- A type that says which instruction has created a value says so by a new offset. -/
def VerificationType.Follows (Keeps : Nat → Nat → Prop) (old new : VerificationType) : Prop :=
  ∀ offset, old = .uninitialized offset → ∃ target, new = .uninitialized target ∧
    Keeps offset target

/-- A type whose place has moved follows what the places keep. -/
theorem VerificationType.Moved.follows {relocation : Relocation} {old new : VerificationType}
    {Keeps : Nat → Nat → Prop} (moved : old.Moved relocation new)
    (keeps : ∀ offset target, relocation offset = .ok target → Keeps offset target) :
    old.Follows Keeps new := by
  rintro offset rfl
  cases moved with
  | created _ target moved => exact ⟨target, rfl, keeps offset target moved⟩
  | other _ fixed => exact absurd rfl (fixed offset)

namespace FrameChange

/-- The types that a frame lists, locals before stack. -/
def types : FrameChange → List VerificationType
  | .same | .chop _ => []
  | .oneItem item => [item]
  | .append locals => locals
  | .full locals stack => locals ++ stack

/-- The types move one by one. -/
theorem Moved.types {relocation : Relocation} {old new : FrameChange}
    (moved : old.Moved relocation new) :
    List.Forall₂ (VerificationType.Moved relocation) old.types new.types := by
  cases moved with
  | same => exact .nil
  | oneItem old new item => exact .cons item .nil
  | chop count => exact .nil
  | append olds news locals => exact locals
  | full olds news oldStack newStack locals stack => exact List.rel_append locals stack

end FrameChange

/-- Each type of a frame follows its instruction. -/
def Frame.Follows (Keeps : Nat → Nat → Prop) (old new : Frame) : Prop :=
  List.Forall₂ (VerificationType.Follows Keeps) old.change.types new.change.types

/-! ## References in annotations -/

namespace CodeTarget

/-- The byte that tells the kind of a target. -/
def tag : CodeTarget → UInt8
  | .variable tag _ | .instruction tag _ | .argument tag _ _ => tag
  | .handler _ => 0x42

/-- The offset of the instruction that a target names. -/
def offset? : CodeTarget → Option UInt16
  | .instruction _ offset | .argument _ offset _ => some offset
  | .variable _ _ | .handler _ => none

/-- The kinds of targets that name an instruction. -/
def IsPlaced (target : CodeTarget) : Prop := 0x43 ≤ target.tag ∧ target.tag ≤ 0x4b

/-- A target that names an instruction names one by its new offset. -/
def Follows (Keeps : Nat → Nat → Prop) (old new : CodeTarget) : Prop :=
  new.tag = old.tag ∧ (old.IsPlaced → ∃ offset target, old.offset? = some offset ∧
    new.offset? = some target ∧ Keeps offset.toNat target.toNat)

/-- A target whose offsets have moved follows what the offsets keep. -/
theorem Moved.follows {relocation : Relocation} {old new : CodeTarget} {Keeps : Nat → Nat → Prop}
    (moved : old.Moved relocation new) (fits : old.Fits)
    (keeps : ∀ offset target, relocation offset = .ok target → Keeps offset target) :
    old.Follows Keeps new := by
  cases moved with
  | ranges tag olds news each =>
    refine ⟨rfl, fun placed => ?_⟩
    obtain ⟨above, -⟩ : 0x43 ≤ tag ∧ tag ≤ 0x4b := placed
    obtain ⟨rfl | rfl, -⟩ := fits
    · exact absurd above (by decide)
    · exact absurd above (by decide)
  | handler row =>
    refine ⟨rfl, fun placed => ?_⟩
    have above : (0x43 : UInt8) ≤ 0x42 := placed.1
    exact absurd above (by decide)
  | instruction tag offset target moved =>
    exact ⟨rfl, fun _ => ⟨offset, target, rfl, rfl, keeps _ _ moved⟩⟩
  | argument tag offset target position moved =>
    exact ⟨rfl, fun _ => ⟨offset, target, rfl, rfl, keeps _ _ moved⟩⟩

end CodeTarget

/-! ## References in attributes -/

/-- The references in frames and type annotations that an attribute of a body holds are kept
one by one. -/
structure Attribute.KeepsReferences (Keeps : Nat → Nat → Prop) (pool : Pool)
    (old new : Attribute) : Prop where
  name : new.name = old.name
  stackMap : pool.utf8Is old.name "StackMapTable" = true →
    ∃ map moved, StackMap.parse old.contents = .ok map ∧ StackMap.parse new.contents = .ok moved ∧
      List.Forall₂ (Frame.Follows Keeps) map.frames moved.frames
  typeAnnotations : (pool.utf8Is old.name "RuntimeVisibleTypeAnnotations" = true ∨
      pool.utf8Is old.name "RuntimeInvisibleTypeAnnotations" = true) →
    ∃ olds news, AnnotatedType.parse old.contents = .ok olds ∧
      AnnotatedType.parse new.contents = .ok news ∧
      List.Forall₂ (fun entry moved => entry.target.Follows Keeps moved.target) olds news

/-- What has been moved keeps its references if moving keeps each. -/
theorem Attribute.Moved.keepsReferences {relocation : Relocation} {pool : Pool}
    {old new : Attribute} {Keeps : Nat → Nat → Prop} (moved : old.Moved relocation pool new)
    (keeps : ∀ offset target, relocation offset = .ok target → Keeps offset target) :
    old.KeepsReferences Keeps pool new where
  name := moved.name
  stackMap named := by
    obtain ⟨map, rewritten, parsed, parsedAgain, frames⟩ := moved.stackMap named
    refine ⟨map, rewritten, parsed, parsedAgain, frames.imp fun old new frame => ?_⟩
    exact frame.change.types.imp fun old new type => type.follows keeps
  typeAnnotations named := by
    obtain ⟨olds, news, parsed, parsedAgain, entries⟩ := moved.typeAnnotations named
    have spells := (AnnotatedType.parse_eq_ok ..).1 parsed
    have fit : List.Forall₂ (fun old new => old.WellFormed ∧ old.Moved relocation new) olds news :=
      (List.forall₂_and_left ..).2 ⟨spells.wellFormed, entries⟩
    refine ⟨olds, news, parsed, parsedAgain, fit.imp fun old new entry => ?_⟩
    exact entry.2.target.follows entry.1.target keeps

end NullGuard
