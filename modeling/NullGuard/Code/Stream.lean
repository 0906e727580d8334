import NullGuard.Code.Instruction

/-!
# Instruction streams

A stream holds the instructions of one method body in order, each with the
groups that were put before and after it, and a group in front of everything.
Targets are labels, so putting in a group changes no target: a branch to an
instruction lands on the group before that instruction, and it skips the group
at the entry.

Decoding first cuts the bytes into instructions and then turns every
displacement into a label; a displacement has to lead to the start of an
instruction or to the end of the code.
-/

namespace NullGuard

/-- An instruction with the groups around it. -/
structure Slot where
  before : List (Instruction Label)
  instruction : Instruction Label
  after : List (Instruction Label)
  deriving DecidableEq, Repr

namespace Slot

/-- An instruction without groups. -/
def bare (instruction : Instruction Label) : Slot := ⟨[], instruction, []⟩

/-- The instruction and its groups in the order in which they run. -/
def all (slot : Slot) : List (Instruction Label) :=
  slot.before ++ slot.instruction :: slot.after

/-- Whether there is no group. -/
def isBare (slot : Slot) : Bool := slot.before.isEmpty && slot.after.isEmpty

end Slot

/-- The instructions of a method body with the groups put into it. -/
structure Stream where
  entry : List (Instruction Label)
  slots : List Slot
  /-- For each offset of the decoded bytes, their end included, the label of the
  instruction that starts there. -/
  landmarks : Array (Option Label)
  /-- Whether the stream was composed rather than decoded. -/
  composed : Bool
  deriving DecidableEq, Repr

namespace Stream

/-! ## Composing and decoding -/

/-- A stream of instructions whose labels are positions in the list itself. As no
bytes were decoded, the only landmark is the start. -/
def ofInstructions (instructions : List (Instruction Label)) : Stream :=
  { entry := [], slots := instructions.map Slot.bare, landmarks := #[some 0], composed := true }

/-- An instruction found in some bytes. -/
structure Found where
  offset : Nat
  length : Nat
  instruction : Instruction Int
  deriving DecidableEq, Repr

/-- Cut the bytes from `offset` on into instructions. The first `pending` bytes
belong to the instruction found last; `found` holds the instructions so far,
last one first. -/
def cutFrom (pending offset : Nat) (found : List Found) : List UInt8 → Except Failure (List Found)
  | [] => .ok found.reverse
  | byte :: rest =>
    match pending with
    | pending + 1 => cutFrom pending (offset + 1) found rest
    | 0 => do
      let (instruction, length) ← Instruction.read offset (byte :: rest)
      cutFrom (length - 1) (offset + 1) (⟨offset, length, instruction⟩ :: found) rest

/-- The instructions that some bytes consist of. -/
def cut (code : List UInt8) : Except Failure (List Found) := cutFrom 0 0 [] code

/-- For each offset the label of the instruction that starts there, given the
lengths of the instructions. -/
def landmarksOf (lengths : List Nat) : Array (Option Label) :=
  ((lengths.zipIdx.flatMap fun (length, label) =>
    some label :: List.replicate (length - 1) none) ++ [some lengths.length]).toArray

/-- The label at an offset that has to be a landmark. -/
def labelIn (landmarks : Array (Option Label)) (offset : Nat) : Except Failure Label :=
  match landmarks[offset]? with
  | some (some label) => .ok label
  | _ => fail (.notAnInstruction offset)

/-- The label that a displacement at an offset leads to. -/
def targetOf (landmarks : Array (Option Label)) (offset : Nat) (displacement : Int) :
    Except Failure Label :=
  let target := (offset : Int) + displacement
  if target < 0 then fail (.negativeTarget offset target)
  else labelIn landmarks target.toNat

/-- The stream of some bytes, without groups. -/
def decode (code : List UInt8) : Except Failure Stream := do
  let found ← cut code
  let landmarks := landmarksOf (found.map Found.length)
  let instructions ← found.mapM fun item =>
    item.instruction.traverse (targetOf landmarks item.offset)
  return { entry := [], slots := instructions.map Slot.bare, landmarks, composed := false }

/-! ## Looking -/

/-- The instructions without the groups. -/
def instructions (stream : Stream) : List (Instruction Label) :=
  stream.slots.map Slot.instruction

/-- How many instructions there are without the groups. -/
def count (stream : Stream) : Nat := stream.slots.length

/-- The label of the instruction that was decoded from an offset. -/
def labelAt (stream : Stream) (offset : Nat) : Except Failure Label :=
  labelIn stream.landmarks offset

/-- Whether the stream differs from the bytes it was decoded from. -/
def isModified (stream : Stream) : Bool :=
  stream.composed || !stream.entry.isEmpty || !stream.slots.all Slot.isBare

/-! ## Putting in groups -/

/-- Put a group in front of everything, behind what was put there earlier. -/
def insertAtEntry (group : List (Instruction Label)) (stream : Stream) : Stream :=
  { stream with entry := stream.entry ++ group }

/-- Change the slot at a position that has to exist. -/
def modifySlot (position : Nat) (change : Slot → Slot) (stream : Stream) :
    Except Failure Stream :=
  if position < stream.count then
    .ok { stream with slots := stream.slots.modify position change }
  else fail (.noInstructionAt position)

/-- Put a group directly before an instruction, behind what was put there earlier. -/
def insertBefore (position : Nat) (group : List (Instruction Label)) (stream : Stream) :
    Except Failure Stream :=
  stream.modifySlot position fun slot => { slot with before := slot.before ++ group }

/-- Put a group directly after an instruction, behind what was put there earlier. -/
def insertAfter (position : Nat) (group : List (Instruction Label)) (stream : Stream) :
    Except Failure Stream :=
  stream.modifySlot position fun slot => { slot with after := slot.after ++ group }

end Stream

end NullGuard
