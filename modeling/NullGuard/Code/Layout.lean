import NullGuard.Code.Stream

/-!
# Layout

Encoding a stream takes two passes. The layout gives every instruction, groups
included, the offset at which it will stand; a label stands where the group
before its instruction begins. With all offsets known each instruction is
written with its displacements, or the encoding fails because a short branch
has fallen out of reach. The code as a whole has 1 to 65535 bytes.
-/

namespace NullGuard

/-- Instructions with the offsets they will stand at. -/
structure Layout where
  placed : Array (Nat × Instruction Label)
  /-- The offset of each label. -/
  labels : Array Nat
  /-- The offset behind everything placed so far. -/
  length : Nat
  deriving DecidableEq, Repr

namespace Layout

/-- The layout of no instructions. -/
def empty : Layout := ⟨#[], #[], 0⟩

/-- Place an instruction behind the others. -/
def place (layout : Layout) (instruction : Instruction Label) : Layout :=
  { layout with
    placed := layout.placed.push (layout.length, instruction)
    length := layout.length + instruction.size layout.length }

/-- Let the next label stand here. -/
def mark (layout : Layout) : Layout :=
  { layout with labels := layout.labels.push layout.length }

/-- Place an instruction with its groups; its label stands before them. -/
def placeSlot (layout : Layout) (slot : Slot) : Layout :=
  slot.all.foldl place layout.mark

/-- The displacement from an offset to a label. -/
def displacement (labels : Array Nat) (offset : Nat) (label : Label) : Except Failure Int :=
  match labels[label]? with
  | some target => .ok ((target : Int) - offset)
  | none => fail (.labelOutOfRange label)

/-- The byte form of a placed instruction. -/
def emit (labels : Array Nat) (item : Nat × Instruction Label) : Except Failure (List UInt8) := do
  (← item.2.traverse (displacement labels item.1)).written item.1

end Layout

/-- Code in bytes and the offset of each label in it. -/
structure Encoded where
  code : List UInt8
  labels : Array Nat
  deriving DecidableEq, Repr

/-- The offset of a label. -/
def Encoded.offsetOf (encoded : Encoded) (label : Label) : Except Failure Nat :=
  match encoded.labels[label]? with
  | some offset => .ok offset
  | none => fail (.labelOutOfRange label)

namespace Stream

/-- The most bytes that the code of a method may have. -/
def maxLength : Nat := 65535

/-- Where everything in a stream will stand; the last label is the end. -/
def layout (stream : Stream) : Layout :=
  (stream.slots.foldl Layout.placeSlot (stream.entry.foldl Layout.place .empty)).mark

/-- The bytes of a stream. -/
def encode (stream : Stream) : Except Failure Encoded := do
  let layout := stream.layout
  if layout.length = 0 ∨ maxLength < layout.length then fail (.codeLengthOutside layout.length)
  let written ← layout.placed.toList.mapM (Layout.emit layout.labels)
  return ⟨written.flatten, layout.labels⟩

end Stream

end NullGuard
