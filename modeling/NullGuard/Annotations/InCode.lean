import NullGuard.Annotations.Tree
import NullGuard.Code.Relocation

/-!
# Type annotations in code

An annotation on a type that occurs in a method body says where in the code the
type occurs. Those offsets move with the code; everything else about the
annotation stays as it is.
-/

namespace NullGuard

/-- A stretch of code in which a local variable slot is in use. -/
structure LocalRange where
  start : UInt16
  length : UInt16
  slot : UInt16
  deriving DecidableEq, Repr

/-- Where in a method body a type occurs. -/
inductive CodeTarget
  /-- The type of a local variable or of a resource. -/
  | variable (tag : UInt8) (ranges : List LocalRange)
  /-- The type that an exception handler catches. -/
  | handler (row : UInt16)
  /-- A type that an instruction names. -/
  | instruction (tag : UInt8) (offset : UInt16)
  /-- A type that an instruction names, by its position in a list of types. -/
  | argument (tag : UInt8) (offset : UInt16) (position : UInt8)
  deriving DecidableEq, Repr

/-- An annotation on a type in a method body. -/
structure AnnotatedType where
  target : CodeTarget
  /-- The way from the whole type to the annotated part of it. -/
  path : List UInt8
  tree : AnnotationTree
  deriving Repr

namespace LocalRange

/-- A range of a local variable whose code has moved. Both of its ends move. -/
def readMoved (relocation : Relocation) : Reader LocalRange := do
  let start ← Reader.u16
  let length ← Reader.u16
  let slot ← Reader.u16
  let (start, length) ← relocation.moveRange start length
  return ⟨start, length, slot⟩

/-- The byte form of a range. -/
def written (range : LocalRange) : List UInt8 :=
  Written.u16 range.start ++ Written.u16 range.length ++ Written.u16 range.slot

end LocalRange

namespace CodeTarget

/-- The next target, its offsets moved. -/
def readMoved (relocation : Relocation) : Reader CodeTarget := do
  let tag ← Reader.u8
  if tag = 0x40 ∨ tag = 0x41 then
    return .variable tag (← Reader.table (LocalRange.readMoved relocation))
  else if tag = 0x42 then return .handler (← Reader.u16)
  else if 0x43 ≤ tag ∧ tag ≤ 0x46 then
    return .instruction tag (← relocation.move (← Reader.u16))
  else if 0x47 ≤ tag ∧ tag ≤ 0x4b then
    let offset ← relocation.move (← Reader.u16)
    return .argument tag offset (← Reader.u8)
  else fail (.unexpectedTarget tag)

/-- The byte form of a target, its tag first. -/
def written : CodeTarget → List UInt8
  | .variable tag ranges =>
    tag :: Written.u16 (UInt16.ofNat ranges.length) ++ ranges.flatMap LocalRange.written
  | .handler row => 0x42 :: Written.u16 row
  | .instruction tag offset => tag :: Written.u16 offset
  | .argument tag offset position => tag :: Written.u16 offset ++ [position]

end CodeTarget

namespace AnnotatedType

/-- The next annotation, its offsets moved; its values are nested at most
`depth` levels deep. -/
def readMoved (relocation : Relocation) (depth : Nat) : Reader AnnotatedType := do
  let target ← CodeTarget.readMoved relocation
  let steps ← Reader.u8
  let path ← Reader.bytes (2 * steps.toNat)
  return ⟨target, path, ← AnnotationTree.read depth⟩

/-- The byte form of a type annotation: its target, its path and the annotation itself. -/
def written (entry : AnnotatedType) : List UInt8 :=
  entry.target.written ++ UInt8.ofNat (entry.path.length / 2) :: entry.path ++
    entry.tree.written

/-- The contents of an attribute of type annotations with all offsets moved. -/
def relocate (relocation : Relocation) (contents : List UInt8) : Except Failure (List UInt8) := do
  let entries ← Reader.whole "type annotations"
    (Reader.table (readMoved relocation contents.length)) contents
  return Written.u16 (UInt16.ofNat entries.length) ++ entries.flatMap written

end AnnotatedType

end NullGuard
