import NullGuard.Bytes.Reader
import NullGuard.Bytes.Written
import NullGuard.Code.Relocation

/-!
# Stack maps

A stack map describes locals and operand stack at some offsets of the code. In
bytes a frame gives its distance from the frame before it; here it carries its
offset, so frames can be moved one by one. Writing uses the short form of a
frame wherever its distance allows it, whatever form was read.
-/

namespace NullGuard

/-- What a local variable or an item of the operand stack is known to be. -/
inductive VerificationType
  | top
  | integer
  | float
  | double
  | long
  | null
  | uninitializedThis
  | object (index : UInt16)
  /-- The value that the `new` instruction at an offset has created. -/
  | uninitialized (offset : Nat)
  deriving DecidableEq, Repr

namespace VerificationType

/-- The next type in a frame, its tag first. -/
def read : Reader VerificationType := do
  let tag ← Reader.u8
  match tag with
  | 0 => return .top
  | 1 => return .integer
  | 2 => return .float
  | 3 => return .double
  | 4 => return .long
  | 5 => return .null
  | 6 => return .uninitializedThis
  | 7 => return .object (← Reader.u16)
  | 8 => return .uninitialized (← Reader.u16).toNat
  | _ => fail (.unknownVerificationTag tag)

/-- The byte form of a type. The place where an object was made has to fit into a word. -/
def written : VerificationType → Except Failure (List UInt8)
  | .top => .ok [0]
  | .integer => .ok [1]
  | .float => .ok [2]
  | .double => .ok [3]
  | .long => .ok [4]
  | .null => .ok [5]
  | .uninitializedThis => .ok [6]
  | .object index => .ok (7 :: Written.u16 index)
  | .uninitialized offset =>
    if offset < 65536 then .ok (8 :: Written.u16 (UInt16.ofNat offset))
    else fail .creationOffsetTooLarge

/-- Move the offset of a `new` instruction. -/
def relocate (relocation : Relocation) : VerificationType → Except Failure VerificationType
  | .uninitialized offset => do return .uninitialized (← relocation offset)
  | other => .ok other

/-- Several types without a count. -/
def writtenAll (types : List VerificationType) : Except Failure (List UInt8) := do
  return (← types.mapM written).flatten

end VerificationType

/-- How a frame differs from the frame before it. -/
inductive FrameChange
  | same
  | oneItem (item : VerificationType)
  /-- The last one to three locals are gone. -/
  | chop (count : UInt8)
  /-- One to three locals have been added. -/
  | append (locals : List VerificationType)
  | full (locals stack : List VerificationType)
  deriving DecidableEq, Repr

/-- A frame at an offset of the code. -/
structure Frame where
  offset : Nat
  change : FrameChange
  deriving DecidableEq, Repr

namespace FrameChange

/-- The distance and the change that a frame of the given type consists of. -/
def readTagged (tag : UInt8) : Reader (Nat × FrameChange) := do
  if tag ≤ 63 then return (tag.toNat, .same)
  else if tag ≤ 127 then return (tag.toNat - 64, .oneItem (← VerificationType.read))
  else if tag ≤ 246 then fail (.reservedFrameType tag)
  else
    let distance := (← Reader.u16).toNat
    if tag = 247 then return (distance, .oneItem (← VerificationType.read))
    else if tag ≤ 250 then return (distance, .chop (251 - tag))
    else if tag = 251 then return (distance, .same)
    else if tag ≤ 254 then
      return (distance, .append (← Reader.times (tag.toNat - 251) VerificationType.read))
    else
      let locals ← Reader.table VerificationType.read
      let stack ← Reader.table VerificationType.read
      return (distance, .full locals stack)

/-- The written form of a change at a distance below 65536. -/
def written (distance : Nat) : FrameChange → Except Failure (List UInt8)
  | .same =>
    if distance ≤ 63 then .ok [UInt8.ofNat distance]
    else .ok (251 :: Written.u16 (UInt16.ofNat distance))
  | .oneItem item => do
    let item ← item.written
    if distance ≤ 63 then return UInt8.ofNat (64 + distance) :: item
    else return 247 :: Written.u16 (UInt16.ofNat distance) ++ item
  | .chop count => .ok ((251 - count) :: Written.u16 (UInt16.ofNat distance))
  | .append locals => do
    return UInt8.ofNat (251 + locals.length) :: Written.u16 (UInt16.ofNat distance) ++
      (← VerificationType.writtenAll locals)
  | .full locals stack => do
    return 255 :: Written.u16 (UInt16.ofNat distance) ++
      (← Written.table "frame locals" VerificationType.written locals) ++
      (← Written.table "frame stack items" VerificationType.written stack)

/-- Move the offsets in a change, locals before stack. -/
def relocate (relocation : Relocation) : FrameChange → Except Failure FrameChange
  | .same => .ok .same
  | .chop count => .ok (.chop count)
  | .oneItem item => do return .oneItem (← item.relocate relocation)
  | .append locals => do return .append (← locals.mapM (·.relocate relocation))
  | .full locals stack => do
    let locals ← locals.mapM (·.relocate relocation)
    return .full locals (← stack.mapM (·.relocate relocation))

end FrameChange

/-- The frames of a method body in order. -/
structure StackMap where
  frames : List Frame
  deriving DecidableEq, Repr

namespace StackMap

/-- The offset of a frame at a distance from the frame before it. The first
frame stands at its distance, every other one at least one byte further. -/
def offsetAfter (previous : Option Nat) (distance : Nat) : Nat :=
  match previous with
  | none => distance
  | some offset => offset + distance + 1

/-- The distance of a frame from the frame before it. -/
def distanceFrom (previous : Option Nat) (offset : Nat) : Except Failure Nat :=
  match previous with
  | none => .ok offset
  | some before =>
    if offset < before + 1 then fail .framesOutOfOrder else .ok (offset - (before + 1))

/-- Read a number of frames; `found` holds those before them, last one first. -/
def readFrames : Nat → List Frame → Reader (List Frame)
  | 0, found => pure found.reverse
  | count + 1, found => do
    let tag ← Reader.u8
    let (distance, change) ← FrameChange.readTagged tag
    readFrames count (⟨offsetAfter (found.head?.map Frame.offset) distance, change⟩ :: found)

/-- The stack map that the contents of an attribute hold. -/
def parse (contents : List UInt8) : Except Failure StackMap :=
  Reader.whole "stack map table" (do
    let count ← Reader.u16
    return ⟨← readFrames count.toNat []⟩) contents

/-- The written form of a frame behind another one. -/
def writtenFrame (previous : Option Nat) (frame : Frame) : Except Failure (List UInt8) := do
  let distance ← distanceFrom previous frame.offset
  if 65536 ≤ distance then fail .frameOffsetTooLarge
  frame.change.written distance

/-- The offset of the frame before each frame. -/
def previousOffsets (frames : List Frame) : List (Option Nat) :=
  none :: frames.map fun frame => some frame.offset

/-- The contents of an attribute that holds the stack map. -/
def written (map : StackMap) : Except Failure (List UInt8) := do
  let length ← Written.tableLength "stack map frames" map.frames.length
  let frames ← ((previousOffsets map.frames).zip map.frames).mapM fun (previous, frame) =>
    writtenFrame previous frame
  return Written.u16 length ++ frames.flatten

/-- Move a frame, its own offset before those in its types. -/
def relocateFrame (relocation : Relocation) (frame : Frame) : Except Failure Frame := do
  let offset ← relocation frame.offset
  return ⟨offset, ← frame.change.relocate relocation⟩

/-- Move all frames in order. -/
def relocate (relocation : Relocation) (map : StackMap) : Except Failure StackMap := do
  return ⟨← map.frames.mapM (relocateFrame relocation)⟩

end StackMap

end NullGuard
