import NullGuard.Code.Body
import NullGuard.Proofs.Failing.ClassFile

/-!
# Ordinary failures of code

Code can be decoded, laid out and moved, or there is something wrong with it.
-/

namespace NullGuard

/-! ## Instructions -/

/-- A word of a switch can lie behind the end of the code. -/
instance (place : Nat) (code : List UInt8) : Ordinary (Opcode.wordAt place code) := by
  unfold Opcode.wordAt
  split <;> infer_instance

/-- An instruction can be longer than the code, and a widened opcode unknown. -/
instance (offset : Nat) (code : List UInt8) (shape : OperandShape) :
    Ordinary (Opcode.lengthOf offset code shape) := by
  cases shape with
  | widened =>
    unfold Opcode.lengthOf
    dsimp only
    split <;> infer_instance
  | _ =>
    unfold Opcode.lengthOf
    infer_instance

namespace Instruction

/-- A displacement can break off. -/
instance : Ordinary readDisplacement := by
  unfold readDisplacement
  infer_instance

/-- An operand can break off, whatever its shape is. -/
instance (offset length : Nat) (shape : OperandShape) :
    Ordinary (readOperand offset length shape) := by
  cases shape <;>
  · unfold readOperand
    infer_instance

/-- An opcode can be unknown, and its operand can break off. -/
instance (offset : Nat) (code : List UInt8) : Ordinary (read offset code) := by
  unfold read
  split
  · infer_instance
  · split <;> infer_instance

/-- Looking up the targets of an instruction fails as looking up one of them does. -/
instance {τ σ : Type} (target : τ → Except Failure σ) [∀ label, Ordinary (target label)]
    (instruction : Instruction τ) : Ordinary (instruction.traverse target) := by
  unfold traverse
  split <;> infer_instance

/-- A displacement can be too far for its two bytes. -/
instance (offset : Nat) (instruction : Instruction Int) :
    Ordinary (instruction.written offset) := by
  unfold written
  split <;> infer_instance

end Instruction

/-! ## Streams -/

namespace Stream

/-- Code can end inside an instruction. The induction is on the code. -/
instance (pending offset : Nat) (found : List Found) (code : List UInt8) :
    Ordinary (cutFrom pending offset found code) := by
  induction code generalizing pending offset found with
  | nil =>
    rw [cutFrom]
    infer_instance
  | cons byte rest inductionHypothesis =>
    cases pending with
    | zero =>
      rw [cutFrom]
      infer_instance
    | succ pending =>
      rw [cutFrom]
      infer_instance

/-- An offset can lie between instructions. -/
instance (landmarks : Array (Option Label)) (offset : Nat) :
    Ordinary (labelIn landmarks offset) := by
  unfold labelIn
  split <;> infer_instance

/-- A displacement can lead out of the code or between instructions. -/
instance (landmarks : Array (Option Label)) (offset : Nat) (displacement : Int) :
    Ordinary (targetOf landmarks offset displacement) := by
  unfold targetOf
  infer_instance

/-- Code can be cut in a wrong place, or jump to one. -/
instance (code : List UInt8) : Ordinary (decode code) := by
  unfold decode cut
  infer_instance

/-- An offset can have no label. -/
instance (stream : Stream) (offset : Nat) : Ordinary (stream.labelAt offset) := by
  unfold labelAt
  infer_instance

/-- A label can be unknown to the layout. -/
instance (labels : Array Nat) (offset : Nat) (label : Label) :
    Ordinary (Layout.displacement labels offset label) := by
  unfold Layout.displacement
  split <;> infer_instance

/-- An instruction can be out of reach of its target. -/
instance (labels : Array Nat) (item : Nat × Instruction Label) :
    Ordinary (Layout.emit labels item) := by
  unfold Layout.emit
  infer_instance

/-- A label can be beyond the stream. -/
instance (encoded : Encoded) (label : Label) : Ordinary (encoded.offsetOf label) := by
  unfold Encoded.offsetOf
  split <;> infer_instance

/-- A stream can be too long, or have a jump that is too far. -/
instance (stream : Stream) : Ordinary stream.encode := by
  unfold encode
  infer_instance

end Stream

/-! ## Moved tables -/

section

variable (relocation : Relocation) [∀ offset, Ordinary (relocation offset)]

namespace Relocation

/-- An offset can be too large for a word. -/
instance (offset : Nat) : Ordinary (narrow offset) := by
  unfold narrow
  infer_instance

/-- A word fails as its offset does, or is too large. -/
instance (offset : UInt16) : Ordinary (relocation.move offset) := by
  unfold move
  infer_instance

/-- The ends of a range fail as their offsets do. -/
instance (start length : UInt16) : Ordinary (relocation.moveRange start length) := by
  unfold moveRange
  infer_instance

end Relocation

/-- A row of line numbers fails as its offset does, or breaks off. -/
instance (contents : List UInt8) : Ordinary (LineRow.relocate relocation contents) := by
  unfold LineRow.relocate LineRow.readMoved
  infer_instance

/-- A row of variables fails as its range does, or breaks off. -/
instance (contents : List UInt8) : Ordinary (VariableRow.relocate relocation contents) := by
  unfold VariableRow.relocate VariableRow.readMoved
  infer_instance

/-- A row of handlers fails as one of its offsets does. -/
instance (row : HandlerRow) : Ordinary (row.relocate relocation) := by
  unfold HandlerRow.relocate
  infer_instance

namespace VerificationType

/-- A type can have an unknown tag, or break off. -/
instance : Ordinary read := by
  unfold read
  refine .bind _ fun tag => ?_
  split <;> infer_instance

/-- The place where an object was made can be too large for a word. -/
instance (type : VerificationType) : Ordinary type.written := by
  unfold written
  split <;> infer_instance

/-- A type fails as the place in it does. -/
instance (type : VerificationType) : Ordinary (type.relocate relocation) := by
  unfold relocate
  split <;> infer_instance

/-- Types cannot be written if they are too many or one of them cannot be. -/
instance (types : List VerificationType) : Ordinary (writtenAll types) := by
  unfold writtenAll
  infer_instance

end VerificationType

namespace FrameChange

/-- A frame can have a reserved tag, or break off. -/
instance (tag : UInt8) : Ordinary (readTagged tag) := by
  unfold readTagged
  infer_instance

/-- A frame can have too much in it to be written. -/
instance (distance : Nat) (change : FrameChange) : Ordinary (change.written distance) := by
  unfold written
  split <;> infer_instance

/-- A frame fails as one of the types in it does. -/
instance (change : FrameChange) : Ordinary (change.relocate relocation) := by
  unfold relocate
  split <;> infer_instance

end FrameChange

namespace StackMap

/-- The frames of a table fail as one of them does. The induction is on their number. -/
instance (count : Nat) (found : List Frame) : Ordinary (readFrames count found) := by
  induction count generalizing found with
  | zero =>
    rw [readFrames]
    infer_instance
  | succ count inductionHypothesis =>
    rw [readFrames]
    infer_instance

/-- A table of frames can break off, or have bytes behind it. -/
instance (contents : List UInt8) : Ordinary (parse contents) := by
  unfold parse
  infer_instance

/-- A frame can stand where none can follow the one before. -/
instance (previous : Option Nat) (frame : Frame) : Ordinary (writtenFrame previous frame) := by
  have distance : Ordinary (distanceFrom previous frame.offset) := by
    unfold distanceFrom
    split <;> infer_instance
  unfold writtenFrame
  infer_instance

/-- A table of frames cannot be written if one of the frames cannot be. -/
instance (map : StackMap) : Ordinary map.written := by
  unfold written
  infer_instance

/-- A table of frames fails as one of its offsets does. -/
instance (map : StackMap) : Ordinary (map.relocate relocation) := by
  unfold relocate relocateFrame
  infer_instance

end StackMap

/-- The target of an annotation can be unknown, break off, or fail as its offsets do. -/
instance : Ordinary (CodeTarget.readMoved relocation) := by
  unfold CodeTarget.readMoved LocalRange.readMoved
  infer_instance

/-- An annotation fails as its target does, or as what is nested in it. -/
instance (contents : List UInt8) : Ordinary (AnnotatedType.relocate relocation contents) := by
  unfold AnnotatedType.relocate AnnotatedType.readMoved
  infer_instance

end

/-! ## Bodies -/

namespace Body

/-- A body can break off. -/
instance : Ordinary read := by
  unfold read HandlerRow.read
  infer_instance

/-- Bytes can be too few or too many for a body. -/
instance (contents : List UInt8) : Ordinary (parse contents) := by
  unfold parse
  infer_instance

/-- A body can have too much in it to be written. -/
instance (body : Body) : Ordinary body.written := by
  unfold written
  infer_instance

/-- Instructions can be too many for a body. -/
instance (stream : Stream) (maxStack maxLocals : UInt16) :
    Ordinary (generate stream maxStack maxLocals) := by
  unfold generate
  infer_instance

/-- An offset can have no label to be found again by. -/
instance (stream : Stream) (encoded : Encoded) (offset : Nat) :
    Ordinary (relocationOf stream encoded offset) := by
  unfold relocationOf
  infer_instance

/-- A table of the code fails as one of its offsets does; other attributes do not fail. -/
instance (relocation : Relocation) [∀ offset, Ordinary (relocation offset)] (pool : Pool)
    (entry : Attribute) : Ordinary (relocateAttribute relocation pool entry) := by
  have moved (contents : List UInt8) (table : CodeTable) :
      Ordinary (relocateContents relocation contents table) := by
    unfold relocateContents
    split <;> infer_instance
  unfold relocateAttribute
  split <;> infer_instance

/-- A body can be rearranged, or its stream or one of its tables fails. -/
instance (body : Body) (stream : Stream) (pool : Pool) (extraStack : UInt16) :
    Ordinary (body.rearranged stream pool extraStack) := by
  unfold rearranged
  infer_instance

end Body

end NullGuard
