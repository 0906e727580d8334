import NullGuard.Bytes.Reader
import NullGuard.Bytes.Written
import NullGuard.Code.Opcode

/-!
# Instructions

An instruction is an opcode and an operand. The operand is polymorphic in what a
branch names: a displacement as in the bytes, or a label that says which
instruction is meant. `traverse` goes from the one to the other, visiting the
default of a switch before its cases.

`read` and `written` are the two directions of the byte form with displacements.
Padding is skipped when reading and written as zeros.
-/

namespace NullGuard

/-- What an instruction works on, with targets of type `τ`. -/
inductive Operand (τ : Type)
  /-- Bytes that do not depend on the place of the instruction. -/
  | fixed (bytes : List UInt8)
  | branch (target : τ)
  | wideBranch (target : τ)
  | tableSwitch (default : τ) (low high : Int32) (targets : List τ)
  | lookupSwitch (default : τ) (pairs : List (Int32 × τ))
  deriving DecidableEq, Repr

/-- An opcode and its operand. -/
structure Instruction (τ : Type) where
  opcode : UInt8
  operand : Operand τ
  deriving DecidableEq, Repr

/-- The position of an instruction in the code as it was decoded; the position
behind the last one denotes the end of the code. -/
abbrev Label := Nat

namespace Instruction

/-! ## Common instructions -/

/-- An instruction without operand. -/
def plain {τ : Type} (opcode : UInt8) : Instruction τ := ⟨opcode, .fixed []⟩

/-- An instruction with a one-byte operand. -/
def withByte {τ : Type} (opcode value : UInt8) : Instruction τ := ⟨opcode, .fixed [value]⟩

/-- An instruction with a two-byte operand. -/
def withWord {τ : Type} (opcode : UInt8) (value : UInt16) : Instruction τ :=
  ⟨opcode, .fixed (Written.u16 value)⟩

/-- A conditional or unconditional jump. -/
def jump {τ : Type} (opcode : UInt8) (target : τ) : Instruction τ := ⟨opcode, .branch target⟩

/-- Load a reference from a local variable, in the shortest form there is. -/
def loadLocal {τ : Type} (slot : UInt16) : Instruction τ :=
  if slot ≤ 3 then plain (Opcode.aload0 + slot.toUInt8)
  else if slot ≤ 255 then withByte Opcode.aload slot.toUInt8
  else ⟨Opcode.wide, .fixed (Opcode.aload :: Written.u16 slot)⟩

/-- Push a number, in the shortest form there is. -/
def pushNumber {τ : Type} (value : UInt16) : Instruction τ :=
  if value ≤ 5 then plain (Opcode.iconst0 + value.toUInt8)
  else if value ≤ 127 then withByte Opcode.bipush value.toUInt8
  else withWord Opcode.sipush value

/-- Load a constant that takes one slot, in the shortest form there is. -/
def loadConstant {τ : Type} (index : UInt16) : Instruction τ :=
  if index ≤ 255 then withByte Opcode.ldc index.toUInt8 else withWord Opcode.ldcWide index

/-- The index that a field or call instruction carries. -/
def poolIndex? {τ : Type} (instruction : Instruction τ) : Option UInt16 :=
  match instruction.operand with
  | .fixed (high :: low :: _) => some (UInt16.ofNat (high.toNat * 256 + low.toNat))
  | _ => none

/-! ## Targets -/

/-- Replace the targets, the default of a switch before its cases. -/
def traverse {τ σ : Type} (target : τ → Except Failure σ) (instruction : Instruction τ) :
    Except Failure (Instruction σ) :=
  match instruction.operand with
  | .fixed bytes => .ok ⟨instruction.opcode, .fixed bytes⟩
  | .branch label => do return ⟨instruction.opcode, .branch (← target label)⟩
  | .wideBranch label => do return ⟨instruction.opcode, .wideBranch (← target label)⟩
  | .tableSwitch default low high targets => do
    let default ← target default
    let targets ← targets.mapM target
    return ⟨instruction.opcode, .tableSwitch default low high targets⟩
  | .lookupSwitch default pairs => do
    let default ← target default
    let pairs ← pairs.mapM fun (key, label) => do return (key, ← target label)
    return ⟨instruction.opcode, .lookupSwitch default pairs⟩

/-! ## Byte form -/

/-- The length of the byte form at an offset. -/
def size {τ : Type} (offset : Nat) (instruction : Instruction τ) : Nat :=
  match instruction.operand with
  | .fixed bytes => 1 + bytes.length
  | .branch _ => 3
  | .wideBranch _ => 5
  | .tableSwitch _ _ _ targets => 1 + padding offset + 12 + 4 * targets.length
  | .lookupSwitch _ pairs => 1 + padding offset + 8 + 8 * pairs.length

/-- A displacement of four bytes. -/
def readDisplacement : Reader Int := do return (← Reader.i32).toInt

/-- The operand of a given shape behind an opcode at `offset`, with
displacements; `length` is the length of the whole instruction. -/
def readOperand (offset length : Nat) : OperandShape → Reader (Operand Int)
  | .shortBranch => do return .branch (← Reader.u16).toInt16.toInt
  | .wideBranch => do return .wideBranch (← readDisplacement)
  | .tableSwitch => do
    Reader.skip (padding offset)
    let default ← readDisplacement
    let low ← Reader.i32
    let high ← Reader.i32
    let targets ← Reader.times (high.toInt - low.toInt + 1).toNat readDisplacement
    return .tableSwitch default low high targets
  | .lookupSwitch => do
    Reader.skip (padding offset)
    let default ← readDisplacement
    let count ← Reader.i32
    let pairs ← Reader.times count.toInt.toNat (do return (← Reader.i32, ← readDisplacement))
    return .lookupSwitch default pairs
  | .fixed _ | .widened => do return .fixed (← Reader.bytes (length - 1))

/-- The instruction that begins `code` and stands at `offset`, with its length.
It has to be complete. -/
def read (offset : Nat) (code : List UInt8) : Except Failure (Instruction Int × Nat) :=
  match code with
  | [] => fail .codeTruncated
  | opcode :: operands => do
    let some shape := Opcode.shape? opcode | fail (.unsupportedOpcode opcode)
    let length ← Opcode.lengthOf offset code shape
    if (code.take length).length ≠ length then fail (.instructionOverrun offset)
    let operand ← (readOperand offset length shape).run' operands
    return (⟨opcode, operand⟩, length)

/-- A displacement of four bytes. -/
def writtenDisplacement (displacement : Int) : List UInt8 :=
  Written.i32 (Int32.ofInt displacement)

/-- The byte form at an offset. A short branch has to stay in reach. -/
def written (offset : Nat) (instruction : Instruction Int) : Except Failure (List UInt8) :=
  match instruction.operand with
  | .fixed bytes => .ok (instruction.opcode :: bytes)
  | .branch displacement =>
    if -32768 ≤ displacement ∧ displacement ≤ 32767 then
      .ok (instruction.opcode :: Written.u16 (Int16.ofInt displacement).toUInt16)
    else fail (.branchTooFar displacement offset)
  | .wideBranch displacement =>
    .ok (instruction.opcode :: writtenDisplacement displacement)
  | .tableSwitch default low high targets =>
    .ok (instruction.opcode :: List.replicate (padding offset) 0 ++
      writtenDisplacement default ++ Written.i32 low ++ Written.i32 high ++
      targets.flatMap writtenDisplacement)
  | .lookupSwitch default pairs =>
    .ok (instruction.opcode :: List.replicate (padding offset) 0 ++
      writtenDisplacement default ++ Written.i32 (Int32.ofNat pairs.length) ++
      pairs.flatMap fun (key, displacement) =>
        Written.i32 key ++ writtenDisplacement displacement)

end Instruction

end NullGuard
