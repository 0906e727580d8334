import NullGuard.Failure

/-!
# Opcodes

The opcodes that the weaver names, and for every supported opcode the shape of
its operands. Two shapes depend on where the instruction stands, because the
tables of the two switches begin at a multiple of four.
-/

namespace NullGuard

namespace Opcode

/-- Push the number zero. -/
def iconst0 : UInt8 := 0x03

/-- Push a signed number of one byte. -/
def bipush : UInt8 := 0x10

/-- Push a signed number of two bytes. -/
def sipush : UInt8 := 0x11

/-- Push the constant at an index of one byte. -/
def ldc : UInt8 := 0x12

/-- Push the constant at an index of two bytes. -/
def ldcWide : UInt8 := 0x13

/-- Push the reference in a local variable of one byte. -/
def aload : UInt8 := 0x19

/-- Push the number in local variable 1. -/
def iload1 : UInt8 := 0x1b

/-- Push the reference in local variable 0. -/
def aload0 : UInt8 := 0x2a

/-- Push the reference in local variable 1. -/
def aload1 : UInt8 := 0x2b

/-- Push the topmost value once more. -/
def dup : UInt8 := 0x59

/-- Add a constant to a local variable. -/
def iinc : UInt8 := 0x84

/-- Return a number. -/
def ireturn : UInt8 := 0xac

/-- Return a reference. -/
def areturn : UInt8 := 0xb0

/-- Return nothing. -/
def vreturn : UInt8 := 0xb1

/-- Push what a static field holds. -/
def getstatic : UInt8 := 0xb2

/-- Store into a static field. -/
def putstatic : UInt8 := 0xb3

/-- Push what a field of an object holds. -/
def getfield : UInt8 := 0xb4

/-- Store into a field of an object. -/
def putfield : UInt8 := 0xb5

/-- Call the method of an object that its class chooses. -/
def invokevirtual : UInt8 := 0xb6

/-- Call a constructor, a private method or the method of a superclass. -/
def invokespecial : UInt8 := 0xb7

/-- Call a static method. -/
def invokestatic : UInt8 := 0xb8

/-- Make an object, which no constructor has seen yet. -/
def new : UInt8 := 0xbb

/-- Throw the object on top of the stack. -/
def athrow : UInt8 := 0xbf

/-- Give the opcode behind it longer operands. -/
def wide : UInt8 := 0xc4

/-- Jump if the topmost reference is not null. -/
def ifnonnull : UInt8 := 0xc7

end Opcode

/-- What follows an opcode. -/
inductive OperandShape
  /-- So many bytes that do not depend on the place of the instruction. -/
  | fixed (size : Nat)
  /-- A displacement of two bytes. -/
  | shortBranch
  /-- A displacement of four bytes. -/
  | wideBranch
  /-- Padding, a default, two bounds and a displacement for each key between them. -/
  | tableSwitch
  /-- Padding, a default, and pairs of a key and a displacement. -/
  | lookupSwitch
  /-- An opcode that takes longer operands here, and these operands. -/
  | widened
  deriving DecidableEq, Repr

namespace Opcode

/-- The shapes by ranges of opcodes, both ends included. -/
def shapes : List (UInt8 × UInt8 × OperandShape) :=
  [(0x00, 0x0f, .fixed 0), (0x10, 0x10, .fixed 1), (0x11, 0x11, .fixed 2),
    (0x12, 0x12, .fixed 1), (0x13, 0x14, .fixed 2), (0x15, 0x19, .fixed 1),
    (0x1a, 0x35, .fixed 0), (0x36, 0x3a, .fixed 1), (0x3b, 0x83, .fixed 0),
    (0x84, 0x84, .fixed 2), (0x85, 0x98, .fixed 0), (0x99, 0xa8, .shortBranch),
    (0xa9, 0xa9, .fixed 1), (0xaa, 0xaa, .tableSwitch), (0xab, 0xab, .lookupSwitch),
    (0xac, 0xb1, .fixed 0), (0xb2, 0xb8, .fixed 2), (0xb9, 0xba, .fixed 4),
    (0xbb, 0xbb, .fixed 2), (0xbc, 0xbc, .fixed 1), (0xbd, 0xbd, .fixed 2),
    (0xbe, 0xbf, .fixed 0), (0xc0, 0xc1, .fixed 2), (0xc2, 0xc3, .fixed 0),
    (0xc4, 0xc4, .widened), (0xc5, 0xc5, .fixed 3), (0xc6, 0xc7, .shortBranch),
    (0xc8, 0xc9, .wideBranch), (0xca, 0xca, .fixed 0), (0xfe, 0xff, .fixed 0)]

/-- The shape of an opcode's operands, if the opcode is supported. -/
def shape? (opcode : UInt8) : Option OperandShape :=
  (shapes.find? fun (first, last, _) => first ≤ opcode && opcode ≤ last).map fun entry =>
    entry.2.2

/-- Whether the operand is a displacement of two bytes. -/
def isShortBranch (opcode : UInt8) : Bool := shape? opcode == some .shortBranch

/-- Whether the operand is a displacement of four bytes. -/
def isWideBranch (opcode : UInt8) : Bool := shape? opcode == some .wideBranch

/-- All opcodes in ascending order. -/
def all : List UInt8 := (List.range 256).map UInt8.ofNat

end Opcode

/-- The bytes between an opcode at an offset and the next multiple of four. -/
def padding (offset : Nat) : Nat := 3 - offset % 4

namespace Opcode

/-- The number in two's complement at a place in the code. -/
def wordAt (place : Nat) (code : List UInt8) : Except Failure Int :=
  match code.drop place with
  | a :: b :: c :: d :: _ =>
    .ok (UInt32.ofNat (((a.toNat * 256 + b.toNat) * 256 + c.toNat) * 256 + d.toNat)).toInt32.toInt
  | _ => fail .codeTruncated

/-- The length of an instruction whose opcode has the given shape and stands at
`offset`; `code` begins with that opcode. The bounds of a table switch have to
span a number of keys that a signed word can hold. -/
def lengthOf (offset : Nat) (code : List UInt8) : OperandShape → Except Failure Nat
  | .fixed size => .ok (1 + size)
  | .shortBranch => .ok 3
  | .wideBranch => .ok 5
  | .tableSwitch => do
    let base := 1 + padding offset
    let low ← wordAt (base + 4) code
    let high ← wordAt (base + 8) code
    let keys := high - low + 1
    if keys < 0 ∨ 2147483647 < keys then fail .invalidSwitchRange
    return base + 12 + 4 * keys.toNat
  | .lookupSwitch => do
    let base := 1 + padding offset
    let pairs ← wordAt (base + 4) code
    if pairs < 0 then fail .invalidSwitchPairs
    return base + 8 + 8 * pairs.toNat
  | .widened =>
    match code with
    | _ :: widened :: _ => .ok (if widened = iinc then 6 else 4)
    | _ => fail .missingWideOpcode

/-- The length of the instruction that begins `code` and stands at `offset`. -/
def lengthAt (offset : Nat) (code : List UInt8) : Except Failure Nat :=
  match code with
  | [] => fail .codeTruncated
  | opcode :: _ =>
    match shape? opcode with
    | none => fail (.unsupportedOpcode opcode)
    | some shape => lengthOf offset code shape

end Opcode

end NullGuard
