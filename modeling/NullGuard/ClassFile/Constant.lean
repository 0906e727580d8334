import NullGuard.Bytes.Reader
import NullGuard.Bytes.Written

/-!
# Constants

The entries of a constant pool and their two forms. A constant is written as a
tag byte and its contents. The text of a `utf8` constant stays in the bytes it
was read from, so a pool that nobody changes is written back unchanged even if
its texts are not canonical. Long and double constants take two slots of a pool.
-/

namespace NullGuard

/-- An entry of a constant pool. Indices denote slots of the same pool. -/
inductive Constant
  | utf8 (bytes : List UInt8)
  | integer (value : Int32)
  | float (bits : UInt32)
  | long (value : Int64)
  | double (bits : UInt64)
  | classEntry (name : UInt16)
  | stringEntry (text : UInt16)
  | fieldRef (owner nameAndType : UInt16)
  | methodRef (owner nameAndType : UInt16)
  | interfaceMethodRef (owner nameAndType : UInt16)
  | nameAndType (name descriptor : UInt16)
  | methodHandle (kind : UInt8) (reference : UInt16)
  | methodType (descriptor : UInt16)
  | dynamic (bootstrap nameAndType : UInt16)
  | invokeDynamic (bootstrap nameAndType : UInt16)
  | moduleEntry (name : UInt16)
  | packageEntry (name : UInt16)
  deriving DecidableEq, Repr

namespace Constant

/-- Whether the constant takes two slots. -/
def isWide : Constant → Bool
  | .long _ | .double _ => true
  | _ => false

/-- The contents that follow a tag. -/
def readContents (tag : UInt8) : Reader Constant :=
  match tag with
  | 1 => do
    let length ← Reader.u16
    return .utf8 (← Reader.bytes length.toNat)
  | 3 => .integer <$> Reader.i32
  | 4 => .float <$> Reader.u32
  | 5 => .long <$> Reader.i64
  | 6 => .double <$> Reader.u64
  | 7 => .classEntry <$> Reader.u16
  | 8 => .stringEntry <$> Reader.u16
  | 9 => do return .fieldRef (← Reader.u16) (← Reader.u16)
  | 10 => do return .methodRef (← Reader.u16) (← Reader.u16)
  | 11 => do return .interfaceMethodRef (← Reader.u16) (← Reader.u16)
  | 12 => do return .nameAndType (← Reader.u16) (← Reader.u16)
  | 15 => do return .methodHandle (← Reader.u8) (← Reader.u16)
  | 16 => .methodType <$> Reader.u16
  | 17 => do return .dynamic (← Reader.u16) (← Reader.u16)
  | 18 => do return .invokeDynamic (← Reader.u16) (← Reader.u16)
  | 19 => .moduleEntry <$> Reader.u16
  | 20 => .packageEntry <$> Reader.u16
  | _ => fail (.unknownConstantTag tag)

/-- The next constant. -/
def read : Reader Constant := do
  let tag ← Reader.u8
  readContents tag

/-- The written form: a tag and the contents. The bytes of a text are preceded
by their number, which has to be below 65536. -/
def written : Constant → List UInt8
  | .utf8 bytes => 1 :: Written.u16 (UInt16.ofNat bytes.length) ++ bytes
  | .integer value => 3 :: Written.i32 value
  | .float bits => 4 :: Written.u32 bits
  | .long value => 5 :: Written.i64 value
  | .double bits => 6 :: Written.u64 bits
  | .classEntry name => 7 :: Written.u16 name
  | .stringEntry text => 8 :: Written.u16 text
  | .fieldRef owner member => 9 :: Written.u16 owner ++ Written.u16 member
  | .methodRef owner member => 10 :: Written.u16 owner ++ Written.u16 member
  | .interfaceMethodRef owner member =>
    11 :: Written.u16 owner ++ Written.u16 member
  | .nameAndType name descriptor => 12 :: Written.u16 name ++ Written.u16 descriptor
  | .methodHandle kind reference => 15 :: kind :: Written.u16 reference
  | .methodType descriptor => 16 :: Written.u16 descriptor
  | .dynamic bootstrap member =>
    17 :: Written.u16 bootstrap ++ Written.u16 member
  | .invokeDynamic bootstrap member =>
    18 :: Written.u16 bootstrap ++ Written.u16 member
  | .moduleEntry name => 19 :: Written.u16 name
  | .packageEntry name => 20 :: Written.u16 name

/-- Different constants have different written forms: the tags differ, or the
contents do. -/
theorem written_inj {a b : Constant} : a.written = b.written ↔ a = b := by
  refine ⟨fun same => ?_, congrArg written⟩
  cases a <;> cases b <;>
    simp_all [written, Written.u16_inj, Written.u16_append_inj, Written.u32_inj, Written.u64_inj,
      Written.i32_inj, Written.i64_inj]

end Constant

end NullGuard
