import NullGuard.Failure

/-!
# Writing bytes

Big-endian forms of the words of a class file, and the lengths of its tables,
which have to fit into two bytes.
-/

namespace NullGuard

namespace Written

/-- One byte. -/
def u8 (value : UInt8) : List UInt8 := [value]

/-- Two bytes, the high one first. -/
def u16 (value : UInt16) : List UInt8 :=
  [UInt8.ofNat (value.toNat / 256), UInt8.ofNat value.toNat]

/-- Four bytes, the highest first. -/
def u32 (value : UInt32) : List UInt8 :=
  [UInt8.ofNat (value.toNat / 0x1000000), UInt8.ofNat (value.toNat / 0x10000),
    UInt8.ofNat (value.toNat / 0x100), UInt8.ofNat value.toNat]

/-- Four bytes in two's complement. -/
def i32 (value : Int32) : List UInt8 := u32 value.toUInt32

/-- Eight bytes, the highest first. -/
def u64 (value : UInt64) : List UInt8 :=
  u32 (UInt32.ofNat (value.toNat / 0x100000000)) ++ u32 (UInt32.ofNat value.toNat)

/-- Eight bytes in two's complement. -/
def i64 (value : Int64) : List UInt8 := u64 value.toUInt64

/-! ## Reading back

Each form determines the word that was written. -/

/-- Numbers give one byte if they agree modulo 256. -/
theorem byte_inj {a b : Nat} : UInt8.ofNat a = UInt8.ofNat b ↔ a % 256 = b % 256 := by
  rw [← UInt8.toNat_inj]
  simp

/-- A word of two bytes tells its number. -/
theorem u16_inj {a b : UInt16} : u16 a = u16 b ↔ a = b := by
  refine ⟨fun same => ?_, congrArg u16⟩
  simp only [u16, List.cons.injEq, byte_inj, and_true] at same
  have boundA := a.toNat_lt
  have boundB := b.toNat_lt
  exact UInt16.toNat_inj.1 (by omega)

/-- A word of four bytes tells its number. -/
theorem u32_inj {a b : UInt32} : u32 a = u32 b ↔ a = b := by
  refine ⟨fun same => ?_, congrArg u32⟩
  simp only [u32, List.cons.injEq, byte_inj, and_true] at same
  have boundA := a.toNat_lt
  have boundB := b.toNat_lt
  exact UInt32.toNat_inj.1 (by omega)

/-- A word of eight bytes tells its number. -/
theorem u64_inj {a b : UInt64} : u64 a = u64 b ↔ a = b := by
  refine ⟨fun same => ?_, congrArg u64⟩
  obtain ⟨high, low⟩ := List.append_inj same rfl
  have boundA := a.toNat_lt
  have boundB := b.toNat_lt
  rw [u32_inj, ← UInt32.toNat_inj] at high low
  simp only [UInt32.toNat_ofNat'] at high low
  exact UInt64.toNat_inj.1 (by omega)

/-- Four bytes tell the signed number that they stand for. -/
theorem i32_inj {a b : Int32} : i32 a = i32 b ↔ a = b := by
  rw [i32, i32, u32_inj]
  exact ⟨fun same => congrArg UInt32.toInt32 same, congrArg Int32.toUInt32⟩

/-- Eight bytes tell the signed number that they stand for. -/
theorem i64_inj {a b : Int64} : i64 a = i64 b ↔ a = b := by
  rw [i64, i64, u64_inj]
  exact ⟨fun same => congrArg UInt64.toInt64 same, congrArg Int64.toUInt64⟩

/-- A word in front of other bytes tells its number and where the other bytes begin. -/
theorem u16_append_inj {a b : UInt16} {x y : List UInt8} :
    u16 a ++ x = u16 b ++ y ↔ a = b ∧ x = y := by
  refine ⟨fun same => ?_, fun ⟨word, rest⟩ => by rw [word, rest]⟩
  obtain ⟨word, rest⟩ := List.append_inj same rfl
  exact ⟨u16_inj.1 word, rest⟩

/-! ## Tables -/

/-- The length of a table as a two-byte word. -/
def tableLength (what : String) (count : Nat) : Except Failure UInt16 :=
  if count < 65536 then .ok (UInt16.ofNat count) else fail (.tableTooLong what count)

/-- A table: its length, then its rows in order. -/
def table {α : Type} (what : String) (row : α → Except Failure (List UInt8)) (rows : List α) :
    Except Failure (List UInt8) := do
  let length ← tableLength what rows.length
  let written ← rows.mapM row
  return u16 length ++ written.flatten

end Written

end NullGuard
