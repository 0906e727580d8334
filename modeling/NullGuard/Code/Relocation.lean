import NullGuard.Bytes.Reader
import NullGuard.Bytes.Written

/-!
# Moving offsets

When code is laid out anew, every offset into it moves. A relocation says where
an offset goes, or fails for one that has no new place. The tables of a method
body hold offsets in two bytes, and ranges as a start and a length; a range
moves as the interval between its two ends.
-/

namespace NullGuard

/-- Where an offset into the code goes. -/
abbrev Relocation := Nat → Except Failure Nat

namespace Relocation

/-- An offset as it stands in a table. -/
def narrow (offset : Nat) : Except Failure UInt16 :=
  if offset < 65536 then .ok (UInt16.ofNat offset) else fail .offsetTooLarge

/-- The new place of an offset in a table. -/
def move (relocation : Relocation) (offset : UInt16) : Except Failure UInt16 := do
  narrow (← relocation offset.toNat)

/-- The new place of a range in a table: both of its ends move. -/
def moveRange (relocation : Relocation) (start length : UInt16) :
    Except Failure (UInt16 × UInt16) := do
  let newStart ← relocation start.toNat
  let newEnd ← relocation (start.toNat + length.toNat)
  let start ← narrow newStart
  if newEnd < newStart then fail .offsetTooLarge
  return (start, ← narrow (newEnd - newStart))

end Relocation

/-- A row of a line number table. -/
structure LineRow where
  start : UInt16
  line : UInt16
  deriving DecidableEq, Repr

namespace LineRow

/-- The next row, its offset moved. -/
def readMoved (relocation : Relocation) : Reader LineRow := do
  let start ← Reader.u16
  let line ← Reader.u16
  return ⟨← relocation.move start, line⟩

/-- The byte form of a row of line numbers. -/
def written (row : LineRow) : List UInt8 := Written.u16 row.start ++ Written.u16 row.line

/-- A line number table with its offsets moved. -/
def relocate (relocation : Relocation) (contents : List UInt8) : Except Failure (List UInt8) := do
  let rows ← Reader.whole "line number table" (Reader.table (readMoved relocation)) contents
  return Written.u16 (UInt16.ofNat rows.length) ++ rows.flatMap written

end LineRow

/-- A row of a table of local variables or of their generic types. Name,
type and slot do not depend on the code. -/
structure VariableRow where
  start : UInt16
  length : UInt16
  details : List UInt8
  deriving DecidableEq, Repr

namespace VariableRow

/-- The next row, its range moved. -/
def readMoved (relocation : Relocation) : Reader VariableRow := do
  let start ← Reader.u16
  let length ← Reader.u16
  let (start, length) ← relocation.moveRange start length
  return ⟨start, length, ← Reader.bytes 6⟩

/-- The byte form of a row of variables. -/
def written (row : VariableRow) : List UInt8 :=
  Written.u16 row.start ++ Written.u16 row.length ++ row.details

/-- A table of local variables with its ranges moved. -/
def relocate (relocation : Relocation) (contents : List UInt8) : Except Failure (List UInt8) := do
  let rows ← Reader.whole "local variable table" (Reader.table (readMoved relocation)) contents
  return Written.u16 (UInt16.ofNat rows.length) ++ rows.flatMap written

end VariableRow

end NullGuard
