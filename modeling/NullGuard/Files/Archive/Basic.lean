import NullGuard.Bytes.Reader
import NullGuard.Files.Archive.Library

/-!
# Records of archives

What the records of an archive are made of: a mark, by which a record is
recognised, words, which are little-endian here, and the checksum of some bytes.

An archive is not read from front to back. So it is kept as an array, and each
record is read from a place in it. A record that breaks off is told from one
that is not there: it has to be there as a whole before its mark is looked at.
-/

namespace NullGuard

namespace ArchiveRecord

/-- What opens a record. -/
def mark : ArchiveRecord → Nat
  | .entry => 0x04034b50
  | .line => 0x02014b50
  | .ending => 0x06054b50
  | .locator => 0x07064b50
  | .longEnding => 0x06064b50

/-- How many bytes a record takes, apart from what has a size that it names. -/
def size : ArchiveRecord → Nat
  | .entry => 30
  | .line => 46
  | .ending => 22
  | .locator => 20
  | .longEnding => 56

/-- Why bytes that do not begin with its mark are no such record. -/
def missing : ArchiveRecord → ArchiveFault
  | .entry => .badEntry
  | .line => .badLine
  | .ending => .noEnding
  | .locator | .longEnding => .noLongEnding

end ArchiveRecord

namespace Archive

/-! ## Words -/

/-- A number in so many bytes, the lowest first. -/
def word : (size value : Nat) → List UInt8
  | 0, _ => []
  | size + 1, value => UInt8.ofNat value :: word size (value / 256)

/-- The number that some bytes stand for, the lowest first. -/
def ofWord : List UInt8 → Nat
  | [] => 0
  | byte :: rest => byte.toNat + 256 * ofWord rest

/-- The next bytes of a record. -/
def readBytes (count : Nat) : Reader (List UInt8) :=
  tryCatch (Reader.bytes count) fun _ => fail (.archive .cutOff)

/-- The next number of so many bytes. -/
def readWord (size : Nat) : Reader Nat := do return ofWord (← readBytes size)

/-- Pass over the next bytes of a record. -/
def skipBytes (count : Nat) : Reader Unit := do
  let _ ← readBytes count

/-- The largest word of two bytes. Where a record has room for a short number only, its
largest word says that a longer number stands elsewhere. -/
def highest16 : Nat := 0xFFFF

/-- The largest word of four bytes. -/
def highest32 : Nat := 0xFFFFFFFF

/-- The largest word of eight bytes. -/
def highest64 : Nat := 0xFFFFFFFFFFFFFFFF

/-! ## Records -/

/-- So many bytes of an archive from a place on, or as many as there are. -/
def bytesAt (archive : Array UInt8) (place count : Nat) : List UInt8 :=
  (archive.extract place (place + count)).toList

/-- Fail unless a whole record comes next. -/
def expectWhole (record : ArchiveRecord) : Reader Unit := fun input =>
  if (input.take record.size).length = record.size then .ok ((), input)
  else fail (.archive (.recordCutOff record))

/-- Read the mark of a record that comes next, or fail. -/
def expectRecord (record : ArchiveRecord) : Reader Unit := do
  expectWhole record
  if (← readWord 4) ≠ record.mark then fail (.archive record.missing)

/-- The places at which a mark begins, last one first, in front of those that
have been found. The bytes begin at `place`. -/
def placesFrom (mark : List UInt8) (place : Nat) (found : List Nat) : List UInt8 → List Nat
  | [] => found
  | byte :: rest =>
    placesFrom mark (place + 1)
      (if mark.isPrefixOf (byte :: rest) then place :: found else found) rest

/-- The places in some bytes at which a record may begin, last one first. -/
def places (record : ArchiveRecord) (bytes : List UInt8) : List Nat :=
  placesFrom (word 4 record.mark) 0 [] bytes

/-! ## Checksums -/

/-- The bits of a checksum after eight steps of the division by the generator. -/
def checksumBits : (steps : Nat) → UInt32 → UInt32
  | 0, value => value
  | steps + 1, value =>
    checksumBits steps (if value &&& 1 = 1 then (value >>> 1) ^^^ 0xEDB88320 else value >>> 1)

/-- The cyclic redundancy check of some bytes. -/
def checksum (bytes : List UInt8) : UInt32 :=
  ~~~ (bytes.foldl (fun value byte => checksumBits 8 (value ^^^ byte.toUInt32)) 0xFFFFFFFF)

end Archive

end NullGuard
