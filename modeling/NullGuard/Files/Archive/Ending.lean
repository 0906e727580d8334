import NullGuard.Files.Archive.Basic

/-!
# The end of an archive

An archive is read from its end. The record there says where the directory of
the entries begins and how many lines it has. If it has no room for one of the
numbers, another record with long numbers stands before it, and between the two
a locator that says where that one begins.

Places are counted from the first byte of the archive proper. Something else may
stand in front of that, a program that unpacks it for instance, and then
everything has moved by as much; how far is found by looking for the mark of the
record that should stand at a known place. Bytes behind the end do no harm.
-/

namespace NullGuard

namespace Archive

/-- An archive and the places at which records may begin in it: endings last one
first, the others first one first. -/
structure Marked where
  bytes : Array UInt8
  endings : List Nat
  longEndings : List Nat
  lines : List Nat
  deriving DecidableEq, Repr

/-- The places at which records may begin in some bytes. -/
def Marked.of (bytes : List UInt8) : Marked :=
  ⟨bytes.toArray, places .ending bytes, (places .longEnding bytes).reverse,
    (places .line bytes).reverse⟩

/-- Whether a mark that begins at a place stands between two others. -/
def isBetween (first last place : Nat) : Bool := first ≤ place && place + 4 ≤ last

/-- The record that ends an archive. An archive can be cut into parts, of which
`disk` is the number of this one; `countHere` lines are about entries in it. -/
structure Ending where
  disk : Nat
  directoryDisk : Nat
  countHere : Nat
  count : Nat
  size : Nat
  offset : Nat
  deriving DecidableEq, Repr

/-- Where a directory is: the ending that counts, whether that is one with long
numbers, and how far the places in the archive are off. -/
structure Directory where
  ending : Ending
  isLong : Bool
  shift : Nat
  deriving DecidableEq, Repr

namespace Directory

/-- Where the first line of the directory stands, counted from the front of the file. -/
def start (directory : Directory) : Nat := directory.ending.offset + directory.shift

/-- How many lines count. -/
def lineCount (directory : Directory) : Nat :=
  if directory.isLong then directory.ending.count else directory.ending.countHere

/-- Fail if the directory cannot be that of an archive in one part. -/
def check (directory : Directory) : Except ArchiveFault Unit :=
  let ending := directory.ending
  if directory.isLong && ending.count < ending.countHere then .error .moreHereThanInAll
  else if ending.disk ≠ ending.directoryDisk then .error .severalParts
  else .ok ()

end Directory

/-- What a reader makes of some bytes; a failure is always one of archives. -/
def readFrom {α : Type} (reader : Reader α) (bytes : List UInt8) : Except ArchiveFault α :=
  match reader.run' bytes with
  | .ok value => .ok value
  | .error failure =>
    match failure.cause with
    | .archive fault => .error fault
    | _ => .error .cutOff

/-! ## Short numbers -/

/-- The ending, and the size of the comment behind it. -/
def readEnding : Reader (Ending × Nat) := do
  expectRecord .ending
  let disk ← readWord 2
  let directoryDisk ← readWord 2
  let countHere ← readWord 2
  let count ← readWord 2
  let size ← readWord 4
  let offset ← readWord 4
  let commentSize ← readWord 2
  return (⟨disk, directoryDisk, countHere, count, size, offset⟩, commentSize)

/-- The ending at a place. All of its comment has to be there. -/
def endingAt (archive : Array UInt8) (place : Nat) : Except ArchiveFault Ending := do
  let size := ArchiveRecord.ending.size
  let (ending, commentSize) ← readFrom readEnding (bytesAt archive place size)
  if archive.size < place + size + commentSize then .error .commentCutOff
  else return ending

/-- Whether a number may have been too long for the record. -/
def Ending.mayBeLong (ending : Ending) : Bool :=
  ending.count == highest16 || ending.size == highest32 || ending.offset == highest32

/-- The directory that an ending at a place leads to. An empty archive has none,
and nothing to look for. -/
def Ending.directory (ending : Ending) (archive : Marked) (place : Nat) :
    Except ArchiveFault Directory :=
  if ending.count = 0 then .ok ⟨ending, false, place - ending.offset⟩
  else if place ≤ ending.offset then .error .directoryBehindEnding
  else
    match archive.lines.find? (isBetween ending.offset place) with
    | some start => .ok ⟨ending, false, start - ending.offset⟩
    | none => .error .noDirectory

/-! ## Long numbers -/

/-- The record that leads to the ending with long numbers. -/
structure Locator where
  disk : Nat
  offset : Nat
  disks : Nat
  deriving DecidableEq, Repr

/-- The locator. -/
def readLocator : Reader Locator := do
  expectRecord .locator
  let disk ← readWord 4
  let offset ← readWord 8
  let disks ← readWord 4
  return ⟨disk, offset, disks⟩

/-- The locator in front of an ending at a place. -/
def locatorBefore? (archive : Array UInt8) (place : Nat) : Option Locator :=
  let size := ArchiveRecord.locator.size
  if place < size then none
  else (readFrom readLocator (bytesAt archive (place - size) size)).toOption

/-- The ending with long numbers. It can hold more than is read here, and says
how many bytes of it are behind its own size. -/
structure LongEnding extends Ending where
  ownSize : Nat
  deriving DecidableEq, Repr

/-- How many bytes of a long ending its size leaves out. -/
def uncountedSize : Nat := 12

/-- The ending with long numbers. -/
def readLongEnding : Reader LongEnding := do
  expectRecord .longEnding
  let ownSize ← readWord 8
  skipBytes 4
  let disk ← readWord 4
  let directoryDisk ← readWord 4
  let countHere ← readWord 8
  let count ← readWord 8
  let size ← readWord 8
  let offset ← readWord 8
  return ⟨⟨disk, directoryDisk, countHere, count, size, offset⟩, ownSize⟩

/-- The ending with long numbers at a place. It has to agree with the locator at
another: they name the same part, one ends where the other begins, and the lines
have room. -/
def longEndingAt (archive : Array UInt8) (locator : Locator) (locatorPlace place : Nat) :
    Except ArchiveFault Ending := do
  let ending ← readFrom readLongEnding (bytesAt archive place ArchiveRecord.longEnding.size)
  let room := locatorPlace - place
  let taken := ending.ownSize + uncountedSize
  if room < taken then .error .longEndingTooLong
  else if ending.directoryDisk ≠ locator.disk then .error .longEndingElsewhere
  else if taken ≠ room then .error .longEndingSize
  else if place < ending.offset + ending.count * ArchiveRecord.line.size then
    .error .longEndingCount
  else return ending.toEnding

/-- The first of some places with a long ending, or why the last one has none. -/
def firstLongEnding (archive : Array UInt8) (locator : Locator) (locatorPlace : Nat) :
    (fault : ArchiveFault) → List Nat → Except ArchiveFault (Nat × Ending)
  | fault, [] => .error fault
  | _, place :: rest =>
    match longEndingAt archive locator locatorPlace place with
    | .ok ending => .ok (place, ending)
    | .error fault => firstLongEnding archive locator locatorPlace fault rest

/-- The directory that a locator at a place leads to. -/
def Locator.directory (locator : Locator) (archive : Marked) (place : Nat) :
    Except ArchiveFault Directory :=
  if place ≤ locator.offset then .error .longEndingBehindLocator
  else if 1 < locator.disks then .error .manyParts
  else do
    let candidates := archive.longEndings.filter (isBetween locator.offset place)
    let (start, ending) ← firstLongEnding archive.bytes locator place .noLongEnding candidates
    return ⟨ending, true, start - locator.offset⟩

/-- The directory that an ending at a place leads to. -/
def directoryAt (archive : Marked) (place : Nat) (ending : Ending) :
    Except ArchiveFault Directory :=
  match (if ending.mayBeLong then locatorBefore? archive.bytes place else none) with
  | some locator => locator.directory archive (place - ArchiveRecord.locator.size)
  | none => ending.directory archive place

end Archive

end NullGuard
