import NullGuard.Files.Archive.Ending
import NullGuard.Files.Archive.Listed
import Std.Data.TreeMap

/-!
# Reading an archive without compression

Entries are read as the directory lists them, if they are stored as they are.
If a name is listed twice the first place and the last line count. Names are the
same if they are stored alike; two that are read alike can still be different.

A text at the end of the file may look like the record that ends the archive.
So each place where its mark stands is tried, the last one first, until one
leads to a directory that can be read.
-/

namespace NullGuard

/-- An archive whose directory has been read. -/
structure Archive where
  bytes : Array UInt8
  lines : List Archive.Listed
  deriving DecidableEq, Repr

namespace Archive

/-! ## The directory -/

/-- Each name once, in the order in which the names come first, with the last
line that has it. `latest` holds these lines as long as their turn has not come. -/
def distinctFrom (latest : Std.TreeMap (List UInt8) Listed) : List Listed → List Listed
  | [] => []
  | line :: rest =>
    match latest[line.storedName]? with
    | some last => last :: distinctFrom (latest.erase line.storedName) rest
    | none => distinctFrom latest rest

/-- Each name once, in the order in which the names come first, with the last
line that has it. -/
def distinct (lines : List Listed) : List Listed :=
  distinctFrom (lines.foldl (fun latest line => latest.insert line.storedName line) ∅) lines

/-- The lines of a directory. -/
def linesOf (archive : Marked) (directory : Directory) : Except ArchiveFault (List Listed) := do
  directory.check
  let rest := bytesAt archive.bytes directory.start archive.bytes.size
  readFrom (Reader.times directory.lineCount (readListed directory.shift)) rest

/-- Why no directory has been found so far. -/
structure Search where
  /-- Why the last directory met could not be read. -/
  unread : Option ArchiveFault
  /-- Why the last ending met leads to no directory. -/
  unfound : Option ArchiveFault
  deriving DecidableEq, Repr

namespace Search

/-- The reason to give when no ending is left. -/
def fault (search : Search) : ArchiveFault :=
  (search.unread.or search.unfound).getD .noEnding

/-- The lines of the first directory that can be read, among those that the
endings at some places lead to. What is no ending counts as a reason only if
there is no other. -/
def lines (search : Search) (archive : Marked) : List Nat → Except ArchiveFault (List Listed)
  | [] => .error search.fault
  | place :: rest =>
    match endingAt archive.bytes place with
    | .error fault =>
      lines { search with unfound := search.unfound.or (some fault) } archive rest
    | .ok ending =>
      match directoryAt archive place ending with
      | .error fault => lines { search with unfound := some fault } archive rest
      | .ok directory =>
        match linesOf archive directory with
        | .error fault => lines ⟨some fault, none⟩ archive rest
        | .ok lines => .ok lines

end Search

/-- The archive that some bytes are, with its directory. -/
def ofBytes (bytes : List UInt8) : Except ArchiveFault Archive := do
  let archive := Marked.of bytes
  let lines ← Search.lines ⟨none, none⟩ archive archive.endings
  return ⟨archive.bytes, distinct lines⟩

/-! ## Entries -/

/-- How many bytes stand between the opening of an entry and its contents. -/
def readOpening : Reader Nat := do
  expectRecord .entry
  skipBytes 22
  let nameSize ← readWord 2
  let extraSize ← readWord 2
  return nameSize + extraSize

/-- The last place that a file can have. -/
def lastPlace : Nat := 0x7FFFFFFFFFFFFFFF

/-- The methods of storing contents that have been defined and are in use. -/
def knownMethods : List Nat := [0, 8, 9, 12, 14, 93, 95, 98, Listed.cipherMethod]

/-- Fail if contents cannot be read because of how they are stored. -/
def Listed.checkMethod (line : Listed) : Except ArchiveFault Unit :=
  if !knownMethods.contains line.method then .error (.unsupportedMethod line.method)
  else if line.cipher then .error .wrongPassword
  else if line.method ≠ 0 then .error (.unsupportedMethod line.method)
  else .ok ()

/-- Where the contents of an entry begin, if it is one that can be read. -/
def contentsPlace (archive : Archive) (line : Listed) : Except ArchiveFault Nat := do
  if line.encrypted then .error .encrypted
  if lastPlace < line.place then .error (.unreadable .invalidArgument)
  let size := ArchiveRecord.entry.size
  let skipped ← readFrom readOpening (bytesAt archive.bytes line.place size)
  line.checkMethod
  return line.place + size + skipped

/-- The contents of an entry that begin at a place. They end with the archive if
they do not end before. -/
def contents (archive : Archive) (line : Listed) (place : Nat) :
    Except ArchiveFault (List UInt8) :=
  let contents := bytesAt archive.bytes place line.size
  if (checksum contents).toNat ≠ line.check then .error .wrongChecksum
  else .ok contents

/-- The entry that a line of the directory points to, as far as it can be opened. -/
def opened (archive : Archive) (line : Listed) : Except ArchiveFault OpenedEntry := do
  let place ← archive.contentsPlace line
  return ⟨line.name, isDirectoryName line.name, id, archive.contents line place⟩

/-- The entry that a line of the directory points to. -/
def entry (archive : Archive) (line : Listed) : Except ArchiveFault ArchiveEntry := do
  let opened ← archive.opened line
  return ⟨opened.name, ← opened.contents⟩

/-- The entries of the archive that some bytes are, all of them read. -/
def parse (bytes : List UInt8) : Except Failure (List ArchiveEntry) :=
  settle do
    let archive ← ofBytes bytes
    archive.lines.mapM archive.entry

end Archive

end NullGuard
