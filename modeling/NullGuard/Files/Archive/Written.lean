import NullGuard.Files.Archive.Stored

/-!
# Writing an archive without compression

The entries come one after the other, each behind a header; then the directory,
which repeats the headers and adds where each entry begins; then the record that
leads to the directory. Nothing is compressed and nothing says when it was made,
so the same entries always give the same bytes.

An archive takes entries one by one, and not each one: names have to differ, and
have to be short enough for their size to fit into its word. The first one that is
refused ends the archive; those in front of it make up an archive all the same.
-/

namespace NullGuard

namespace Archive

/-- The fields that an entry and its line in the directory have in common: the
version that can read it, the encoding of its name, no compression, a fixed
date, checksum and sizes. -/
def header (entry : ArchiveEntry) (name : List UInt8) : List UInt8 :=
  let size := entry.bytes.length
  word 2 20 ++ word 2 0x0800 ++ word 2 0 ++ word 2 0 ++ word 2 0x21 ++
    word 4 (checksum entry.bytes).toNat ++ word 4 size ++ word 4 size ++
    word 2 name.length ++ word 2 0

/-- An entry. -/
def writtenEntry (entry : ArchiveEntry) : List UInt8 :=
  let name := entry.name.toUTF8.toList
  word 4 ArchiveRecord.entry.mark ++ header entry name ++ name ++ entry.bytes

/-- A line of the directory. -/
def writtenListed (entry : ArchiveEntry) (offset : Nat) : List UInt8 :=
  let name := entry.name.toUTF8.toList
  word 4 ArchiveRecord.line.mark ++ word 2 20 ++ header entry name ++ word 2 0 ++ word 2 0 ++
    word 2 0 ++ word 4 0 ++ word 4 offset ++ name

/-- Where entries of given sizes begin, the first of them at an offset. -/
def offsetsFrom (offset : Nat) : List Nat → List Nat
  | [] => []
  | size :: rest => offset :: offsetsFrom (offset + size) rest

/-- The archive of some entries that it can take. -/
def written (entries : List ArchiveEntry) : List UInt8 :=
  let stored := entries.map writtenEntry
  let offsets := offsetsFrom 0 (stored.map List.length)
  let contents := stored.flatten
  let directory := (List.zipWith writtenListed entries offsets).flatten
  contents ++ directory ++ word 4 ArchiveRecord.ending.mark ++ word 2 0 ++ word 2 0 ++
    word 2 entries.length ++ word 2 entries.length ++ word 4 directory.length ++
    word 4 contents.length ++ word 2 0

/-! ## What an archive takes -/

/-- The entries that an archive has taken, and why it has refused the next one. -/
structure Taken where
  entries : List ArchiveEntry
  refused : Option (String × ArchiveFault)
  deriving DecidableEq, Repr

/-- Why an archive that has some names cannot take another one. -/
def refusal? (names : Std.TreeMap String Unit) (name : String) : Option ArchiveFault :=
  if names.contains name then some (.nameTaken name)
  else if highest16 < name.utf8ByteSize then some .nameTooLong
  else none

/-- What an archive that has some names takes of further entries. -/
def takenFrom (names : Std.TreeMap String Unit) : List ArchiveEntry → Taken
  | [] => ⟨[], none⟩
  | entry :: rest =>
    match refusal? names entry.name with
    | some fault => ⟨[], some (entry.name, fault)⟩
    | none =>
      let taken := takenFrom (names.insert entry.name ()) rest
      { taken with entries := entry :: taken.entries }

/-- What an archive takes of some entries. -/
def taken (entries : List ArchiveEntry) : Taken := takenFrom ∅ entries

/-- A library without compression: it reads the entries that are stored as they are, opens
no other ones, and stores what it writes. -/
@[reducible]
def uncompressed : ArchiveLibrary where
  read bytes := do
    let archive ← ofBytes bytes
    return archive.lines.map archive.opened
  write entries :=
    let taken := taken entries
    ⟨written taken.entries, taken.refused.map fun (name, fault) => (.adding name, fault)⟩

end Archive

end NullGuard
