import NullGuard.Failure

/-!
# Libraries for archives

Archives are read and written by a library, which is not part of the program. It
knows how entries are compressed and encrypted, which names they can have and what
stands in front of an archive or behind it. The program sees none of that. It gets
the entries of an archive one by one, opens each and reads what it needs, and it
hands over entries to be written. So nothing is asked of a library here but these
two services, and every result about a run holds whatever library does them.
-/

namespace NullGuard

/-- An entry of an archive. -/
structure ArchiveEntry where
  name : String
  bytes : List UInt8
  deriving DecidableEq, Repr

/-- Whether a name is that of a directory. -/
def Archive.isDirectoryName (name : String) : Bool :=
  match name.toList.getLast? with
  | some last => last == '/' || last == '\\'
  | none => false

/-- An entry that a library has opened. Its name is known then, and a directory is known
by its name. That the contents cannot be read may turn out only when they are. -/
structure OpenedEntry where
  name : String
  isDirectory : Bool
  named : isDirectory = true → Archive.isDirectoryName name = true
  contents : Except ArchiveFault (List UInt8)

/-- What a library is about when it fails to write an archive. -/
inductive ArchiveStage
  | adding (name : String)
  | filling (name : String)
  | finishing
  deriving DecidableEq, Repr

/-- The archive that a library has made of some entries, and why it did not take them
all, if it did not. What has been written by then stays in any case. -/
structure WrittenArchive where
  bytes : List UInt8
  fault : Option (ArchiveStage × ArchiveFault)
  deriving DecidableEq, Repr

/-- A library for archives. As an inferred parameter it does not have to be handed on by
each of the definitions that read a jar somewhere below. -/
class ArchiveLibrary where
  /-- The entries of the archive that some bytes are, in the order of its directory.
  Each is opened when its turn comes, which may fail. -/
  read : List UInt8 → Except ArchiveFault (List (Except ArchiveFault OpenedEntry))
  /-- The archive with some entries, added one after the other. -/
  write : List ArchiveEntry → WrittenArchive

/-- The outcome of a service of a library, as an outcome of the program. -/
def Archive.settle {α : Type} (outcome : Except ArchiveFault α) : Except Failure α :=
  outcome.mapError fun fault => .of (.archive fault)

end NullGuard
