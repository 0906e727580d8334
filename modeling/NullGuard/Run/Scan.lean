import NullGuard.ClassFile.Basic
import NullGuard.Files.Archive.Library
import NullGuard.Files.Manifest
import NullGuard.Files.Tree
import NullGuard.Run.Input

/-!
# Scanning

Scanning reads the input and the class path from a file tree. The input is a
directory, a jar or a single class file. The class path is made of the paths
that were given, in ascending order, and of the paths that the manifests of jars
name, each one once, those nearer to the given ones first. Jars are read by a
library.
-/

namespace NullGuard

namespace FileTree

/-- The bytes of a file. -/
def readFile (tree : FileTree) (path : String) : Except Failure (List UInt8) :=
  match tree.read path with
  | .ok bytes => .ok bytes
  | .error fault => during (.failedToRead path) (fail (.system fault))

/-- The entries of a jar, in the order of its directory. -/
def readJar [ArchiveLibrary] (tree : FileTree) (path : String) :
    Except Failure (List (Except ArchiveFault OpenedEntry)) :=
  match tree.read path with
  | .ok bytes => during (.failedToRead path) (Archive.settle (ArchiveLibrary.read bytes))
  | .error .isDirectory =>
    during (.failedToRead path) (fail (.archive (.unreadable .isDirectory)))
  | .error fault => during (.failedToOpen path) (fail (.system fault))

/-- What stands in a directory by the names that lead there, as far as it can be
reached. -/
def readDirectory (tree : FileTree) (path : String) :
    Except Failure (List (Location × Branch.Reached)) :=
  match tree.listFiles path with
  | .ok files => .ok files
  | .error fault => during (.failedToReadDirectory path) (fail (.system fault))

end FileTree

namespace Scan

/-- The file that an entry of a jar is, if it is not a directory. -/
def jarEntry (path : String) (entry : Except ArchiveFault OpenedEntry) :
    Except Failure (Option InputEntry) := do
  let opened ← during (.failedToRead path) (Archive.settle entry)
  if opened.isDirectory then return none
  let bytes ← during (.failedToRead s!"{path}:{opened.name}") (Archive.settle opened.contents)
  return some (.ofFile opened.name bytes)

/-- The files of a jar, in the order of the archive. -/
def jarEntries [ArchiveLibrary] (tree : FileTree) (path : String) :
    Except Failure (List InputEntry) := do
  return (← (← tree.readJar path).mapM (jarEntry path)).filterMap id

/-- A file below a directory. -/
def fileEntry (directory : String) : Location × Branch.Reached → Except Failure InputEntry
  | (names, some bytes) => .ok (.ofFile (String.intercalate "/" names) bytes)
  | (names, none) =>
    during (.failedToRead (Path.joinAll directory names)) (fail (.system .nameTooLong))

/-- The input. -/
def input [ArchiveLibrary] (tree : FileTree) (path : String) :
    Except Failure (InputLayout × List InputEntry) := do
  if tree.isDirectory path then
    let files ← tree.readDirectory path
    return (.directory, ← files.mapM (fileEntry path))
  else if Path.isJar path then return (.jar, ← jarEntries tree path)
  else if Path.isClass path then
    let bytes ← tree.readFile path
    let name ← during (.failedToParse path) (ClassFile.peekName bytes)
    return (.classFile, [⟨name ++ classEnding, some name, bytes⟩])
  else fail (.unsupportedInput path)

/-! ## The class path -/

/-- The text of the manifest among some entries of a jar, if there is one. Entries behind
the manifest are not opened. -/
def manifestText (path : String) :
    List (Except ArchiveFault OpenedEntry) → Except Failure (Option String)
  | [] => .ok none
  | entry :: rest => do
    let opened ← during (.failedToRead path) (Archive.settle entry)
    if opened.name ≠ Manifest.entryName then manifestText path rest
    else during (.failedToRead Manifest.entryName) do
      let bytes ← Archive.settle opened.contents
      match String.fromUTF8? ⟨bytes.toArray⟩ with
      | some text => return some text
      | none => fail .notText

/-- The paths that the manifest of a jar names. -/
def manifestClassPath [ArchiveLibrary] (tree : FileTree) (path : String) :
    Except Failure (List String) := do
  match ← manifestText path (← tree.readJar path) with
  | some text => return Manifest.classPath path text
  | none => return []

/-- Paths in ascending order. -/
def sorted (paths : List String) : List String := paths.mergeSort fun a b => !(b < a)

/-- Follow the manifests of jars, breadth first. `found` holds the paths met so
far, last one first; each of them exists. The number bounds how many more can be
met, and as all of them are different it never runs out. -/
def expandFrom [ArchiveLibrary] (tree : FileTree) : (bound : Nat) → (found queue : List String) →
    Except Failure (List String)
  | 0, found, _ => .ok found.reverse
  | bound + 1, found, queue =>
    match queue.dropWhile found.contains with
    | [] => .ok found.reverse
    | path :: queue => do
      if !tree.pathExists path then fail (.classpathNotFound path)
      let named ← if Path.isJar path then manifestClassPath tree path else pure []
      expandFrom tree bound (path :: found) (queue ++ sorted named)

/-- How many texts there are that are short enough to be a path. -/
def pathCount : Nat := Nat.pow 256 (FileTree.maxPath + 1)

/-- The class path that begins with the given paths. -/
def expand [ArchiveLibrary] (tree : FileTree) (paths : List String) :
    Except Failure (List String) :=
  expandFrom tree pathCount [] (sorted paths)

/-- The class that some bytes hold. -/
def classOf (bytes : List UInt8) : Except Failure ClasspathClass := do
  return ⟨← ClassFile.peekName bytes, bytes⟩

/-- The classes of a jar; entries that hold no class are passed over. -/
def jarClasses [ArchiveLibrary] (tree : FileTree) (path : String) :
    Except Failure (List ClasspathClass) := do
  let entries ← jarEntries tree path
  return (entries.filter fun entry => entry.className.isSome).filterMap fun entry =>
    (classOf entry.bytes).toOption

/-- The classes of a file somewhere in a directory of the class path; what holds
no class is passed over. -/
def looseClasses [ArchiveLibrary] (tree : FileTree) (path : String) (reached : Branch.Reached) :
    Except Failure (List ClasspathClass) :=
  if Path.isJar path then jarClasses tree path
  else if Path.isClass path then
    match reached with
    | some bytes => .ok (classOf bytes).toOption.toList
    | none => during (.failedToRead path) (fail (.system .nameTooLong))
  else .ok []

/-- The classes of an entry of the class path. -/
def entryClasses [ArchiveLibrary] (tree : FileTree) (path : String) :
    Except Failure (List ClasspathClass) := do
  if tree.isDirectory path then
    let files ← tree.readDirectory path
    return (← files.mapM fun (names, reached) =>
      looseClasses tree (Path.joinAll path names) reached).flatten
  else if Path.isJar path then jarClasses tree path
  else if Path.isClass path then
    let bytes ← tree.readFile path
    return [← during (.failedToParse path) (classOf bytes)]
  else fail (.unsupportedClasspath path)

/-- Everything that a run needs. -/
def inputs [ArchiveLibrary] (tree : FileTree) (path : String) (classpath : List String) :
    Except Failure Inputs := do
  let (layout, entries) ← input tree path
  let named ← if layout = .jar then manifestClassPath tree path else pure []
  let expanded ← expand tree (classpath ++ named)
  let classes ← (expanded.filter fun entry => !Path.same entry path).mapM (entryClasses tree)
  return ⟨layout, entries, classes.flatten⟩

end Scan

end NullGuard
