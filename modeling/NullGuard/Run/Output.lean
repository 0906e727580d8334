import NullGuard.Files.Archive.Library
import NullGuard.Files.Tree
import NullGuard.Guard.Support
import NullGuard.Run.Report

/-!
# Output

The output has the form of the input: the same files under the same paths, with
the woven classes in place of those that were read. The support classes that the
input does not have already are put behind them, unless they are provided by
someone else.
-/

namespace NullGuard

/-- A step of a run: it may change files, and what it has changed stays when it fails. -/
abbrev Running (α : Type) := ExceptT Failure (StateM FileTree) α

/-- A change of files as a step of a run. -/
def Running.change {α : Type} (step : Step) (change : FileTree.Change α) : Running α :=
  ExceptT.mk do
    match ← change.run with
    | .ok value => return .ok value
    | .error fault => return .error ((Failure.of (.system fault)).during step)

/-- A file to be written, by its path within the output. -/
structure OutputFile where
  path : String
  bytes : List UInt8
  deriving DecidableEq, Repr

namespace Output

/-- The support classes that the input does not have. -/
def missingSupport (inputs : Inputs) (mode : SupportMode) : Except Failure (List SupportClass) :=
  match mode with
  | .external => .ok []
  | .emit => do
    let present := inputs.classes.map Prod.fst
    return (← SupportClass.all).filter fun support => !present.contains support.name

/-- The files of the output without support classes. -/
def copied (inputs : Inputs) (woven : EngineOutput) : List OutputFile :=
  let rewritten := woven.rewritten
  inputs.entries.zipIdx.map fun (entry, position) =>
    match rewritten.lookup position with
    | some woven => ⟨entry.path, woven.bytes⟩
    | none => ⟨entry.path, entry.bytes⟩

/-- The files of the output. -/
def files (inputs : Inputs) (woven : EngineOutput) (support : List SupportClass) :
    List OutputFile :=
  copied inputs woven ++ support.map fun item => ⟨item.name ++ classEnding, item.bytes⟩

/-- Where a file of the output goes. -/
def target (directory : String) (file : OutputFile) : String :=
  Path.joinAll directory (Path.pieces file.path)

/-- Write a file of the output and the directories around it. -/
def writeFile (directory : String) (file : OutputFile) : Running Unit := do
  let path := target directory file
  if let some around := Path.parent? path then
    Running.change (.failedToCreate around) (FileTree.createDirectories around)
  Running.change (.failedToWrite path) (FileTree.write path file.bytes)

/-- Write files into a directory. -/
def writeDirectory (directory : String) (files : List OutputFile) : Running Unit := do
  Running.change (.failedToCreate directory) (FileTree.createDirectories directory)
  files.forM (writeFile directory)

/-- The step of a run in which writing a jar has failed. -/
def failedStep (jar : String) : ArchiveStage → Step
  | .adding name => .failedToAdd jar name
  | .filling name => .failedToWrite s!"{jar}:{name}"
  | .finishing => .failedToFinish jar

/-- Write files into a jar. What the library has written stays if it fails. -/
def writeJar [ArchiveLibrary] (jar : String) (files : List OutputFile) : Running Unit := do
  if let some around := Path.parent? jar then
    Running.change (.failedToCreate around) (FileTree.createDirectories around)
  let archive := ArchiveLibrary.write (files.map fun file => ⟨file.path, file.bytes⟩)
  Running.change (.failedToCreate jar) (FileTree.write jar archive.bytes)
  if let some (stage, fault) := archive.fault then
    during (failedStep jar stage) (fail (.archive fault))

/-- Write the output. -/
def write [ArchiveLibrary] (inputs : Inputs) (woven : EngineOutput) (mode : SupportMode)
    (output : String) : Running OutputSummary := do
  let support ← settle (missingSupport inputs mode)
  let files := files inputs woven support
  match inputs.layout with
  | .jar => writeJar output files
  | .directory | .classFile => writeDirectory output files
  return ⟨files.length, woven.rewritten.length, support.length⟩

end Output

end NullGuard
