import NullGuard.Files.Archive.Written
import NullGuard.Run.Options
import NullGuard.Run.Output
import NullGuard.Run.Scan

/-!
# Runs

A run reads its input from a file tree, weaves it and writes the output and
perhaps a report. Everything that can be found wrong with the options or the
input is found before the first file is changed.
-/

namespace NullGuard

/-- What a run hands to its caller. -/
structure RunResult where
  /-- What is to be printed. -/
  printed : Option String
  woven : EngineOutput
  deriving DecidableEq, Repr

namespace Run

/-- Everything that has to be known before the output is written. -/
structure Prepared where
  root : RootScope
  inputs : Inputs
  woven : EngineOutput
  deriving DecidableEq, Repr

/-- Check the options, read the input and weave it. -/
def prepare [ArchiveLibrary] (options : Options) (tree : FileTree) : Except Failure Prepared := do
  if !tree.pathExists options.input then fail (.inputNotFound options.input)
  if let some missing := options.classpath.find? fun path => !tree.pathExists path then
    fail (.classpathNotFound missing)
  let root ← during .invalidRootOption (RootScope.parse options.root)
  if tree.leadToSame options.input options.output then fail (.outputIsInput options.output)
  let inputs ← Scan.inputs tree options.input options.classpath
  if inputs.layout = .jar ∧ !Path.isJar options.output then fail (.outputNotJar options.output)
  let index ← ClassIndex.ofInputs inputs
  if options.mode = .external ∧ !index.contains helperClass then fail (.helperMissing helperClass)
  let engine ← Engine.create root.stem
  let woven ← engine.weave inputs.entries index.lookup
  return ⟨root, inputs, woven⟩

/-- The path that stands for the caller instead of a file. -/
def printedPath : String := "-"

/-- Write the report, or hand it to the caller. -/
def deliver (path : String) (report : Report) : Running (Option String) := do
  if Path.same path printedPath then return some report.text
  Running.change (.failedToOpen path) (FileTree.write path report.text.toUTF8.toList)
  return none

end Run

open Run in
/-- Do what the options ask for, with a library for archives. -/
def runWith [ArchiveLibrary] (options : Options) : Running RunResult := do
  let prepared ← settle (prepare options (← getThe FileTree))
  let summary ← Output.write prepared.inputs prepared.woven options.mode options.output
  match options.report with
  | none => return ⟨none, prepared.woven⟩
  | some path =>
    let context : ReportContext :=
      ⟨prepared.root.stem, options.mode, none, prepared.inputs.classpath.length⟩
    return ⟨← deliver path ⟨context, prepared.woven, summary⟩, prepared.woven⟩

/-- Do what the options ask for, with a library that knows no compression. -/
def run (options : Options) : Running RunResult :=
  let _ : ArchiveLibrary := Archive.uncompressed
  runWith options

end NullGuard
