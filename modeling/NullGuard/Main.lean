import NullGuard.Run.Basic

/-!
# Command line

The program takes in the part of the file system that a run looks at, does the
run on that part, and carries what the run has changed over to the file system.
Everything in between is decided elsewhere; only reading, writing and printing
happen here.
-/

namespace NullGuard

/-! ## Taking in -/

namespace FileTree

/-- The path of a location. -/
def pathOf (location : Location) : String := "/" ++ String.intercalate "/" location

/-- Take in what stands at a location, with everything below it if asked to. -/
partial def takeIn (withBelow : Bool) (tree : FileTree) (location : Location) :
    IO FileTree := do
  match ← ((← IO.currentDir) / pathOf location).readDir.toBaseIO with
  | .ok entries =>
    let tree := tree.put location .directory
    if !withBelow then return tree
    entries.foldlM (fun tree entry => takeIn true tree (location ++ [entry.fileName])) tree
  | .error _ =>
    match ← (IO.FS.readBinFile (pathOf location)).toBaseIO with
    | .ok bytes => return tree.put location (.file bytes.toList)
    | .error _ => return tree

/-- Take in what a path leads to and the directories on the way. -/
def follow (tree : FileTree) (path : String) : IO FileTree := do
  match tree.route path with
  | .error _ => return tree
  | .ok (start, pieces) =>
    let mut tree := tree
    let mut here := start
    for piece in pieces do
      tree ← takeIn false tree here
      match (tree.spot here).step piece with
      | .ok next => here := next.location
      | .error _ => return tree
    takeIn true tree here

/-- Take in what some paths lead to, and what the manifests of jars among them name. -/
partial def gather (tree : FileTree) (seen : List String) : List String → IO FileTree
  | [] => return tree
  | path :: rest => do
    if seen.contains path then return ← gather tree seen rest
    let tree ← tree.follow path
    let _ : ArchiveLibrary := Archive.uncompressed
    let named := if Path.isJar path then Scan.manifestClassPath tree path else .ok []
    gather tree (path :: seen) (rest ++ named.toOption.getD [])

/-! ## Carrying over -/

/-- Carry what stands at a location over to the file system, as far as it has
changed. -/
partial def carryOver (before : FileTree) (location : Location) : Branch → IO Unit
  | .file bytes => do
    if before.node? location = some (.file bytes) then return
    IO.FS.writeBinFile (pathOf location) ⟨bytes.toArray⟩
  | .directory entries => do
    if before.node? location ≠ some .directory then IO.FS.createDirAll (pathOf location)
    entries.forM fun (name, branch) => carryOver before (location ++ [name]) branch

end FileTree

/-! ## Running -/

namespace Options

/-- The paths that a run looks at to begin with. -/
def paths (options : Options) : List String :=
  [options.output] ++ options.report.toList ++ options.classpath ++ [options.input]

/-- What the program tells about itself. -/
def usage : String :=
  "Weave @NotNull runtime checks into JVM class files and JAR files.\n\n" ++
    "Options:\n" ++
    String.join (valuedNames.map fun (name, _) => s!"  --{name} VALUE\n") ++
    String.join (flagNames.map fun (name, _) => s!"  --{name}\n")

/-- Tell why there are no options. -/
def explain (fault : UsageFault) : IO UInt32 := do
  match fault with
  | .displayHelp =>
    IO.print usage
    return 0
  | .displayVersion =>
    IO.println s!"{Report.toolName} {Report.toolVersion}"
    return 0
  | fault =>
    IO.eprintln s!"error: {fault.label}\n\n{usage}"
    return 2

/-- Do a run on the file system. -/
def perform (options : Options) : IO UInt32 := do
  let started ← IO.monoMsNow
  let current := Path.parts (toString (← IO.currentDir))
  let before ← FileTree.gather ⟨[], current⟩ [] options.paths
  let (result, after) := (run options).run before
  FileTree.carryOver before [] after.root
  match result with
  | .error failure =>
    IO.eprintln s!"error: {failure.message}"
    return 1
  | .ok result =>
    IO.print (result.printed.getD "")
    if options.timing && !options.quiet then
      let elapsed := (← IO.monoMsNow) - started
      IO.eprintln
        s!"timing: total_ms={elapsed} classes={result.woven.classes.length}"
    return 0

end Options

end NullGuard

/-- The program. -/
def main (words : List String) : IO UInt32 :=
  match NullGuard.Options.parse words with
  | .ok options => options.perform
  | .error fault => NullGuard.Options.explain fault
