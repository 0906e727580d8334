import NullGuard.Failure
import NullGuard.Files.Branch

/-!
# File trees

A file system without links: what stands below the root, and the directory that
relative paths start from. Paths are followed piece by piece through directories
that have to exist; two dots lead back up, from the root nowhere.
-/

namespace NullGuard

/-- A file system and the directory that relative paths start from. -/
structure FileTree where
  /-- What stands in the root, by name. -/
  entries : List (String × Branch)
  current : Location
  deriving Repr

/-- Where the way along a path has led: the names from the root down to here,
what stands here, and what stands on the way. The last name comes first, and so
does the last directory. -/
structure Spot where
  names : List String
  here : Option Branch
  around : List (Option Branch)
  deriving Repr

namespace Spot

/-- The names from the root down to here. -/
def location (spot : Spot) : Location := spot.names.reverse

/-- What stands here, without what stands in it. -/
def node? (spot : Spot) : Option Node := spot.here.map Branch.node

/-- Go down to a name. -/
def enter (spot : Spot) (name : String) : Spot :=
  ⟨name :: spot.names, spot.here.bind fun branch => branch.child? name, spot.here :: spot.around⟩

/-- Going down name by name leads to what stands at the location of these names. -/
theorem here_foldl_enter (spot : Spot) (names : Location) :
    (names.foldl enter spot).here = spot.here.bind fun branch => branch.at? names := by
  induction names generalizing spot with
  | nil => cases h : spot.here <;> simp [h, Branch.at?]
  | cons name rest ih =>
    rw [List.foldl_cons, ih]
    cases here : spot.here with
    | none => simp [enter, here]
    | some branch =>
      cases child : branch.child? name <;> simp [enter, here, child, Branch.at?]

/-- Go up. From the root that leads nowhere. -/
def leave (spot : Spot) : Spot :=
  match spot.names, spot.around with
  | _ :: names, outer :: around => ⟨names, outer, around⟩
  | _, _ => spot

/-- The longest name of a file or directory, in bytes. -/
def maxName : Nat := 255

/-- Go from a directory to what a piece of a path names. -/
def step (spot : Spot) (piece : String) : Except SystemFault Spot :=
  match spot.node? with
  | none => .error .notFound
  | some (.file _) => .error .notDirectory
  | some .directory =>
    if Path.isIdle piece then .ok spot
    else if piece = ".." then .ok spot.leave
    else if maxName < piece.utf8ByteSize then .error .nameTooLong
    else .ok (spot.enter piece)

end Spot

namespace FileTree

/-- The longest path, in bytes. -/
def maxPath : Nat := 4095

/-- The root. -/
def root (tree : FileTree) : Branch := .directory tree.entries

/-- The way to a location. -/
def spot (tree : FileTree) (location : Location) : Spot :=
  location.foldl Spot.enter ⟨[], some tree.root, []⟩

/-- What stands at a location. -/
def node? (tree : FileTree) (location : Location) : Option Node :=
  (tree.root.at? location).map Branch.node

/-- The way to a location leads to what stands there. -/
theorem node?_spot (tree : FileTree) (location : Location) :
    (tree.spot location).node? = tree.node? location := by
  rw [spot, Spot.node?, Spot.here_foldl_enter]
  rfl

/-- The pieces of a path to be followed, and where they start. -/
def route (tree : FileTree) (path : String) : Except SystemFault (Location × List String) :=
  if path.toList.any (·.toNat == 0) then .error .embeddedNul
  else if path.isEmpty then .error .notFound
  else if maxPath < path.utf8ByteSize then .error .nameTooLong
  else if Path.isAbsolute path then .ok ([], (Path.pieces path).drop 1)
  else .ok (tree.current, Path.pieces path)

/-- Where a path leads, whether or not something stands there. -/
def locate (tree : FileTree) (path : String) : Except SystemFault Spot := do
  let (start, pieces) ← tree.route path
  pieces.foldlM Spot.step (tree.spot start)

/-- What stands where a path leads. -/
def stat (tree : FileTree) (path : String) : Except SystemFault (Location × Branch) := do
  let spot ← tree.locate path
  match spot.here with
  | some branch => return (spot.location, branch)
  | none => .error .notFound

/-- Whether a path leads to something. -/
def pathExists (tree : FileTree) (path : String) : Bool := (tree.stat path).toBool

/-- Whether a path leads to a directory. -/
def isDirectory (tree : FileTree) (path : String) : Bool :=
  match tree.stat path with
  | .ok (_, .directory _) => true
  | _ => false

/-- Whether two paths lead to the same thing. -/
def leadToSame (tree : FileTree) (a b : String) : Bool :=
  match tree.stat a, tree.stat b with
  | .ok (a, _), .ok (b, _) => a == b
  | _, _ => false

/-- The bytes of a file. -/
def read (tree : FileTree) (path : String) : Except SystemFault (List UInt8) := do
  match ← tree.stat path with
  | (_, .file bytes) => return bytes
  | (_, .directory _) => .error .isDirectory

/-- How many bytes the path to something in a directory can take, behind the path
of that directory. -/
def room (path : String) : Nat :=
  maxPath + (path.endsWith '/').toNat - path.utf8ByteSize

/-- All files below the directory that a path leads to, by the names that lead to
them, with the entries of each directory in ascending order; and with them what
is out of reach because its path would be too long. -/
def listFiles (tree : FileTree) (path : String) :
    Except SystemFault (List (Location × Branch.Reached)) := do
  match ← tree.stat path with
  | (_, .directory entries) =>
    return (Branch.reachAll (room path) entries).mergeSort fun a b => !(b.1 < a.1)
  | (_, .file _) => .error .notDirectory

/-! ## Changing -/

/-- A step that changes files; what it has changed stays when it fails. -/
abbrev Change (α : Type) := ExceptT SystemFault (StateM FileTree) α

/-- Put something at a location, in place of what stands there. The root stays a
directory. -/
def put (tree : FileTree) (location : Location) (node : Node) : FileTree :=
  if location = [] then tree
  else { tree with entries := (tree.root.put node location).entries }

/-- Where a path would create something. Slashes at the end of the path do not
ask for anything to stand there. -/
def locateNew (tree : FileTree) (path : String) : Except SystemFault Spot := do
  let (start, pieces) ← tree.route path
  (pieces.reverse.dropWhile String.isEmpty).reverse.foldlM Spot.step (tree.spot start)

/-- Create a directory; the directories around it have to exist. -/
def createDirectory (path : String) : Change Unit := do
  let tree ← getThe FileTree
  let spot ← ExceptT.mk (pure (tree.locateNew path))
  if spot.here.isSome then throw .alreadyExists
  modify (·.put spot.location .directory)

/-- Create a directory unless there is one. -/
def ensureDirectory (path : String) : Change Unit :=
  tryCatch (createDirectory path) fun fault => do
    if (← getThe FileTree).isDirectory path then pure () else throw fault

/-- Create a directory unless there is one. If it takes the directory around it
for that, create that one first. -/
def ensureWithin (path : String) (around : Change Unit) : Change Unit :=
  tryCatch (ensureDirectory path) fun fault => do
    if fault ≠ .notFound then throw fault
    around
    ensureDirectory path

/-- Create the first of some directories, each of which stands in the next one,
and as many of the others as it takes. They are given by the pieces of their
paths, last one first. -/
def ensureAround (absolute : Bool) : List (List String) → Change Unit
  | [] => pure ()
  | pieces :: around =>
    ensureWithin (Path.ofBackwards absolute pieces) (ensureAround absolute around)

/-- Create a directory and those around it, as far as they are missing. -/
def createDirectories (path : String) : Change Unit :=
  let absolute := Path.isAbsolute path
  if path.isEmpty then pure ()
  else ensureWithin path (ensureAround absolute (Path.around absolute (Path.backwards path)))

/-- Write a file in place of what it held; its directory has to exist. A path
that ends in a slash is that of a directory. -/
def write (path : String) (bytes : List UInt8) : Change Unit := do
  let tree ← getThe FileTree
  let spot ← ExceptT.mk (pure (tree.locateNew path))
  if path.endsWith '/' || spot.node? = some .directory then throw .isDirectory
  modify (·.put spot.location (.file bytes))

end FileTree

end NullGuard
