import NullGuard.Dispatcher
import NullGuard.Run.Input

/-!
# Class index

Classes by name. A class of the input hides all classes of the class path with
its name, and among the latter the first one counts. Two classes of the input
must not have the same name.
-/

namespace NullGuard

/-- Classes by name, each name once. -/
structure ClassIndex where
  classes : List (String × List UInt8)
  deriving DecidableEq, Repr

namespace ClassIndex

/-- The index of no classes. -/
def empty : ClassIndex := ⟨[]⟩

/-- The bytes of a class. -/
def find? (index : ClassIndex) (name : String) : Option (List UInt8) := index.classes.lookup name

/-- Whether a class of a given name can be looked up. -/
def contains (index : ClassIndex) (name : String) : Bool := (index.find? name).isSome

/-- How many names there are. -/
def size (index : ClassIndex) : Nat := index.classes.length

/-- Add a class unless its name is taken. -/
def add (index : ClassIndex) (name : String) (bytes : List UInt8) : ClassIndex :=
  if index.contains name then index else ⟨index.classes ++ [(name, bytes)]⟩

/-- The index as the host of a dispatcher. -/
def lookup (index : ClassIndex) : ClassLookup := fun name => .ok (index.find? name)

/-- The names that several classes of the input share, in ascending order, each
with the paths of these classes. -/
def duplicates (inputs : Inputs) : List (String × List String) :=
  let names := (inputs.classes.map Prod.fst).eraseDups.mergeSort fun a b => !(b < a)
  (names.map fun name =>
    (name, (inputs.classes.filter fun item => item.1 == name).map fun item => item.2.path)).filter
      fun item => 1 < item.2.length

/-- The index of everything that was found. -/
def ofInputs (inputs : Inputs) : Except Failure ClassIndex :=
  match duplicates inputs with
  | [] =>
    let own := inputs.classes.foldl (fun index (name, entry) => index.add name entry.bytes) empty
    .ok (inputs.classpath.foldl (fun index item => index.add item.name item.bytes) own)
  | shared => fail (.duplicateClasses shared)

end ClassIndex

end NullGuard
