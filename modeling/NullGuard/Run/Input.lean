import NullGuard.Failure
import NullGuard.Text.Split

/-!
# Input

What a run works on: the files of the input, each with the name of the class it
holds if it is to be woven, and the classes of the class path, which are only
looked at.

A class file is woven under the name that its path gives. Module descriptors
and the variants of a class for other releases are no classes in this sense and
are copied as they are.
-/

namespace NullGuard

/-- The form of the input, which is the form of the output as well. -/
inductive InputLayout
  | directory
  | jar
  | classFile
  deriving DecidableEq, Repr

/-- A file of the input by its path within the input. -/
structure InputEntry where
  path : String
  /-- The class that the file holds, unless it is copied as it is. -/
  className : Option String
  bytes : List UInt8
  deriving DecidableEq, Repr

/-- A class that can be looked up. -/
structure ClasspathClass where
  name : String
  bytes : List UInt8
  deriving DecidableEq, Repr

/-- Everything that was found. -/
structure Inputs where
  layout : InputLayout
  entries : List InputEntry
  classpath : List ClasspathClass
  deriving DecidableEq, Repr

/-- The ending of a class file. -/
def classEnding : String := ".class"

/-- Where a jar keeps the variants of its classes for other releases. -/
def variantsFolder : String := "META-INF/versions/"

/-- The last piece of a path. -/
def lastPiece (path : String) : String :=
  match Text.splitLast '/' path.toList with
  | some (_, piece) => String.ofList piece
  | none => path

/-- The class that a file holds, by its path within the input. -/
def weavableName (path : String) : Option String :=
  if Text.startsWith path variantsFolder then none
  else
    match Text.dropEnding path classEnding with
    | none => none
    | some name =>
      if lastPiece path = "module-info.class" ∨ name.isEmpty then none else some name

/-- A file of the input under the class that its path gives. -/
def InputEntry.ofFile (path : String) (bytes : List UInt8) : InputEntry :=
  ⟨path, weavableName path, bytes⟩

/-- The classes of the input by name, in the order of the entries. -/
def Inputs.classes (inputs : Inputs) : List (String × InputEntry) :=
  inputs.entries.filterMap fun entry => entry.className.map fun name => (name, entry)

end NullGuard
