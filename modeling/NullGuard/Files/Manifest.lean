import NullGuard.Files.Path
import NullGuard.Text.Blank
import NullGuard.Text.Split

/-!
# Manifests

A manifest is a list of headers, one a line, with a colon behind the name. A
line that begins with a space goes on with the value of the header before it.
One header lists further jars and directories for the class path, relative to
the directory of the jar.
-/

namespace NullGuard

namespace Manifest

/-- The entry of a jar that is its manifest. -/
def entryName : String := "META-INF/MANIFEST.MF"

/-- The header that lists the class path. -/
def classPathName : List Char := "Class-Path".toList

/-- A text without characters of a class at its end. -/
def dropEndWhile (drops : Char → Bool) (text : List Char) : List Char :=
  (text.reverse.dropWhile drops).reverse

/-- The lines of a text, without what ends them. A line break at the end of the
text does not begin another line. -/
def lines (text : List Char) : List (List Char) :=
  let all := Text.pieces '\n' text
  let all := if all.getLast? = some [] then all.dropLast else all
  all.map (dropEndWhile (· == '\r'))

/-- A text without blanks at either end. -/
def trim (text : List Char) : List Char := dropEndWhile Text.isBlank (text.dropWhile Text.isBlank)

/-- A header: its name and the parts of its value, one a line, last one first. -/
structure Header where
  name : List Char
  parts : List (List Char)
  deriving DecidableEq, Repr

/-- The value of a header. -/
def Header.value (header : Header) : List Char := header.parts.reverse.flatten

/-- The headers so far, last one first, and whether the last one can go on. -/
structure Unfolding where
  headers : List Header
  goesOn : Bool
  deriving DecidableEq, Repr

/-- Take in a line. -/
def Unfolding.add (unfolding : Unfolding) (line : List Char) : Unfolding :=
  match line with
  | ' ' :: more =>
    match unfolding.goesOn, unfolding.headers with
    | true, header :: rest =>
      { unfolding with headers := { header with parts := more :: header.parts } :: rest }
    | _, _ => unfolding
  | _ =>
    match Text.splitFirst ':' line with
    | some (name, value) =>
      ⟨⟨trim name, [value.dropWhile Text.isBlank]⟩ :: unfolding.headers, true⟩
    | none => { unfolding with goesOn := false }

/-- The headers of a manifest, last one first. -/
def headers (text : List Char) : List Header :=
  ((lines text).foldl Unfolding.add ⟨[], false⟩).headers

/-- The parts of a text between blanks; `part` is the one being read, last
character first. -/
def wordsFrom (part : List Char) : List Char → List (List Char)
  | [] => if part.isEmpty then [] else [part.reverse]
  | c :: rest =>
    if Text.isBlank c then
      if part.isEmpty then wordsFrom [] rest else part.reverse :: wordsFrom [] rest
    else wordsFrom (c :: part) rest

/-- The parts of a text between blanks. -/
def words (text : List Char) : List (List Char) := wordsFrom [] text

/-- The class path that a manifest lists for the jar at a path. The last header
of the name counts. -/
def classPath (jar text : String) : List String :=
  match (headers text.toList).find? fun header => header.name == classPathName with
  | none => []
  | some header =>
    let base := (Path.parent? jar).getD ""
    (words header.value).map fun entry => Path.join base (String.ofList entry)

end Manifest

end NullGuard
