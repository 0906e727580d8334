import NullGuard.Text.Split

/-!
# Paths

A path is a text with slashes between its pieces. Empty pieces and pieces that
are a single dot say nothing, except a dot in front of a relative path; what is
left are the parts of a path. Two paths with the same parts are the same path,
whether or not they lead to the same file.
-/

namespace NullGuard

namespace Path

/-- Whether a path starts at the root. -/
def isAbsolute (path : String) : Bool := path.startsWith '/'

/-- The texts between slashes. -/
def pieces (path : String) : List String :=
  (Text.pieces '/' path.toList).map String.ofList

/-- Whether a piece says nothing. -/
def isIdle (piece : String) : Bool := piece == "" || piece == "."

/-- The pieces of a path that say something. -/
def parts (path : String) : List String :=
  match pieces path with
  | "." :: rest => "." :: rest.filter fun piece => !isIdle piece
  | all => all.filter fun piece => !isIdle piece

/-- Whether two paths have the same parts. -/
def same (a b : String) : Bool := isAbsolute a == isAbsolute b && parts a == parts b

/-- The last part, if it is the name of something. -/
def fileName? (path : String) : Option String :=
  match (parts path).getLast? with
  | some name => if name == ".." || name == "." then none else some name
  | none => none

/-- What follows the last dot of a file name that has something before that dot. -/
def extension? (path : String) : Option String := do
  let (stem, ending) ← Text.splitLast '.' (← fileName? path).toList
  if stem.isEmpty then none else some (String.ofList ending)

/-- Whether the extension is a given word, in capital letters or small ones. -/
def hasExtension (path word : String) : Bool :=
  match extension? path with
  | some ending => ending.toList.map Char.toLower == word.toList
  | none => false

/-- Whether a path is named like an archive. -/
def isJar (path : String) : Bool := hasExtension path "jar"

/-- Whether a path is named like a class file. -/
def isClass (path : String) : Bool := hasExtension path "class"

/-- A path behind another one; an absolute path stands for itself. -/
def join (base path : String) : String :=
  if isAbsolute path || base.isEmpty then path
  else if base.endsWith '/' then base ++ path
  else base ++ "/" ++ path

/-- Pieces joined one behind the other to a path. -/
def joinAll (base : String) (pieces : List String) : String := pieces.foldl join base

/-- Drop idle pieces from the end; pieces are given last one first. The piece in
front of everything stays. -/
def trimEnd : List String → List String
  | [] => []
  | [first] => if first == "" then [] else [first]
  | piece :: rest => if isIdle piece then trimEnd rest else piece :: rest

/-- The pieces of a path behind the root, last one first. -/
def backwards (path : String) : List String :=
  (if isAbsolute path then (pieces path).drop 1 else pieces path).reverse

/-- The path with given pieces, last one first, behind the root or behind nothing. -/
def ofBackwards (absolute : Bool) (pieces : List String) : String :=
  (if absolute then "/" else "") ++ String.intercalate "/" pieces.reverse

/-- Pieces without the last part, last one first. The root and what has no parts
have none to leave out. -/
def leaveOut? (absolute : Bool) (pieces : List String) : Option (List String) :=
  match trimEnd pieces with
  | [] => none
  | piece :: rest => if absolute && rest.isEmpty && isIdle piece then none else some (trimEnd rest)

/-- The path without its last part. The root and a path without parts have none. -/
def parent? (path : String) : Option String :=
  (leaveOut? (isAbsolute path) (backwards path)).map (ofBackwards (isAbsolute path))

/-- The directories around something, innermost first, each by the pieces of its
path, last one first; at most `bound` of them. Behind nothing there is no
directory to be named. -/
def aroundOf (absolute : Bool) : (bound : Nat) → (pieces : List String) → List (List String)
  | 0, _ => []
  | bound + 1, pieces =>
    match leaveOut? absolute pieces with
    | none => []
    | some rest =>
      if !absolute && rest.isEmpty then [] else rest :: aroundOf absolute bound rest

/-- The directories around something, innermost first, each by the pieces of its
path, last one first. Each of them has a piece less than the one before it. -/
def around (absolute : Bool) (pieces : List String) : List (List String) :=
  aroundOf absolute pieces.length pieces

end Path

end NullGuard
