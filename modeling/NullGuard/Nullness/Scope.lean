import NullGuard.Failure
import NullGuard.Text.Blank
import NullGuard.Text.Split

/-!
# Root scopes

Only classes below one root package are woven. The root is given with dots or
slashes between its segments and perhaps one separator at the end; it is kept
with slashes and without that separator. Whether a name lies in the scope is a
plain comparison of characters.
-/

namespace NullGuard

/-- A root package by its name with slashes. -/
structure RootScope where
  stem : String
  deriving DecidableEq, Repr

namespace RootScope

/-- The characters that no package name holds. -/
def isForbidden (c : Char) : Bool := Text.isBlank c || c == ';' || c == '['

/-- A text with slashes for dots and without one slash at its end. -/
def normalized (raw : String) : List Char :=
  let slashed := raw.toList.map fun c => if c = '.' then '/' else c
  if slashed.getLast? = some '/' then slashed.dropLast else slashed

/-- The scope that a text names. -/
def parse (raw : String) : Except Failure RootScope :=
  let stem := normalized raw
  if stem = [] then fail (.malformedRoot .empty)
  else if stem.any isForbidden then fail (.malformedRoot (.invalidCharacters raw))
  else if (Text.pieces '/' stem).any List.isEmpty then fail (.malformedRoot (.emptySegment raw))
  else .ok ⟨String.ofList stem⟩

/-- Whether the name of a class or a package lies in the scope. -/
def contains (scope : RootScope) (name : String) : Bool := Text.startsWith name scope.stem

end RootScope

end NullGuard
