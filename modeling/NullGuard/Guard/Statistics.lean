import NullGuard.Guard.Check

/-!
# Statistics

How many guards of each kind were put into a class, how many methods changed and
how many were added. Counts of several classes add up component by component.
-/

namespace NullGuard

/-- Counts of what weaving did. -/
structure Statistics where
  arguments : Nat
  results : Nat
  fieldReads : Nat
  fieldWrites : Nat
  constructorExits : Nat
  staticInitializerExits : Nat
  rewrittenMethods : Nat
  synthesizedMethods : Nat
  deriving DecidableEq, Repr

namespace Statistics

/-- Nothing done. -/
def zero : Statistics := ⟨0, 0, 0, 0, 0, 0, 0, 0⟩

/-- The counts of both. -/
def add (a b : Statistics) : Statistics :=
  { arguments := a.arguments + b.arguments
    results := a.results + b.results
    fieldReads := a.fieldReads + b.fieldReads
    fieldWrites := a.fieldWrites + b.fieldWrites
    constructorExits := a.constructorExits + b.constructorExits
    staticInitializerExits := a.staticInitializerExits + b.staticInitializerExits
    rewrittenMethods := a.rewrittenMethods + b.rewrittenMethods
    synthesizedMethods := a.synthesizedMethods + b.synthesizedMethods }

/-- The counts of all. -/
def sum (all : List Statistics) : Statistics := all.foldl add zero

/-- One guard of a kind more. -/
def record (counts : Statistics) : CheckKind → Statistics
  | .argument => { counts with arguments := counts.arguments + 1 }
  | .result => { counts with results := counts.results + 1 }
  | .putField => { counts with fieldWrites := counts.fieldWrites + 1 }
  | .getField => { counts with fieldReads := counts.fieldReads + 1 }
  | .constructorField => { counts with constructorExits := counts.constructorExits + 1 }
  | .staticInitializerField =>
    { counts with staticInitializerExits := counts.staticInitializerExits + 1 }

/-- The counts of guards given by their kinds. -/
def ofKinds (kinds : List CheckKind) : Statistics := kinds.foldl record zero

/-- How many guards there are. -/
def guards (counts : Statistics) : Nat :=
  counts.arguments + counts.results + counts.fieldReads + counts.fieldWrites +
    counts.constructorExits + counts.staticInitializerExits

end Statistics

end NullGuard
