import NullGuard.Run.ClassIndex

/-!
# Engine

An engine sends every class of the input through one dispatcher, in the order of
the input, and adds up what was done.
-/

namespace NullGuard

/-- What became of one class of the input. -/
structure ClassResult where
  /-- The position of the class among the entries of the input. -/
  entry : Nat
  name : String
  outcome : Outcome
  deriving DecidableEq, Repr

/-- What became of the input. -/
structure EngineOutput where
  classes : List ClassResult
  totals : Statistics
  deriving DecidableEq, Repr

namespace EngineOutput

/-- The woven classes with their positions among the entries of the input. -/
def rewritten (output : EngineOutput) : List (Nat × WovenClass) :=
  output.classes.filterMap fun result =>
    result.outcome.woven?.map fun woven => (result.entry, woven)

/-- Put results together with the counts of what was done. -/
def ofClasses (classes : List ClassResult) : EngineOutput :=
  ⟨classes, Statistics.sum (classes.filterMap fun result =>
    result.outcome.woven?.map WovenClass.statistics)⟩

end EngineOutput

/-- An active dispatcher for one input. -/
structure Engine where
  dispatcher : Dispatcher
  deriving DecidableEq, Repr

namespace Engine

/-- An engine for a root package. -/
def create (root : String) : Except Failure Engine := do
  return ⟨← Dispatcher.idle.activate root⟩

/-- Weave classes one after the other; `done` holds the results so far, last one first. -/
def weaveFrom (lookup : ClassLookup) (dispatcher : Dispatcher) (done : List ClassResult) :
    List (Nat × String × List UInt8) → Except Failure (List ClassResult)
  | [] => .ok done.reverse
  | (entry, name, bytes) :: rest => do
    let transformation := dispatcher.transform lookup name bytes
    let outcome ← during (.failedToWeave name) transformation.result
    weaveFrom lookup transformation.dispatcher (⟨entry, name, outcome⟩ :: done) rest

/-- The classes among some entries, with their positions. -/
def classesOf (entries : List InputEntry) : List (Nat × String × List UInt8) :=
  entries.zipIdx.filterMap fun (entry, position) =>
    entry.className.map fun name => (position, name, entry.bytes)

/-- Weave the classes among some entries. -/
def weave (engine : Engine) (entries : List InputEntry) (lookup : ClassLookup) :
    Except Failure EngineOutput := do
  return .ofClasses (← weaveFrom lookup engine.dispatcher [] (classesOf entries))

end Engine

end NullGuard
