import NullGuard.Guard.Weave

/-!
# Dispatcher

A dispatcher decides class by class whether to weave. It is activated once with
a root package. Markers of a package stand on the package's own class, which is
looked up through the host when a verdict on the package is needed for the
first time.

Whatever is wrong with a class, it is handed back unchanged with the reason.
Only a disagreement inside the weaver itself is a failure.
-/

namespace NullGuard

/-- Where the host finds classes by name; a class may be missing. -/
abbrev ClassLookup := String → Except Failure (Option (List UInt8))

/-- Why a class is handed back unchanged. -/
inductive SkipReason
  | notActive
  | outOfScope
  | packageMarker
  | alreadyWoven
  | nothingToGuard
  /-- The class could not be woven, with the text of the failure. -/
  | malformed (message : String)
  deriving DecidableEq, Repr

namespace SkipReason

/-- The word for the reason in a report. -/
def label : SkipReason → String
  | .notActive => "not_active"
  | .outOfScope => "out_of_scope"
  | .packageMarker => "package_marker"
  | .alreadyWoven => "already_woven"
  | .nothingToGuard => "nothing_to_guard"
  | .malformed _ => "malformed"

/-- What there is to tell besides the reason. -/
def detail? : SkipReason → Option String
  | .malformed message => some message
  | _ => none

end SkipReason

/-- A class with guards in it. -/
structure WovenClass where
  bytes : List UInt8
  statistics : Statistics
  deriving DecidableEq, Repr

/-- What becomes of a class. -/
inductive Outcome
  | unchanged (reason : SkipReason)
  | rewritten (woven : WovenClass)
  deriving DecidableEq, Repr

namespace Outcome

/-- The woven class, if the class was woven. -/
def woven? : Outcome → Option WovenClass
  | .unchanged _ => none
  | .rewritten woven => some woven

end Outcome

/-- The root package, once there is one, and what is known about packages. -/
structure Dispatcher where
  root : Option RootScope
  cache : PackageCache
  deriving DecidableEq, Repr

/-- What a transformation gives, the classes it looked up and the dispatcher after it. -/
structure Transformation where
  result : Except Failure Outcome
  lookups : List String
  dispatcher : Dispatcher

namespace Dispatcher

/-- A dispatcher without root package. -/
def idle : Dispatcher := ⟨none, .empty⟩

/-- Whether there is a root, without which nothing is woven. -/
def isActive (dispatcher : Dispatcher) : Bool := dispatcher.root.isSome

/-- Set the root package, which can be done once. -/
def activate (raw : String) (dispatcher : Dispatcher) : Except Failure Dispatcher := do
  let root ← during .invalidRootPackage (RootScope.parse raw)
  if dispatcher.isActive then fail .alreadyActive
  return { dispatcher with root := some root }

/-- The simple name of the class that carries the markers of a package. -/
def packageMarkerName : String := "package-info"

/-- The class that carries the markers of a package. -/
def packageMarkerClass (package : String) : String := package ++ "/" ++ packageMarkerName

/-- The markers of a package; none if it has no class to carry them. -/
def packageMarkers (lookup : ClassLookup) (package : String) : Except Failure Markers := do
  let name := packageMarkerClass package
  match ← lookup name with
  | none => return Markers.none
  | some bytes =>
    let file ← during (.parseClass name) (ClassFile.parse bytes)
    during (.readAnnotations name) (Markers.ofAttributes file.pool file.attributes)

/-- Weave the class that some bytes hold, which has to have the given name. -/
def weaveClass (scope : RootScope) (lookup : ClassLookup) (name : String) (bytes : List UInt8) :
    Resolving Outcome := do
  let file ← settle (during .parseClassFile (ClassFile.parse bytes))
  if file.isWoven then return .unchanged .alreadyWoven
  let declared ← settle file.name
  if declared ≠ name then fail (.declaresOther declared)
  let model ← settle (ClassModel.ofClass file)
  let resolver : Resolver := ⟨scope, packageMarkers lookup⟩
  let policy ← during .resolvePolicy (resolver.resolve model)
  let (result, woven) := (weave model policy).run file
  match ← settle result with
  | none => return .unchanged .nothingToGuard
  | some statistics =>
    return .rewritten ⟨← settle (during .writeWovenClass woven.written), statistics⟩

/-- Hand a class back unchanged when it cannot be woven. -/
def tolerate (result : Except Failure Outcome) : Except Failure Outcome :=
  match result with
  | .ok outcome => .ok outcome
  | .error failure =>
    if failure.isInvariant then .error failure else .ok (.unchanged (.malformed failure.message))

/-- What becomes of a class. -/
def transform (dispatcher : Dispatcher) (lookup : ClassLookup) (name : String)
    (bytes : List UInt8) : Transformation :=
  let skip (reason : SkipReason) : Transformation := ⟨.ok (.unchanged reason), [], dispatcher⟩
  match dispatcher.root with
  | none => skip .notActive
  | some scope =>
    if !scope.contains name then skip .outOfScope
    else if Text.endsWith name packageMarkerName then skip .packageMarker
    else
      let (result, findings) := (weaveClass scope lookup name bytes).run ⟨dispatcher.cache, []⟩
      ⟨tolerate result, findings.consulted.map packageMarkerClass,
        { dispatcher with cache := findings.cache }⟩

end Dispatcher

end NullGuard
