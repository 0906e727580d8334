import NullGuard.Nullness.Model
import NullGuard.Nullness.Scope

/-!
# Policies

A verdict says of an element whether null is forbidden for it. The markers on
the element itself decide; without any the class decides, then its package,
then the packages around that one up to the root. Nothing is forbidden outside
the root or in the default package.

Verdicts of packages are kept in a cache that only grows. Resolving happens in
`Resolving`, which keeps the cache and the list of packages whose markers were
asked for also when a later step fails.
-/

namespace NullGuard

/-- Verdicts by package; the first entry of a package is the one that counts. -/
structure PackageCache where
  entries : List (String × Bool)
  deriving DecidableEq, Repr

namespace PackageCache

/-- The cache before anything has been looked up. -/
def empty : PackageCache := ⟨[]⟩

/-- The verdict that is kept for a package. -/
def get (cache : PackageCache) (package : String) : Option Bool := cache.entries.lookup package

/-- Keep a verdict unless one is kept already, and give the one that is kept. -/
def insert (cache : PackageCache) (package : String) (verdict : Bool) : Bool × PackageCache :=
  match cache.get package with
  | some kept => (kept, cache)
  | none => (verdict, ⟨cache.entries ++ [(package, verdict)]⟩)

end PackageCache

/-- The verdicts on the parameters and the result of a method. -/
structure MethodVerdicts where
  parameters : List Bool
  result : Bool
  deriving DecidableEq, Repr

/-- The verdicts on a class and its elements, in the order of the model. -/
structure Policy where
  classVerdict : Bool
  fields : List Bool
  methods : List MethodVerdicts
  deriving DecidableEq, Repr

/-- A package and the packages around it, innermost first. -/
def packageChain (package : String) : List String :=
  package :: (enclosing [] package.toList).reverse
where
  /-- The texts in front of each slash, shortest first; `seen` is what stands
  before the rest, last character first. -/
  enclosing (seen : List Char) : List Char → List String
    | [] => []
    | c :: rest =>
      if c = '/' then String.ofList seen.reverse :: enclosing (c :: seen) rest
      else enclosing (c :: seen) rest

/-- What resolving has found out so far. -/
structure Findings where
  cache : PackageCache
  /-- The packages whose markers were asked for, in order. -/
  consulted : List String
  deriving DecidableEq, Repr

/-- A step that may ask for markers; what it has found out stays when it fails. -/
abbrev Resolving (α : Type) := ExceptT Failure (StateM Findings) α

/-- A root scope and the markers of packages. -/
structure Resolver where
  scope : RootScope
  markers : String → Except Failure Markers

/-- The verdict of markers inside something that has a verdict already. -/
def Markers.verdict (markers : Markers) (inherited : Bool) : Bool :=
  markers.explicit.getD inherited

namespace Resolver

/-- Ask for the markers of a package. -/
def consult (resolver : Resolver) (package : String) : Resolving Markers := do
  modify fun findings => { findings with consulted := findings.consulted ++ [package] }
  settle (resolver.markers package)

/-- The verdict of the first package of a chain, where each package inherits from
those behind it. -/
def chainVerdict (resolver : Resolver) : List String → Resolving Bool
  | [] => pure false
  | package :: around => do
    if package.isEmpty || !resolver.scope.contains package then return false
    if let some kept := (← get).cache.get package then return kept
    let inherited ← resolver.chainVerdict around
    let markers ← resolver.consult package
    modifyGet fun findings =>
      let (kept, cache) := findings.cache.insert package (markers.verdict inherited)
      (kept, { findings with cache })

/-- The verdict of a package. -/
def packageVerdict (resolver : Resolver) (package : String) : Resolving Bool :=
  resolver.chainVerdict (packageChain package)

end Resolver

namespace Policy

/-- The verdicts on the elements of a class whose own verdict is known. -/
def ofClassVerdict (model : ClassModel) (classVerdict : Bool) : Policy :=
  { classVerdict
    fields := model.fields.map fun field => field.markers.verdict classVerdict
    methods := model.methods.map fun method =>
      { parameters := method.parameters.map fun parameter =>
          parameter.markers.verdict classVerdict
        result := method.returnMarkers.verdict classVerdict } }

/-- The verdicts on a class in a package whose verdict is known. -/
def ofPackageVerdict (model : ClassModel) (packageVerdict : Bool) : Policy :=
  ofClassVerdict model (model.markers.verdict packageVerdict)

end Policy

/-- The policy for a class. -/
def Resolver.resolve (resolver : Resolver) (model : ClassModel) : Resolving Policy := do
  return Policy.ofPackageVerdict model (← resolver.packageVerdict model.package)

end NullGuard
