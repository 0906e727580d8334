import NullGuard.Proofs.Dispatcher
import NullGuard.Proofs.Nullness.Verdict

/-!
# Transformations in any order

What becomes of a class depends on the class and on the verdict on its package
(`outcomeBy`). From a sound cache that verdict, or the failure to find it, is always the
same one, and a transformation leaves a sound cache. So with one host it does not matter
which classes a dispatcher has transformed before.
-/

namespace NullGuard

open Stateful

namespace Resolver

variable (resolver : Resolver)

/-- Resolving a class keeps the cache sound. -/
instance (model : ClassModel) :
    Upholds (fun findings => findings.cache.Sound resolver) (resolver.resolve model) := by
  rw [upholds_iff]
  intro findings sound
  obtain ⟨later, resolved, laterSound⟩ := resolver.resolve_eq model findings sound
  rw [resolved]
  exact laterSound

end Resolver

namespace Dispatcher

/-- The outcome of weaving a class, if this is what asking for the verdict on a package
comes to. -/
def wovenBy (ask : String → Except Failure Bool) (name : String) (bytes : List UInt8) :
    Except Failure Outcome := do
  match ← examined name bytes with
  | none => return .unchanged .alreadyWoven
  | some (file, model) =>
    let verdict ← during .resolvePolicy (ask model.package)
    concluded file model (Policy.ofPackageVerdict model verdict)

/-- The outcome of a transformation, if this is what asking for the verdict on a package
comes to. -/
def outcomeBy (root : Option RootScope) (ask : String → Except Failure Bool) (name : String)
    (bytes : List UInt8) : Except Failure Outcome :=
  match root with
  | none => .ok (.unchanged .notActive)
  | some scope =>
    if !scope.contains name then .ok (.unchanged .outOfScope)
    else if Text.endsWith name packageMarkerName then .ok (.unchanged .packageMarker)
    else tolerate (wovenBy ask name bytes)

section

variable (scope : RootScope) (lookup : ClassLookup) (name : String) (bytes : List UInt8)

/-- With a cache at hand a class is woven by the verdict that the cache leads to. -/
theorem weaveClass_fst (findings : Findings) :
    (weaveClass scope lookup name bytes findings).1 = wovenBy (fun package =>
      ((⟨scope, packageMarkers lookup⟩ : Resolver).packageVerdict package findings).1)
        name bytes := by
  cases known : examined name bytes with
  | error failure =>
    rw [weaveClass_eq, wovenBy, known]
    rfl
  | ok fit =>
    cases fit with
    | none =>
      rw [weaveClass_of_woven scope lookup known, wovenBy, known]
      rfl
    | some fit =>
      rw [weaveClass_of_fit scope lookup known, wovenBy, known]
      rfl

/-- Weaving a class keeps the cache sound. -/
instance : Upholds (fun findings => findings.cache.Sound ⟨scope, packageMarkers lookup⟩)
    (weaveClass scope lookup name bytes) := by
  rw [weaveClass_eq]
  refine .bind inferInstance fun fit => ?_
  split
  · infer_instance
  · infer_instance

end

/-- A transformation asks for one verdict at most and goes by what it is told. -/
theorem transform_eq_outcomeBy (dispatcher : Dispatcher) (scope : RootScope)
    (lookup : ClassLookup) (name : String) (bytes : List UInt8)
    (active : dispatcher.root = some scope) :
    (dispatcher.transform lookup name bytes).result = outcomeBy (some scope) (fun package =>
      (((⟨scope, packageMarkers lookup⟩ : Resolver).packageVerdict package).run
        ⟨dispatcher.cache, []⟩).1) name bytes := by
  rw [transform, active, outcomeBy]
  dsimp only
  split
  · rfl
  · split
    · rfl
    · show tolerate (weaveClass scope lookup name bytes ⟨dispatcher.cache, []⟩).1 = _
      rw [weaveClass_fst]
      rfl

/-- A dispatcher with a root package and a host whose cache is sound. -/
structure Sound (dispatcher : Dispatcher) (scope : RootScope) (lookup : ClassLookup) : Prop where
  root : dispatcher.root = some scope
  cache : dispatcher.cache.Sound ⟨scope, packageMarkers lookup⟩

/-- What a dispatcher with a root package makes of a class when it has not seen any other. -/
def outcomeAlone (scope : RootScope) (lookup : ClassLookup) (name : String)
    (bytes : List UInt8) : Except Failure Outcome :=
  outcomeBy (some scope) (Resolver.verdictOn ⟨scope, packageMarkers lookup⟩) name bytes

section

variable {dispatcher : Dispatcher} {scope : RootScope} {lookup : ClassLookup}

/-- A dispatcher that has just been activated is sound. -/
theorem sound_of_activate {root : String} (activated : idle.activate root = .ok dispatcher) :
    ∃ scope, ∀ lookup, dispatcher.Sound scope lookup := by
  obtain ⟨scope, -, returned⟩ := (Outcome.bind_eq_ok ..).1 activated
  cases returned
  exact ⟨scope, fun lookup => ⟨rfl, PackageCache.sound_empty _⟩⟩

/-- A sound cache has no influence on what becomes of a class. -/
theorem Sound.result (sound : dispatcher.Sound scope lookup) (name : String)
    (bytes : List UInt8) :
    (dispatcher.transform lookup name bytes).result = outcomeAlone scope lookup name bytes := by
  rw [transform_eq_outcomeBy dispatcher scope lookup name bytes sound.root, outcomeAlone]
  congr 1
  funext package
  exact Resolver.packageVerdict_of_sound _ package ⟨dispatcher.cache, []⟩ sound.cache

/-- One transformation. -/
theorem Sound.transform (sound : dispatcher.Sound scope lookup) (name : String)
    (bytes : List UInt8) :
    (dispatcher.transform lookup name bytes).dispatcher.Sound scope lookup := by
  obtain ⟨reason, skipped⟩ | ⟨other, result, findings, active, -, -, ran, transformed⟩ :=
    dispatcher.transform_cases lookup name bytes
  · rw [skipped]
    exact sound
  · cases active.symm.trans sound.root
    rw [transformed]
    have upheld : Upholds (fun findings => findings.cache.Sound ⟨scope, packageMarkers lookup⟩)
        (weaveClass scope lookup name bytes) := inferInstance
    have later := (upholds_iff _).1 upheld ⟨dispatcher.cache, []⟩ sound.cache
    rw [ran] at later
    exact ⟨sound.root, later⟩

/-- Any number of transformations. -/
theorem Sound.afterAll (sound : dispatcher.Sound scope lookup)
    (classes : List (String × List UInt8)) :
    (dispatcher.afterAll (classes.map fun item => .transform lookup item.1 item.2)).Sound
      scope lookup := by
  induction classes generalizing dispatcher with
  | nil => exact sound
  | cons item others inductionHypothesis =>
    exact inductionHypothesis (sound.transform item.1 item.2)

end

/-- A class outside the root package is left alone. -/
theorem outcomeAlone_outside {scope : RootScope} {lookup : ClassLookup} {name : String}
    {bytes : List UInt8} (outside : scope.contains name = false) :
    outcomeAlone scope lookup name bytes = .ok (.unchanged .outOfScope) := by
  rw [outcomeAlone, outcomeBy, outside]
  rfl

/-- Only the root decides what is out of scope, and weaving does not look at it. -/
theorem wovenBy_ne_outOfScope (ask : String → Except Failure Bool) (name : String)
    (bytes : List UInt8) : wovenBy ask name bytes ≠ .ok (.unchanged .outOfScope) := by
  intro skipped
  obtain ⟨fit, -, rest⟩ := (Outcome.bind_eq_ok ..).1 skipped
  cases fit with
  | none => cases rest
  | some fit =>
    obtain ⟨verdict, -, ended⟩ := (Outcome.bind_eq_ok ..).1 rest
    exact concluded_ne_unchanged fit.1 fit.2 _ (by decide) ended

/-- Only the classes outside the root package are left alone for that. -/
theorem outcomeAlone_eq_outOfScope (scope : RootScope) (lookup : ClassLookup) (name : String)
    (bytes : List UInt8) :
    outcomeAlone scope lookup name bytes = .ok (.unchanged .outOfScope) ↔
      scope.contains name = false := by
  refine ⟨fun skipped => ?_, outcomeAlone_outside⟩
  by_contra inside
  rw [Bool.not_eq_false] at inside
  simp only [outcomeAlone, outcomeBy, inside, Bool.not_true, Bool.false_eq_true, if_false]
    at skipped
  split at skipped
  · cases skipped
  · exact wovenBy_ne_outOfScope _ name bytes (tolerate_eq_unchanged (by simp) skipped)

/-- The only verdict that matters for a class is the one on the package in its name. -/
theorem outcomeBy_congr (root : Option RootScope) {ask other : String → Except Failure Bool}
    {name : String} (bytes : List UInt8) (agree : ask (packageOf name) = other (packageOf name)) :
    outcomeBy root ask name bytes = outcomeBy root other name bytes := by
  have same : wovenBy ask name bytes = wovenBy other name bytes := by
    rw [wovenBy, wovenBy]
    cases fit : examined name bytes with
    | error failure => rfl
    | ok fresh =>
      cases fresh with
      | none => rfl
      | some fresh =>
        obtain ⟨file, model⟩ := fresh
        obtain ⟨-, named, modelled⟩ := examined_eq_some name bytes file model fit
        have known := (ClassModel.models_of_ofClass file model modelled).name
        rw [named] at known
        show during Step.resolvePolicy (ask (packageOf model.name)) >>= _ =
          during Step.resolvePolicy (other (packageOf model.name)) >>= _
        rw [← Except.ok.inj known, agree]
  unfold outcomeBy
  rw [same]

end Dispatcher

end NullGuard
