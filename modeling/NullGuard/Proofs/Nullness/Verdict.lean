import NullGuard.Proofs.Nullness.Cache

/-!
# The nearest explicit markers decide

The verdict on a package is described without a cache first: by recursion along its
chain (`Resolver.plainVerdict`), and then by the markers of the packages that have a
say (`plainVerdict_of_found`, `plainVerdict_eq_error`). A cache is sound if it has such
verdicts only, and none without those around it. From a sound cache the resolver gives
the same answer as without one, be it a verdict or a failure, and leaves a sound cache.
-/

namespace NullGuard

/-! ## Markers -/

namespace Markers

/-- Of some markers, those of an element first and then those of what is around it,
the first that say anything forbid null. -/
def Forbid (chain : List Markers) : Prop :=
  ∃ silent deciding further, chain = silent ++ deciding :: further ∧
    (∀ markers ∈ silent, markers = none) ∧ deciding.notNull = true

/-- Without packages nothing forbids null. -/
theorem not_forbid_nil : ¬ Forbid [] := by
  rintro ⟨silent, deciding, further, split, -⟩
  simp at split

/-- Markers that forbid null decide, those that allow it decide as well, and without
any the decision is that of what is around. -/
theorem forbid_cons (markers : Markers) (around : List Markers) :
    Forbid (markers :: around) ↔
      markers.notNull = true ∨ markers = none ∧ Forbid around := by
  constructor
  · rintro ⟨silent, deciding, further, split, unmarked, forbids⟩
    cases silent with
    | nil =>
      obtain ⟨rfl, -⟩ := List.cons.inj split
      exact .inl forbids
    | cons first silent =>
      obtain ⟨rfl, rest⟩ := List.cons.inj split
      obtain ⟨nothing, unmarked⟩ := List.forall_mem_cons.1 unmarked
      exact .inr ⟨nothing, silent, deciding, further, rest, unmarked, forbids⟩
  · rintro (forbids | ⟨nothing, silent, deciding, further, rfl, unmarked, forbids⟩)
    · exact ⟨[], markers, around, rfl, by simp, forbids⟩
    · exact ⟨markers :: silent, deciding, further, rfl,
        List.forall_mem_cons.2 ⟨nothing, unmarked⟩, forbids⟩

/-- A verdict that is inherited from what is around counts only without markers. -/
theorem verdict_iff (markers : Markers) (inherited : Bool) (around : List Markers)
    (known : inherited = true ↔ Forbid around) :
    markers.verdict inherited = true ↔ Forbid (markers :: around) := by
  rw [forbid_cons, ← known]
  obtain ⟨notNull, nullable⟩ := markers
  cases notNull <;> cases nullable <;> simp [verdict, explicit, none]

end Markers

/-! ## Verdicts without a cache -/

namespace Resolver

variable (resolver : Resolver)

/-- The verdict on the first package of a chain. -/
def plainVerdict : List String → Except Failure Bool
  | [] => .ok false
  | package :: around =>
    if resolver.scope.Covers package then do
      let inherited ← plainVerdict around
      let markers ← resolver.markers package
      return markers.verdict inherited
    else .ok false

/-- The verdict on a package. -/
def verdictOn (package : String) : Except Failure Bool :=
  resolver.plainVerdict (packageChain package)

variable {resolver}

/-- The verdict on a package with a say: its own markers, or else what it inherits. -/
theorem plainVerdict_covered {package : String} {around : List String}
    (covers : resolver.scope.Covers package) :
    resolver.plainVerdict (package :: around) = do
      let inherited ← resolver.plainVerdict around
      let markers ← resolver.markers package
      return markers.verdict inherited := by
  rw [plainVerdict, if_pos covers]

/-- A package without a say allows null, and so does everything around it. -/
theorem plainVerdict_outside {package : String} {around : List String}
    (outside : ¬ resolver.scope.Covers package) :
    resolver.plainVerdict (package :: around) = .ok false := by
  rw [plainVerdict, if_neg outside]

/-- A failure is handed on to all packages inside. -/
theorem plainVerdict_append_error {waiting chain : List String} {failure : Failure}
    (covers : ∀ package ∈ waiting, resolver.scope.Covers package)
    (failed : resolver.plainVerdict chain = .error failure) :
    resolver.plainVerdict (waiting ++ chain) = .error failure := by
  induction waiting with
  | nil => exact failed
  | cons package others inductionHypothesis =>
    obtain ⟨here, behind⟩ := List.forall_mem_cons.1 covers
    rw [List.cons_append, plainVerdict_covered here, inductionHypothesis behind]
    rfl

/-- If all who have a say can be asked, the first of them that say anything decide. -/
theorem plainVerdict_of_found {chain : List String} (isChain : IsPackageChain chain)
    {found : List Markers}
    (each : List.Forall₂ (fun package markers => resolver.markers package = .ok markers)
      (chain.filter resolver.scope.Covers) found) :
    ∃ verdict, resolver.plainVerdict chain = .ok verdict ∧
      (verdict = true ↔ Markers.Forbid found) := by
  induction chain generalizing found with
  | nil =>
    cases each
    exact ⟨false, rfl, by simp [Markers.not_forbid_nil]⟩
  | cons package around inductionHypothesis =>
    by_cases covers : resolver.scope.Covers package
    · rw [List.filter_cons_of_pos (by simpa using covers)] at each
      obtain _ | ⟨here, behind⟩ := each
      obtain ⟨inherited, given, known⟩ := inductionHypothesis isChain.tail behind
      refine ⟨_, ?_, Markers.verdict_iff _ inherited _ known⟩
      rw [plainVerdict_covered covers, given, here]
      rfl
    · rw [resolver.scope.filter_eq_nil isChain covers] at each
      cases each
      exact ⟨false, plainVerdict_outside covers, by simp [Markers.not_forbid_nil]⟩

/-- There is a verdict exactly if all who have a say can be asked. -/
theorem exists_plainVerdict_iff {chain : List String} (isChain : IsPackageChain chain) :
    (∃ verdict, resolver.plainVerdict chain = .ok verdict) ↔
      ∀ package ∈ chain.filter resolver.scope.Covers, ∃ markers,
        resolver.markers package = .ok markers := by
  constructor
  · rintro ⟨verdict, given⟩
    induction chain generalizing verdict with
    | nil => simp
    | cons package around inductionHypothesis =>
      by_cases covers : resolver.scope.Covers package
      · rw [plainVerdict_covered covers] at given
        obtain ⟨inherited, outer, given⟩ := (Outcome.bind_eq_ok ..).1 given
        obtain ⟨markers, asked, -⟩ := (Outcome.bind_eq_ok ..).1 given
        rw [List.filter_cons_of_pos (by simpa using covers), List.forall_mem_cons]
        exact ⟨⟨markers, asked⟩, inductionHypothesis isChain.tail inherited outer⟩
      · simp [resolver.scope.filter_eq_nil isChain covers]
  · intro each
    obtain ⟨found, asked⟩ := Outcome.exists_mapM_eq_ok resolver.markers _ each
    obtain ⟨verdict, given, -⟩ := plainVerdict_of_found isChain ((Outcome.mapM_eq_ok ..).1 asked)
    exact ⟨verdict, given⟩

/-- Among some packages, innermost first, the outermost one that cannot be asked fails in
this way. -/
def FailsOutermost (resolver : Resolver) (packages : List String) (failure : Failure) : Prop :=
  ∃ inner package outer, packages = inner ++ package :: outer ∧
    resolver.markers package = .error failure ∧
    ∀ other ∈ outer, ∃ markers, resolver.markers other = .ok markers

/-- Nobody fails where nobody is asked. -/
theorem not_failsOutermost_nil (failure : Failure) : ¬ resolver.FailsOutermost [] failure := by
  rintro ⟨inner, package, outer, split, -⟩
  simp at split

/-- The outermost failure is that of a package around, or else that of the package itself.
-/
theorem failsOutermost_cons (package : String) (others : List String) (failure : Failure) :
    resolver.FailsOutermost (package :: others) failure ↔
      resolver.FailsOutermost others failure ∨
        (∀ other ∈ others, ∃ markers, resolver.markers other = .ok markers) ∧
          resolver.markers package = .error failure := by
  constructor
  · rintro ⟨inner, failing, outer, split, failed, asked⟩
    cases inner with
    | nil =>
      obtain ⟨rfl, rfl⟩ := List.cons.inj split
      exact .inr ⟨asked, failed⟩
    | cons first inner =>
      obtain ⟨-, rest⟩ := List.cons.inj split
      exact .inl ⟨inner, failing, outer, rest, failed, asked⟩
  · rintro (⟨inner, failing, outer, rfl, failed, asked⟩ | ⟨asked, failed⟩)
    · exact ⟨package :: inner, failing, outer, rfl, failed, asked⟩
    · exact ⟨[], package, others, rfl, failed, asked⟩

/-- There is a failure exactly if somebody who has a say cannot be asked, and it is that
of the outermost such package. -/
theorem plainVerdict_eq_error {chain : List String} (isChain : IsPackageChain chain)
    (failure : Failure) :
    resolver.plainVerdict chain = .error failure ↔
      resolver.FailsOutermost (chain.filter resolver.scope.Covers) failure := by
  induction chain with
  | nil => simp [plainVerdict, not_failsOutermost_nil]
  | cons package around inductionHypothesis =>
    by_cases covers : resolver.scope.Covers package
    · have combined (inherited : Bool) : (do
            let markers ← resolver.markers package
            return markers.verdict inherited) = Except.error failure ↔
          resolver.markers package = .error failure := by
        simp [Outcome.bind_eq_error, pure, Except.pure]
      rw [plainVerdict_covered covers, List.filter_cons_of_pos (by simpa using covers),
        failsOutermost_cons, Outcome.bind_eq_error, inductionHypothesis isChain.tail,
        ← exists_plainVerdict_iff isChain.tail]
      simp only [combined, exists_and_right]
    · simp [resolver.scope.filter_eq_nil isChain covers, plainVerdict_outside covers,
        not_failsOutermost_nil]

end Resolver

/-! ## Sound caches -/

namespace PackageCache

/-- A cache has verdicts on all packages of a chain that have a say. -/
def Holds (cache : PackageCache) (scope : RootScope) (chain : List String) : Prop :=
  ∀ package ∈ chain, scope.Covers package → ∃ verdict, cache.get package = some verdict

/-- What a cache holds of a chain it holds as it grows. -/
theorem Holds.grow {cache grown : PackageCache} {scope : RootScope} {chain : List String}
    (holds : cache.Holds scope chain) (grows : cache.GrowsTo grown) : grown.Holds scope chain := by
  intro package member covers
  obtain ⟨verdict, kept⟩ := holds package member covers
  exact ⟨verdict, grows.get package verdict kept⟩

/-- Of a chain that begins without a say nothing has to be kept. -/
theorem holds_outside (cache : PackageCache) {scope : RootScope} {package : String}
    {around : List String} (isChain : IsPackageChain (package :: around))
    (outside : ¬ scope.Covers package) : cache.Holds scope (package :: around) := by
  intro other member covers
  have encloses : other ∈ (package :: around).filter scope.Covers := by
    rw [List.mem_filter]
    exact ⟨member, decide_eq_true covers⟩
  rw [scope.filter_eq_nil isChain outside] at encloses
  cases encloses

/-- A cache has only verdicts that there are without it, on packages that have a say, and
it has none without those on the packages around. -/
structure Sound (cache : PackageCache) (resolver : Resolver) : Prop where
  covers : ∀ package verdict, cache.get package = some verdict → resolver.scope.Covers package
  given : ∀ package verdict, cache.get package = some verdict →
    resolver.verdictOn package = .ok verdict
  around : ∀ package verdict, cache.get package = some verdict →
    cache.Holds resolver.scope (packageChain package)

/-- A cache without verdicts has no wrong one. -/
theorem sound_empty (resolver : Resolver) : empty.Sound resolver := by
  have nothing (package : String) : empty.get package = none := rfl
  constructor <;>
  · intro package verdict kept
    rw [nothing] at kept
    cases kept

/-- The verdict on the first package of a chain may be kept once those on the packages
around it are. Whoever was faster has kept the same. -/
theorem Sound.insert {cache : PackageCache} {resolver : Resolver} (sound : cache.Sound resolver)
    {package : String} {around : List String} {verdict : Bool}
    (isChain : IsPackageChain (package :: around)) (covers : resolver.scope.Covers package)
    (given : resolver.plainVerdict (package :: around) = .ok verdict)
    (held : cache.Holds resolver.scope around) :
    (cache.insert package verdict).1 = verdict ∧
      (cache.insert package verdict).2.Sound resolver ∧
      (cache.insert package verdict).2.Holds resolver.scope (package :: around) := by
  have grows := cache.growsTo_insert package verdict
  have mine : resolver.verdictOn package = .ok verdict := by
    rw [Resolver.verdictOn, ← isChain]
    exact given
  have same : (cache.insert package verdict).1 = verdict := by
    unfold PackageCache.insert
    cases known : cache.get package with
    | none => rfl
    | some kept =>
      have theirs := sound.given package kept known
      exact Except.ok.inj (theirs.symm.trans mine)
  have holds : (cache.insert package verdict).2.Holds resolver.scope (package :: around) := by
    intro other member covered
    rcases List.mem_cons.1 member with rfl | member
    · exact ⟨_, cache.insert_fst other verdict⟩
    · exact held.grow grows other member covered
  have entries (other : String) (kept : Bool)
      (here : (cache.insert package verdict).2.get other = some kept) :
      cache.get other = some kept ∨ other = package ∧ kept = verdict := by
    rw [get_insert, Option.or_eq_some_iff] at here
    rcases here with before | ⟨-, new⟩
    · exact .inl before
    · by_cases isNew : other = package
      · rw [if_pos isNew] at new
        exact .inr ⟨isNew, (Option.some.inj new).symm⟩
      · rw [if_neg isNew] at new
        cases new
  refine ⟨same, ⟨?_, ?_, ?_⟩, holds⟩
  · intro other kept here
    rcases entries other kept here with before | ⟨rfl, rfl⟩
    · exact sound.covers other kept before
    · exact covers
  · intro other kept here
    rcases entries other kept here with before | ⟨rfl, rfl⟩
    · exact sound.given other kept before
    · exact mine
  · intro other kept here
    rcases entries other kept here with before | ⟨rfl, rfl⟩
    · exact (sound.around other kept before).grow grows
    · rw [← isChain]
      exact holds

end PackageCache

/-! ## Verdicts from a sound cache -/

namespace Resolver

variable (resolver : Resolver)

/-- From a sound cache the verdict on the first package of a chain, or the failure to find
it, is the one that there is without a cache. The cache stays sound, and behind a
verdict it has those on the whole chain. -/
theorem chainVerdict_eq (chain : List String) (isChain : IsPackageChain chain)
    (findings : Findings) (sound : findings.cache.Sound resolver) :
    ∃ later, resolver.chainVerdict chain findings = (resolver.plainVerdict chain, later) ∧
      later.cache.Sound resolver ∧
      ∀ verdict, resolver.plainVerdict chain = .ok verdict →
        later.cache.Holds resolver.scope chain := by
  -- The induction goes outwards. What a package inherits is asked for, and kept, before its
  -- own verdict, so a cache with that verdict has the ones around it.
  induction chain with
  | nil => exact ⟨findings, rfl, sound, fun _ _ => by simp [PackageCache.Holds]⟩
  | cons package around inductionHypothesis =>
    by_cases covers : resolver.scope.Covers package
    · rw [chainVerdict_covered around covers]
      cases known : findings.cache.get package with
      | some kept =>
        have given := sound.given package kept known
        have held := sound.around package kept known
        rw [verdictOn, ← isChain] at given
        rw [← isChain] at held
        exact ⟨findings, by rw [given], sound, fun _ _ => held⟩
      | none =>
        obtain ⟨middle, outer, middleSound, middleHolds⟩ := inductionHypothesis isChain.tail
        rw [outer, plainVerdict_covered covers]
        cases given : resolver.plainVerdict around with
        | error failure => exact ⟨middle, rfl, middleSound, fun _ impossible => nomatch impossible⟩
        | ok inherited =>
          dsimp only
          cases asked : resolver.markers package with
          | error failure => exact ⟨_, rfl, middleSound, fun _ impossible => nomatch impossible⟩
          | ok markers =>
            have mine : resolver.plainVerdict (package :: around) =
                .ok (markers.verdict inherited) := by
              rw [plainVerdict_covered covers, given, asked]
              rfl
            -- What is handed on is what the cache has kept, which is the same verdict.
            obtain ⟨same, laterSound, laterHolds⟩ :=
              middleSound.insert isChain covers mine (middleHolds inherited given)
            refine ⟨⟨_, middle.consulted ++ [package]⟩, ?_, laterSound, fun _ _ => laterHolds⟩
            dsimp only
            rw [same]
            rfl
    · rw [chainVerdict_outside around covers, plainVerdict_outside covers]
      exact ⟨findings, rfl, sound, fun _ _ => findings.cache.holds_outside isChain covers⟩

/-- The verdict on a package does not depend on what was found out before. -/
theorem packageVerdict_of_sound (package : String) (findings : Findings)
    (sound : findings.cache.Sound resolver) :
    (resolver.packageVerdict package findings).1 = resolver.verdictOn package := by
  obtain ⟨later, found, -⟩ := resolver.chainVerdict_eq (packageChain package)
    (isPackageChain package) findings sound
  exact congrArg Prod.fst found

/-- The same for a class: its policy follows from the verdict on its package. -/
theorem resolve_eq (model : ClassModel) (findings : Findings)
    (sound : findings.cache.Sound resolver) :
    ∃ later, resolver.resolve model findings =
        ((resolver.verdictOn model.package).map (Policy.ofPackageVerdict model), later) ∧
      later.cache.Sound resolver := by
  obtain ⟨later, found, laterSound, -⟩ := resolver.chainVerdict_eq (packageChain model.package)
    (isPackageChain model.package) findings sound
  refine ⟨later, ?_, laterSound⟩
  rw [verdictOn]
  cases given : resolver.plainVerdict (packageChain model.package) with
  | error failure =>
    rw [given] at found
    exact Stateful.bind_error _ _ _ _ _ found
  | ok verdict =>
    rw [given] at found
    exact Stateful.bind_ok _ _ _ _ _ found

/-- What a resolver has found out after resolving the policies of some classes. -/
def afterAll (earlier : List ClassModel) : Findings :=
  earlier.foldl (fun findings model => (resolver.resolve model findings).2) ⟨.empty, []⟩

/-- After any classes the cache is sound. -/
theorem sound_afterAll (earlier : List ClassModel) :
    (resolver.afterAll earlier).cache.Sound resolver := by
  have step (findings : Findings) (model : ClassModel) (sound : findings.cache.Sound resolver) :
      (resolver.resolve model findings).2.cache.Sound resolver := by
    obtain ⟨later, resolved, laterSound⟩ := resolver.resolve_eq model findings sound
    rw [resolved]
    exact laterSound
  have run (findings : Findings) (sound : findings.cache.Sound resolver) :
      (earlier.foldl (fun findings model => (resolver.resolve model findings).2)
        findings).cache.Sound resolver := by
    induction earlier generalizing findings with
    | nil => exact sound
    | cons model others inductionHypothesis =>
      exact inductionHypothesis _ (step findings model sound)
  exact run _ (PackageCache.sound_empty resolver)

end Resolver

/-! ## Policies -/

/-- Every verdict of a policy is that of the nearest markers: those of the element, then
those of its class, then those of the packages around the class. -/
structure Policy.FollowsNearest (model : ClassModel) (packages : List Markers)
    (policy : Policy) : Prop where
  classVerdict : policy.classVerdict = true ↔ Markers.Forbid (model.markers :: packages)
  fields : List.Forall₂
    (fun field verdict =>
      verdict = true ↔ Markers.Forbid (field.markers :: model.markers :: packages))
    model.fields policy.fields
  parameters : List.Forall₂
    (fun method verdicts => List.Forall₂
      (fun parameter verdict =>
        verdict = true ↔ Markers.Forbid (parameter.markers :: model.markers :: packages))
      method.parameters verdicts.parameters)
    model.methods policy.methods
  results : List.Forall₂
    (fun method verdicts => verdicts.result = true ↔
      Markers.Forbid (method.returnMarkers :: model.markers :: packages))
    model.methods policy.methods

/-- A policy made from the right verdict follows the nearest marker everywhere. -/
theorem Policy.followsNearest_ofPackageVerdict (model : ClassModel) (packages : List Markers)
    (verdict : Bool) (known : verdict = true ↔ Markers.Forbid packages) :
    (ofPackageVerdict model verdict).FollowsNearest model packages := by
  have ofClass := Markers.verdict_iff model.markers verdict packages known
  have ofElement (markers : Markers) :=
    Markers.verdict_iff markers (model.markers.verdict verdict) (model.markers :: packages) ofClass
  constructor
  · exact ofClass
  · apply List.forall₂_map_right_iff.2
    apply List.forall₂_same.2
    intro field _
    exact ofElement field.markers
  · apply List.forall₂_map_right_iff.2
    apply List.forall₂_same.2
    intro method _
    apply List.forall₂_map_right_iff.2
    apply List.forall₂_same.2
    intro parameter _
    exact ofElement parameter.markers
  · apply List.forall₂_map_right_iff.2
    apply List.forall₂_same.2
    intro method _
    exact ofElement method.returnMarkers

namespace Resolver

variable (resolver : Resolver)

/-- Whatever policies have been resolved before, the policy of a class follows the nearest
explicit markers, unless the markers of a package that has a say cannot be read. Then
the failure is that of the outermost such package. The packages that have a say are
those that enclose the class, have a name and lie in the scope, innermost first. -/
theorem resolve_nearest (earlier : List ClassModel) (model : ClassModel) :
    (∀ outer, outer ∈ resolver.scope.packagesAround model.package ↔
        Encloses outer model.package ∧ outer ≠ "" ∧ resolver.scope.contains outer = true) ∧
      (resolver.scope.packagesAround model.package).Pairwise
        (fun inner outer => outer.length < inner.length) ∧
      (∀ failure, ((resolver.resolve model).run (resolver.afterAll earlier)).1 = .error failure ↔
        ∃ inner package outer,
          resolver.scope.packagesAround model.package = inner ++ package :: outer ∧
          resolver.markers package = .error failure ∧
          ∀ other ∈ outer, ∃ markers, resolver.markers other = .ok markers) ∧
      ∀ found, List.Forall₂ (fun package markers => resolver.markers package = .ok markers)
          (resolver.scope.packagesAround model.package) found →
        ∃ policy, ((resolver.resolve model).run (resolver.afterAll earlier)).1 = .ok policy ∧
          policy.FollowsNearest model found := by
  obtain ⟨later, resolved, -⟩ :=
    resolver.resolve_eq model (resolver.afterAll earlier) (resolver.sound_afterAll earlier)
  have result : ((resolver.resolve model).run (resolver.afterAll earlier)).1 =
      (resolver.verdictOn model.package).map (Policy.ofPackageVerdict model) :=
    congrArg Prod.fst resolved
  have isChain := isPackageChain model.package
  rw [result]
  refine ⟨?_, isChain.pairwise.filter _, ?_, ?_⟩
  · intro outer
    rw [RootScope.mem_packagesAround, RootScope.Covers]
  · intro failure
    apply Iff.trans _ (plainVerdict_eq_error isChain failure)
    rw [← verdictOn]
    cases resolver.verdictOn model.package with
    | error other => simp [Except.map]
    | ok verdict => simp [Except.map]
  · intro found each
    obtain ⟨verdict, given, known⟩ := plainVerdict_of_found isChain each
    rw [verdictOn, given]
    exact ⟨_, rfl, Policy.followsNearest_ofPackageVerdict model found verdict known⟩

/-- A root in which `com/shop` allows null inside `com`, which has both markers. -/
def nested : Resolver where
  scope := ⟨"com"⟩
  markers package :=
    if package = "com" then .ok ⟨true, true⟩
    else if package = "com/shop" then .ok ⟨false, true⟩
    else .ok .none

/-- A class without markers, fields and methods. -/
def bareModel (name : String) : ClassModel := ⟨name, false, .none, [], []⟩

/-- A class three packages deep, after another one in a package around it has been resolved.
-/
theorem resolve_nearest_nested :
    List.Forall₂ (fun package markers => nested.markers package = .ok markers)
        (nested.scope.packagesAround "com/shop/cart") [.none, ⟨false, true⟩, ⟨true, true⟩] ∧
      ∃ policy, ((nested.resolve (bareModel "com/shop/cart/Cart")).run
          (nested.afterAll [bareModel "com/shop/Order"])).1 = .ok policy ∧
        policy.FollowsNearest (bareModel "com/shop/cart/Cart")
          [.none, ⟨false, true⟩, ⟨true, true⟩] := by
  have around : nested.scope.packagesAround "com/shop/cart" =
      ["com/shop/cart", "com/shop", "com"] := by decide +kernel
  have found : List.Forall₂ (fun package markers => nested.markers package = .ok markers)
      (nested.scope.packagesAround "com/shop/cart") [.none, ⟨false, true⟩, ⟨true, true⟩] := by
    rw [around]
    exact .cons (by decide) (.cons (by decide) (.cons (by decide) .nil))
  have package : (bareModel "com/shop/cart/Cart").package = "com/shop/cart" := by
    decide +kernel
  refine ⟨found, ?_⟩
  rw [← package] at found
  exact (nested.resolve_nearest [bareModel "com/shop/Order"]
    (bareModel "com/shop/cart/Cart")).2.2.2 _ found

end Resolver

end NullGuard
