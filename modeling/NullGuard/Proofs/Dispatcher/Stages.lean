import NullGuard.Dispatcher
import NullGuard.Proofs.Guard.Weave
import NullGuard.Proofs.Guard.WellFormed

/-!
# The stages of a transformation

A class is examined first, then its policy is resolved, and then it is woven. The first
stage and the last one depend on nothing but the class and its policy; only the second
asks for markers and looks at what was found out before (`weaveClass_eq`).

A class that was rewritten does not get past the first stage again.
-/

namespace NullGuard

namespace Stateful

variable {σ α β : Type}

/-- Outcomes in a row can be taken over one by one. -/
theorem settle_bind (first : Except Failure α) (next : α → Except Failure β) :
    (settle (first >>= next) : ExceptT Failure (StateM σ) β) =
      settle first >>= fun value => settle (next value) := by
  cases first <;> rfl

/-- A choice between outcomes can be made before they are taken over. -/
theorem settle_ite (condition : Prop) [Decidable condition] (first second : Except Failure α) :
    (settle (if condition then first else second) : ExceptT Failure (StateM σ) α) =
      if condition then settle first else settle second := by
  split <;> rfl

end Stateful

namespace Dispatcher

open Stateful

/-- The class that some bytes hold, which has to have the given name, with its model.
A class that is woven already is not looked at any further. -/
def examined (name : String) (bytes : List UInt8) :
    Except Failure (Option (ClassFile × ClassModel)) := do
  let file ← during .parseClassFile (ClassFile.parse bytes)
  if file.isWoven then return none
  let declared ← file.name
  if declared ≠ name then fail (.declaresOther declared)
  return some (file, ← ClassModel.ofClass file)

/-- What becomes of a class with a policy. -/
def concluded (file : ClassFile) (model : ClassModel) (policy : Policy) :
    Except Failure Outcome := do
  let (result, woven) := (weave model policy).run file
  match ← result with
  | none => return .unchanged .nothingToGuard
  | some statistics => return .rewritten ⟨← during .writeWovenClass woven.written, statistics⟩

/-- Only the attribute of woven classes keeps a class from being examined further. -/
theorem examined_of_woven (name : String) (bytes : List UInt8) (file : ClassFile)
    (parsed : ClassFile.parse bytes = .ok file) (woven : file.isWoven = true) :
    examined name bytes = .ok none := by
  simp [examined, parsed, woven, bind, Except.bind, during, tryCatchThe, MonadExceptOf.tryCatch,
    Except.tryCatch, pure, Except.pure]

/-- A class that is still to be woven was read, has the name that was asked for, and has
the model that goes with it. -/
theorem examined_eq_some (name : String) (bytes : List UInt8) (file : ClassFile)
    (model : ClassModel) (fit : examined name bytes = .ok (some (file, model))) :
    ClassFile.parse bytes = .ok file ∧ file.name = .ok name ∧
      ClassModel.ofClass file = .ok model := by
  obtain ⟨file, parsed, rest⟩ := (Outcome.bind_eq_ok ..).1 fit
  rw [Outcome.during_eq_ok] at parsed
  split at rest
  · cases rest
  · obtain ⟨declared, named, rest⟩ := (Outcome.bind_eq_ok ..).1 rest
    dsimp only at rest
    split at rest
    · cases rest
    · next same =>
      obtain ⟨model, modelled, returned⟩ := (Outcome.bind_eq_ok ..).1 rest
      cases returned
      rw [not_not.1 same] at named
      exact ⟨parsed, named, modelled⟩

/-- A class is rewritten if there is something to guard and the woven class can be written. -/
theorem concluded_eq_rewritten (file : ClassFile) (model : ClassModel) (policy : Policy)
    (woven : WovenClass) (done : concluded file model policy = .ok (.rewritten woven)) :
    ∃ grown, Runs (weave model policy) file (some woven.statistics) grown ∧
      grown.written = .ok woven.bytes := by
  obtain ⟨counted, ran, rest⟩ := (Outcome.bind_eq_ok ..).1 done
  cases counted with
  | none => cases rest
  | some statistics =>
    obtain ⟨written, wrote, returned⟩ := (Outcome.bind_eq_ok ..).1 rest
    cases returned
    rw [Outcome.during_eq_ok] at wrote
    exact ⟨_, Prod.ext ran rfl, wrote⟩

/-- What becomes of a class with a policy is not one of the reasons to end early. -/
theorem concluded_ne_unchanged (file : ClassFile) (model : ClassModel) (policy : Policy)
    {reason : SkipReason} (other : reason ≠ .nothingToGuard) :
    concluded file model policy ≠ .ok (.unchanged reason) := by
  intro same
  obtain ⟨counted, -, rest⟩ := (Outcome.bind_eq_ok ..).1 same
  cases counted with
  | none => exact other (Outcome.unchanged.inj (Except.ok.inj rest)).symm
  | some statistics =>
    obtain ⟨written, -, impossible⟩ := (Outcome.bind_eq_ok ..).1 rest
    cases impossible

variable (scope : RootScope) (lookup : ClassLookup) (name : String) (bytes : List UInt8)

/-- The three stages. -/
theorem weaveClass_eq :
    weaveClass scope lookup name bytes = (do
      match ← settle (examined name bytes) with
      | none => return .unchanged .alreadyWoven
      | some (file, model) =>
        let resolver : Resolver := ⟨scope, packageMarkers lookup⟩
        let policy ← during .resolvePolicy (resolver.resolve model)
        settle (concluded file model policy)) := by
  unfold weaveClass examined
  -- Both sides do the same steps in the same order; each step is taken off in turn.
  rw [settle_bind, bind_assoc]
  congr 1
  funext file
  rw [settle_ite]
  split
  · rfl
  · rw [settle_bind, bind_assoc]
    congr 1
    funext declared
    dsimp only
    rw [settle_ite]
    split
    · rfl
    · rw [settle_bind, bind_assoc]
      congr 1
      funext model
      have settled : (settle (pure (some (file, model))) :
          Resolving (Option (ClassFile × ClassModel))) = pure (some (file, model)) := rfl
      rw [settled, pure_bind]
      congr 1
      funext policy
      rw [concluded]
      cases (weave model policy).run file with
      | mk result woven =>
        dsimp only
        rw [settle_bind]
        congr 1
        funext counted
        cases counted with
        | none => rfl
        | some statistics =>
          dsimp only
          rw [settle_bind]
          rfl

variable {name bytes}

/-- Nothing is looked up for a class that is woven already. -/
theorem weaveClass_of_woven (woven : examined name bytes = .ok none) (findings : Findings) :
    weaveClass scope lookup name bytes findings = (.ok (.unchanged .alreadyWoven), findings) := by
  rw [weaveClass_eq, woven]
  rfl

/-- For a class that passes the examination the verdict on its package is sought, and what
becomes of the class goes by that verdict. -/
theorem weaveClass_of_fit {file : ClassFile} {model : ClassModel}
    (fit : examined name bytes = .ok (some (file, model))) (findings : Findings) :
    weaveClass scope lookup name bytes findings =
      (do
        let verdict ← during .resolvePolicy
          (Resolver.packageVerdict ⟨scope, packageMarkers lookup⟩ model.package findings).1
        concluded file model (Policy.ofPackageVerdict model verdict),
      (Resolver.packageVerdict ⟨scope, packageMarkers lookup⟩ model.package findings).2) := by
  have begun : (settle (.ok (some (file, model))) :
      Resolving (Option (ClassFile × ClassModel))) findings =
        (.ok (some (file, model)), findings) := rfl
  rw [weaveClass_eq, fit, bind_ok _ _ _ _ _ begun]
  dsimp only
  generalize (⟨scope, packageMarkers lookup⟩ : Resolver) = resolver
  have named := during_apply .resolvePolicy (resolver.resolve model) findings
  cases asked : resolver.packageVerdict model.package findings with
  | mk result later =>
    cases result with
    | error failure =>
      have resolved : resolver.resolve model findings = (.error failure, later) :=
        bind_error _ _ _ _ _ asked
      rw [resolved] at named
      rw [bind_error _ _ _ _ _ named]
      rfl
    | ok verdict =>
      have resolved : resolver.resolve model findings =
          (.ok (Policy.ofPackageVerdict model verdict), later) := bind_ok _ _ _ _ _ asked
      rw [resolved] at named
      rw [bind_ok _ _ _ _ _ named]
      rfl

/-- A class that is rewritten was read under its name, and then its woven form was
written. -/
theorem of_rewritten (findings later : Findings) (woven : WovenClass)
    (ran : Runs (weaveClass scope lookup name bytes) findings (.rewritten woven) later) :
    ∃ file model policy grown, ClassFile.parse bytes = .ok file ∧ file.name = .ok name ∧
      Runs (weave model policy) file (some woven.statistics) grown ∧
      grown.written = .ok woven.bytes := by
  rw [weaveClass_eq, runs_settle_bind] at ran
  obtain ⟨fit, known, ran⟩ := ran
  cases fit with
  | none => cases ran
  | some fit =>
    obtain ⟨file, model⟩ := fit
    obtain ⟨policy, middle, -, ran⟩ := (runs_bind ..).1 ran
    obtain ⟨done, -⟩ := (runs_settle ..).1 ran
    obtain ⟨parsed, named, -⟩ := examined_eq_some name bytes file model known
    obtain ⟨grown, grew, wrote⟩ := concluded_eq_rewritten file model policy woven done
    exact ⟨file, model, policy, grown, parsed, named, grew, wrote⟩

/-! ## Calls of a dispatcher -/

/-- A class inside the root package that is not there for its package. -/
theorem transform_of_weaveClass (dispatcher : Dispatcher) {scope lookup}
    (active : dispatcher.root = some scope) (inside : scope.contains name = true)
    (isClass : Text.endsWith name packageMarkerName = false) {result : Except Failure Outcome}
    {findings : Findings}
    (ran : weaveClass scope lookup name bytes ⟨dispatcher.cache, []⟩ = (result, findings)) :
    dispatcher.transform lookup name bytes =
      ⟨tolerate result, findings.consulted.map packageMarkerClass,
        { dispatcher with cache := findings.cache }⟩ := by
  simp only [transform, active, inside, isClass, Bool.not_true, Bool.false_eq_true, if_false]
  rw [ExceptT.run, ran]

/-- A class is either handed back at once, and nothing happens, or weaving it is tried. -/
theorem transform_cases (dispatcher : Dispatcher) (lookup : ClassLookup) (name : String)
    (bytes : List UInt8) :
    (∃ reason, dispatcher.transform lookup name bytes =
        ⟨.ok (.unchanged reason), [], dispatcher⟩) ∨
      ∃ scope result findings, dispatcher.root = some scope ∧ scope.contains name = true ∧
        Text.endsWith name packageMarkerName = false ∧
        weaveClass scope lookup name bytes ⟨dispatcher.cache, []⟩ = (result, findings) ∧
        dispatcher.transform lookup name bytes =
          ⟨tolerate result, findings.consulted.map packageMarkerClass,
            { dispatcher with cache := findings.cache }⟩ := by
  obtain active | ⟨scope, active⟩ := Option.eq_none_or_eq_some dispatcher.root
  · refine .inl ⟨.notActive, ?_⟩
    rw [transform, active]
  · by_cases inside : scope.contains name = true
    · by_cases isMarker : Text.endsWith name packageMarkerName = true
      · refine .inl ⟨.packageMarker, ?_⟩
        simp [transform, active, inside, isMarker]
      · have isClass := Bool.eq_false_iff.2 isMarker
        cases ran : weaveClass scope lookup name bytes ⟨dispatcher.cache, []⟩ with
        | mk result findings =>
          exact .inr ⟨scope, result, findings, active, inside, isClass, ran,
            dispatcher.transform_of_weaveClass active inside isClass ran⟩
    · refine .inl ⟨.outOfScope, ?_⟩
      simp [transform, active, inside]

/-- What is rewritten in the end has been rewritten, and was not tolerated. -/
theorem tolerate_eq_rewritten (result : Except Failure Outcome) (woven : WovenClass)
    (tolerated : tolerate result = .ok (.rewritten woven)) : result = .ok (.rewritten woven) := by
  cases result with
  | ok outcome => exact tolerated
  | error failure =>
    rw [tolerate] at tolerated
    split at tolerated
    · cases tolerated
    · cases tolerated

/-- What is left unchanged for another reason than being malformed was not tolerated. -/
theorem tolerate_eq_unchanged {result : Except Failure Outcome} {reason : SkipReason}
    (other : ∀ message, reason ≠ .malformed message)
    (tolerated : tolerate result = .ok (.unchanged reason)) :
    result = .ok (.unchanged reason) := by
  cases result with
  | ok outcome => exact tolerated
  | error failure =>
    rw [tolerate] at tolerated
    split at tolerated
    · cases tolerated
    · exact (other _ (Outcome.unchanged.inj (Except.ok.inj tolerated)).symm).elim

/-- Only classes inside the root package are rewritten. -/
theorem runs_of_rewritten (dispatcher : Dispatcher) (lookup : ClassLookup) (woven : WovenClass)
    (rewritten : (dispatcher.transform lookup name bytes).result = .ok (.rewritten woven)) :
    Text.endsWith name packageMarkerName = false ∧
      ∃ scope later, Runs (weaveClass scope lookup name bytes) ⟨dispatcher.cache, []⟩
        (.rewritten woven) later := by
  obtain ⟨reason, skipped⟩ | ⟨scope, result, findings, -, -, isClass, ran, transformed⟩ :=
    dispatcher.transform_cases lookup name bytes
  · rw [skipped] at rewritten
    cases rewritten
  · rw [transformed] at rewritten
    rw [tolerate_eq_rewritten result woven rewritten] at ran
    exact ⟨isClass, scope, findings, ran⟩

/-- A class is woven once. What a dispatcher has made of a class is read as a class of the
same name, and every dispatcher that has the class inside its root package hands it back
as woven already, looks nothing up for it and stays as it is. The name of such a class
is never that of a package marker. -/
theorem transform_rewritten (dispatcher : Dispatcher) (lookup : ClassLookup) (name : String)
    (bytes : List UInt8) (woven : WovenClass)
    (rewritten : (dispatcher.transform lookup name bytes).result = .ok (.rewritten woven)) :
    ∃ file, ClassFile.parse woven.bytes = .ok file ∧ file.name = .ok name ∧
      ∀ (other : Dispatcher) (scope : RootScope) (otherLookup : ClassLookup),
        other.root = some scope → scope.contains name = true →
        other.transform otherLookup name woven.bytes =
          ⟨.ok (.unchanged .alreadyWoven), [], other⟩ := by
  obtain ⟨isClass, scope, later, ran⟩ := runs_of_rewritten dispatcher lookup woven rewritten
  obtain ⟨file, model, policy, grown, parsed, named, grew, wrote⟩ :=
    of_rewritten scope lookup _ later woven ran
  obtain ⟨parsedAgain, namedAgain, marked⟩ :=
    parse_of_weave bytes woven.bytes file grown model policy woven.statistics name parsed named
      grew wrote
  refine ⟨grown, parsedAgain, namedAgain, ?_⟩
  intro other otherScope otherLookup active inside
  have again := examined_of_woven name woven.bytes grown parsedAgain marked
  exact transform_of_weaveClass other active inside isClass
    (weaveClass_of_woven otherScope otherLookup again ⟨other.cache, []⟩)

/-- A class with a field and without markers. -/
def fieldClass : List UInt8 :=
  Written.u32 ClassFile.magic ++ [0, 0, 0, 49, 0, 5] ++
    holderText "r/A" ++ [7, 0, 1] ++ holderText "f" ++ holderText "Ljava/lang/Object;" ++
    [0, 0x21, 0, 2, 0, 0, 0, 0, 0, 1, 0, 0, 0, 3, 0, 4, 0, 0, 0, 0, 0, 0]

/-- The class that stands for its package, on which the marker is that forbids null. -/
def packageClass : List UInt8 :=
  Written.u32 ClassFile.magic ++ [0, 0, 0, 49, 0, 5] ++
    holderText "r/package-info" ++ [7, 0, 1] ++ holderText "RuntimeVisibleAnnotations" ++
    holderText Markers.notNullType ++
    [0x16, 0, 0, 2, 0, 0, 0, 0, 0, 0, 0, 0, 0, 1, 0, 3, 0, 0, 0, 6, 0, 1, 0, 4, 0, 0]

/-- A host that has the class of the package. -/
def packageLookup : ClassLookup := fun name =>
  .ok (if name = "r/package-info" then some packageClass else none)

/-- The package forbids null, so the class is rewritten. -/
theorem exists_woven_fieldClass : ∃ woven,
    (transform ⟨some ⟨"r"⟩, .empty⟩ packageLookup "r/A" fieldClass).result =
      .ok (.rewritten woven) := by
  have rewritten : ((transform ⟨some ⟨"r"⟩, .empty⟩ packageLookup "r/A"
      fieldClass).result.toOption.bind Outcome.woven?).isSome = true := by decide +kernel
  cases result : (transform ⟨some ⟨"r"⟩, .empty⟩ packageLookup "r/A" fieldClass).result with
  | error failure =>
    rw [result] at rewritten
    cases rewritten
  | ok outcome =>
    rw [result] at rewritten
    cases outcome with
    | unchanged reason => cases rewritten
    | rewritten woven => exact ⟨woven, rfl⟩

/-- A class is rewritten; every dispatcher then leaves the result alone and asks nobody. -/
theorem transform_rewritten_fieldClass : ∃ woven file,
    (transform ⟨some ⟨"r"⟩, .empty⟩ packageLookup "r/A" fieldClass).result =
        .ok (.rewritten woven) ∧
      ClassFile.parse woven.bytes = .ok file ∧ file.name = .ok "r/A" ∧
      ∀ (other : Dispatcher) (scope : RootScope) (otherLookup : ClassLookup),
        other.root = some scope → scope.contains "r/A" = true →
        other.transform otherLookup "r/A" woven.bytes =
          ⟨.ok (.unchanged .alreadyWoven), [], other⟩ := by
  obtain ⟨woven, rewritten⟩ := exists_woven_fieldClass
  obtain ⟨file, parsed, named, again⟩ :=
    transform_rewritten ⟨some ⟨"r"⟩, .empty⟩ packageLookup "r/A" fieldClass woven rewritten
  exact ⟨woven, file, rewritten, parsed, named, again⟩

end Dispatcher

end NullGuard
