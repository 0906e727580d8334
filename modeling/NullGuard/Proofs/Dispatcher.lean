import NullGuard.Proofs.Dispatcher.Stages
import NullGuard.Proofs.Failing.Guard
import NullGuard.Proofs.Failing.Nullness
import NullGuard.Proofs.Nullness.Cache

/-!
# Dispatchers

A host may activate a dispatcher and have it transform classes in any order. What
the dispatcher has once found out it keeps, and whatever it is given it answers: a
class that cannot be woven is handed back with the text of the failure.
-/

namespace NullGuard

open Stateful

namespace Dispatcher

/-! ## What is found out stays -/

/-- Weaving a class forgets no verdict and asks in addition to what has been asked. -/
theorem keeps_weaveClass (scope : RootScope) (lookup : ClassLookup) (name : String)
    (bytes : List UInt8) : Keeps Findings.GrowsTo (weaveClass scope lookup name bytes) := by
  have settled {α : Type} (outcome : Except Failure α) :
      Keeps Findings.GrowsTo (settle outcome : Resolving α) := keeps_settle .refl outcome
  rw [weaveClass_eq]
  refine .bind Findings.GrowsTo.trans (settled _) fun fit => ?_
  split
  · exact keeps_pure .refl _
  · next file model =>
    have resolved : Keeps Findings.GrowsTo
        (Resolver.resolve ⟨scope, packageMarkers lookup⟩ model) :=
      .bind Findings.GrowsTo.trans (Resolver.keeps_chainVerdict _ _) fun _ => keeps_pure .refl _
    exact .bind Findings.GrowsTo.trans (resolved.during _) fun policy => settled _

/-! ## Failures -/

section

variable (lookup : ClassLookup) [∀ name, Ordinary (lookup name)]

/-- Asking the host for the markers of a package fails in ordinary ways, as the host does.
-/
instance (package : String) : Ordinary (packageMarkers lookup package) := by
  unfold packageMarkers
  refine .bind _ fun found => ?_
  split <;> infer_instance

/-- Looking at a class before it is woven fails in ordinary ways. -/
instance (name : String) (bytes : List UInt8) : Ordinary (examined name bytes) := by
  unfold examined
  refine .bind _ fun file => ?_
  split <;> infer_instance

/-- With a policy of its own a class fails in ordinary ways only. -/
theorem ordinary_of_concluded (file : ClassFile) (model : ClassModel) (verdict : Bool)
    (small : file.pool.size ≤ Pool.maxSize) (modelled : ClassModel.ofClass file = .ok model)
    (failure : Failure)
    (failed : concluded file model (Policy.ofPackageVerdict model verdict) = .error failure) :
    failure.Ordinary := by
  rw [concluded] at failed
  cases ran : (weave model (Policy.ofPackageVerdict model verdict)).run file with
  | mk result woven =>
    rw [ran] at failed
    obtain unwoven | ⟨counted, -, unwritten⟩ := (Outcome.bind_eq_error ..).1 failed
    · rw [unwoven] at ran
      exact ordinary_of_weave file woven model _ small modelled
        (aligned_of_ofClass file model modelled verdict) failure ran
    · cases counted with
      | none => cases unwritten
      | some statistics =>
        have writing : Ordinary (do
            return Outcome.rewritten ⟨← during .writeWovenClass woven.written, statistics⟩ :
              Except Failure Outcome) := inferInstance
        exact writing.ordinary failure unwritten

/-- A class that cannot be woven fails in ordinary ways only. -/
theorem ordinary_of_weaveClass (scope : RootScope) (name : String) (bytes : List UInt8)
    (findings after : Findings) (failure : Failure)
    (failed : Fails (weaveClass scope lookup name bytes) findings failure after) :
    failure.Ordinary := by
  rw [weaveClass_eq] at failed
  obtain unfit | ⟨fit, _, examining, resolving⟩ := (fails_bind ..).1 failed
  · exact Ordinary.of_fails _ unfit
  obtain ⟨known, rfl⟩ := (runs_settle ..).1 examining
  split at resolving
  · cases resolving
  · next file model =>
    obtain ⟨parsed, -, modelled⟩ := examined_eq_some name bytes file model known
    obtain unresolved | ⟨policy, _, resolved, unfinished⟩ := (fails_bind ..).1 resolving
    · exact Ordinary.of_fails _ unresolved
    obtain ⟨verdict, -, rfl⟩ := (runs_bind_pure ..).1 ((runs_during ..).1 resolved)
    obtain ⟨failedHere, -⟩ := (fails_settle ..).1 unfinished
    exact ordinary_of_concluded file model verdict (file.size_of_parse bytes parsed) modelled
      failure failedHere

end

/-! ## Calls -/

/-- What a host may ask a dispatcher for. -/
inductive Call
  | activate (root : String)
  | transform (lookup : ClassLookup) (name : String) (bytes : List UInt8)

/-- The dispatcher behind a call. An activation that is refused changes nothing. -/
def after (dispatcher : Dispatcher) : Call → Dispatcher
  | .activate root => (dispatcher.activate root).toOption.getD dispatcher
  | .transform lookup name bytes => (dispatcher.transform lookup name bytes).dispatcher

/-- The dispatcher behind some calls. -/
def afterAll (dispatcher : Dispatcher) (calls : List Call) : Dispatcher :=
  calls.foldl after dispatcher

/-- A root package stays, and so do verdicts. -/
structure Continues (dispatcher later : Dispatcher) : Prop where
  root : ∀ scope, dispatcher.root = some scope → later.root = some scope
  cache : dispatcher.cache.GrowsTo later.cache

namespace Continues

/-- A dispatcher continues itself. -/
theorem refl (dispatcher : Dispatcher) : dispatcher.Continues dispatcher :=
  ⟨fun _ => id, List.prefix_rfl⟩

/-- What continues a continuation continues the first dispatcher. -/
theorem trans {first second third : Dispatcher} (begun : first.Continues second)
    (ended : second.Continues third) : first.Continues third :=
  ⟨fun scope active => ended.root scope (begun.root scope active),
    List.IsPrefix.trans begun.cache ended.cache⟩

end Continues

/-- An activation sets the root package only if there is none. -/
theorem continues_activate (dispatcher activated : Dispatcher) (root : String)
    (ran : dispatcher.activate root = .ok activated) : dispatcher.Continues activated := by
  obtain ⟨scope, -, ran⟩ := (Outcome.bind_eq_ok ..).1 ran
  split at ran
  · cases ran
  · next idle =>
    obtain rfl := Except.ok.inj ran
    refine ⟨fun other active => ?_, List.prefix_rfl⟩
    rw [isActive, active] at idle
    exact (idle rfl).elim

/-- A transformation leaves the root package alone and only adds verdicts. -/
theorem transform_keeps (dispatcher : Dispatcher) (lookup : ClassLookup) (name : String)
    (bytes : List UInt8) :
    (dispatcher.transform lookup name bytes).dispatcher.root = dispatcher.root ∧
      dispatcher.cache.GrowsTo (dispatcher.transform lookup name bytes).dispatcher.cache := by
  obtain ⟨reason, skipped⟩ | ⟨scope, result, findings, -, -, -, ran, transformed⟩ :=
    dispatcher.transform_cases lookup name bytes
  · rw [skipped]
    exact ⟨rfl, List.prefix_rfl⟩
  · rw [transformed]
    have grows := keeps_weaveClass scope lookup name bytes ⟨dispatcher.cache, []⟩
    rw [ran] at grows
    exact ⟨rfl, grows⟩

/-- One call. -/
theorem continues_after (dispatcher : Dispatcher) (call : Call) :
    dispatcher.Continues (dispatcher.after call) := by
  cases call with
  | activate root =>
    rw [after]
    cases ran : dispatcher.activate root with
    | error failure => exact .refl dispatcher
    | ok activated => exact continues_activate dispatcher activated root ran
  | transform lookup name bytes =>
    obtain ⟨root, grows⟩ := dispatcher.transform_keeps lookup name bytes
    exact ⟨fun scope active => root.trans active, grows⟩

/-- Any number of calls. -/
theorem continues_afterAll (dispatcher : Dispatcher) (calls : List Call) :
    dispatcher.Continues (dispatcher.afterAll calls) := by
  induction calls generalizing dispatcher with
  | nil => exact .refl dispatcher
  | cons call others inductionHypothesis =>
    exact (dispatcher.continues_after call).trans (inductionHypothesis _)

/-! ## Answers -/

/-- A failure that is ordinary becomes the text that a class is handed back with. -/
theorem transform_result (dispatcher : Dispatcher) (scope : RootScope) (lookup : ClassLookup)
    (name : String) (bytes : List UInt8) (active : dispatcher.root = some scope)
    (inside : scope.contains name = true) (isClass : Text.endsWith name packageMarkerName = false) :
    (dispatcher.transform lookup name bytes).result =
      tolerate ((weaveClass scope lookup name bytes).run ⟨dispatcher.cache, []⟩).1 := by
  rw [ExceptT.run]
  cases ran : weaveClass scope lookup name bytes ⟨dispatcher.cache, []⟩ with
  | mk result findings => rw [dispatcher.transform_of_weaveClass active inside isClass ran]

/-- An ordinary failure is no failure of the transformation: a class that makes trouble is
left as it is. -/
theorem exists_tolerate (result : Except Failure Outcome)
    (ordinary : ∀ failure, result = .error failure → failure.Ordinary) :
    ∃ outcome, tolerate result = .ok outcome := by
  cases result with
  | ok outcome => exact ⟨outcome, rfl⟩
  | error failure => exact ⟨_, if_neg (Bool.eq_false_iff.1 (ordinary failure rfl))⟩

/-- Every transformation has an outcome. -/
theorem exists_outcome (dispatcher : Dispatcher) (lookup : ClassLookup)
    [∀ sought, Ordinary (lookup sought)] (name : String) (bytes : List UInt8) :
    ∃ outcome, (dispatcher.transform lookup name bytes).result = .ok outcome := by
  obtain ⟨reason, skipped⟩ | ⟨scope, result, findings, -, -, -, ran, transformed⟩ :=
    dispatcher.transform_cases lookup name bytes
  · rw [skipped]
    exact ⟨_, rfl⟩
  · rw [transformed]
    apply exists_tolerate
    rintro failure rfl
    exact ordinary_of_weaveClass lookup scope name bytes _ findings failure ran

/-- Whatever a dispatcher has been through, it answers when it is to transform a class,
provided that the host's own failures are ordinary. A class that cannot be woven is
handed back with the text of the failure. The root package and all verdicts that were
found out stay, and they stay for good. -/
theorem transform_answers (calls : List Call) (lookup : ClassLookup) (name : String)
    (bytes : List UInt8)
    (ordinary : ∀ sought failure, lookup sought = .error failure → failure.isInvariant = false) :
    ∃ outcome, ((idle.afterAll calls).transform lookup name bytes).result = .ok outcome ∧
      (∀ scope failure findings, (idle.afterAll calls).root = some scope →
        scope.contains name = true → Text.endsWith name packageMarkerName = false →
        (weaveClass scope lookup name bytes).run ⟨(idle.afterAll calls).cache, []⟩ =
          (.error failure, findings) →
        outcome = .unchanged (.malformed failure.message)) ∧
      ((idle.afterAll calls).transform lookup name bytes).dispatcher.root =
        (idle.afterAll calls).root ∧
      (idle.afterAll calls).cache.entries <+:
        ((idle.afterAll calls).transform lookup name bytes).dispatcher.cache.entries ∧
      ∀ later package verdict, (idle.afterAll calls).cache.get package = some verdict →
        (((idle.afterAll calls).transform lookup name bytes).dispatcher.afterAll
          later).cache.get package = some verdict := by
  generalize idle.afterAll calls = dispatcher
  have (sought : String) : Ordinary (lookup sought) := ⟨ordinary sought⟩
  obtain ⟨root, grows⟩ := dispatcher.transform_keeps lookup name bytes
  have stays (later : List Call) := (continues_afterAll
    (dispatcher.transform lookup name bytes).dispatcher later).cache
  obtain ⟨outcome, answer⟩ := dispatcher.exists_outcome lookup name bytes
  refine ⟨outcome, answer, ?_, root, grows, ?_⟩
  · intro scope failure findings active inside isClass failed
    have isOrdinary : failure.isInvariant = false :=
      ordinary_of_weaveClass lookup scope name bytes _ findings failure failed
    rw [dispatcher.transform_result scope lookup name bytes active inside isClass, failed, tolerate,
      isOrdinary, if_neg Bool.false_ne_true] at answer
    exact (Except.ok.inj answer).symm
  · intro later package verdict kept
    exact (stays later).get package verdict (grows.get package verdict kept)

/-- A host that finds no class. -/
def offline : ClassLookup := fun _ => .error (Failure.of (.reported "offline"))

/-- A class without members in a package. -/
def bareClass : List UInt8 :=
  Written.u32 ClassFile.magic ++ [0, 0, 0, 49, 0, 3, 1, 0, 3, 114, 47, 65, 7, 0, 1] ++
    [0, 0x21, 0, 2, 0, 0, 0, 0, 0, 0, 0, 0, 0, 0]

/-- The host fails when asked for the package. The class is not woven, no verdict is kept,
and the question is. -/
theorem weaveClass_offline :
    (weaveClass ⟨"r"⟩ offline "r/A" bareClass).run ⟨.empty, []⟩ =
      (.error ⟨[.resolvePolicy], .reported "offline"⟩, ⟨.empty, ["r"]⟩) := by
  rfl

/-- The markers of the package cannot be found out, so the class is handed back. -/
theorem transform_answers_offline :
    (∀ sought failure, offline sought = .error failure → failure.isInvariant = false) ∧
      ((idle.afterAll [.activate "r"]).transform offline "r/A" bareClass).result =
        .ok (.unchanged (.malformed "resolve nullness policy: offline")) := by
  have ordinary (sought : String) (failure : Failure) (failed : offline sought = .error failure) :
      failure.isInvariant = false := by
    obtain rfl := Except.error.inj failed
    rfl
  obtain ⟨outcome, answer, malformed, -⟩ :=
    transform_answers [.activate "r"] offline "r/A" bareClass ordinary
  refine ⟨ordinary, ?_⟩
  rw [answer, malformed ⟨"r"⟩ _ _ (by decide +kernel) (by decide +kernel) (by decide +kernel)
    weaveClass_offline]
  decide +kernel

end Dispatcher

end NullGuard
