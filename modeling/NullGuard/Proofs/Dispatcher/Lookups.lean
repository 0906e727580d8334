import Mathlib.Data.List.Count
import Mathlib.Data.List.Nodup
import NullGuard.Proofs.Dispatcher

/-!
# What a dispatcher looks up

With every package a cache has verdicts on all packages around it that have a say
(`PackageCache.Closed`). So when a verdict is sought, the packages whose verdicts are
missing are the inner ones of a chain, and they are asked from the outermost one inwards
until one of them cannot be (`Resolver.chainVerdict_leaves`). Whoever answers has a
verdict from then on and is not asked again, so a host that does not change its mind is
asked once for every package whose markers can be read.

An activation goes through once, and only behind it anything is looked up at all.
-/

namespace NullGuard

open Stateful

/-! ## Packages around packages -/

/-- A package that encloses another one has no longer name. -/
theorem Encloses.length_le {outer package : String} (encloses : Encloses outer package) :
    outer.length ≤ package.length := by
  obtain rfl | ⟨inner, rfl⟩ := encloses
  · exact Nat.le_refl _
  · rw [String.length_append, String.length_append]
    omega

/-- What encloses an enclosing package encloses. -/
theorem Encloses.trans {outer middle package : String} (first : Encloses outer middle)
    (second : Encloses middle package) : Encloses outer package := by
  obtain rfl | ⟨inner, rfl⟩ := second
  · exact first
  · obtain rfl | ⟨between, rfl⟩ := first
    · exact .inr ⟨inner, rfl⟩
    · exact .inr ⟨between ++ "/" ++ inner, by simp only [String.append_assoc]⟩

/-- With a package its chain lies in a chain. -/
theorem IsPackageChain.mem_of_encloses {chain : List String} (isChain : IsPackageChain chain)
    {package outer : String} (member : package ∈ chain) (encloses : Encloses outer package) :
    outer ∈ chain := by
  cases chain with
  | nil => cases member
  | cons first around =>
    rw [isChain, mem_packageChain] at member ⊢
    exact encloses.trans member

/-! ## Verdicts that are missing -/

namespace PackageCache

variable (cache : PackageCache) (scope : RootScope)

/-- The packages that have a verdict, in the order in which it was found. -/
def known : List String := cache.entries.map Prod.fst

/-- A package without a verdict is one that the cache does not know. -/
theorem get_eq_none_iff (package : String) : cache.get package = none ↔ package ∉ cache.known := by
  rw [get, List.lookup_eq_none_iff, known, List.mem_map]
  constructor
  · rintro none ⟨entry, member, rfl⟩
    simpa using none entry member
  · intro unknown entry member
    rw [bne_iff_ne]
    rintro rfl
    exact unknown ⟨entry, member, rfl⟩

variable {cache}

/-- A verdict on another package goes behind the others. -/
theorem known_insert {package : String} (unknown : package ∉ cache.known) (verdict : Bool) :
    (cache.insert package verdict).2.known = cache.known ++ [package] := by
  rw [insert, (cache.get_eq_none_iff package).2 unknown]
  simp [known]

variable (cache)

/-- With a package those around it are known that have a say. -/
def Closed : Prop :=
  ∀ package ∈ cache.known, ∀ outer, Encloses outer package → scope.Covers outer →
    outer ∈ cache.known

/-- The packages of a chain that have a say but no verdict, outermost first. -/
def missing (chain : List String) : List String :=
  (chain.filter fun package => decide (scope.Covers package ∧ package ∉ cache.known)).reverse

variable {cache scope}

/-- A package of a chain is missing if it has a say and is not known. -/
theorem mem_missing {chain : List String} {package : String} :
    package ∈ cache.missing scope chain ↔
      package ∈ chain ∧ scope.Covers package ∧ package ∉ cache.known := by
  simp [missing]

/-- An unknown package is the innermost, and so the last, of those that are missing. -/
theorem missing_cons_unknown {package : String} {around : List String}
    (covers : scope.Covers package) (unknown : package ∉ cache.known) :
    cache.missing scope (package :: around) = cache.missing scope around ++ [package] := by
  simp [missing, covers, unknown]

/-- Around a package without a say nobody is missing. -/
theorem missing_of_outside {package : String} {around : List String}
    (chain : IsPackageChain (package :: around)) (outside : ¬ scope.Covers package) :
    cache.missing scope (package :: around) = [] := by
  apply List.eq_nil_iff_forall_not_mem.2
  intro outer member
  obtain ⟨inside, covers, -⟩ := mem_missing.1 member
  rw [chain, mem_packageChain] at inside
  exact outside (covers.of_encloses inside)

/-- Around a package that is known nobody is missing. -/
theorem Closed.missing_of_known (closed : cache.Closed scope) {package : String}
    {around : List String} (chain : IsPackageChain (package :: around))
    (known : package ∈ cache.known) : cache.missing scope (package :: around) = [] := by
  apply List.eq_nil_iff_forall_not_mem.2
  intro outer member
  obtain ⟨inside, covers, unknown⟩ := mem_missing.1 member
  rw [chain, mem_packageChain] at inside
  exact unknown (closed package known outer inside covers)

/-- A cache that knows nothing is closed. -/
theorem closed_of_known_eq_nil (none : cache.known = []) : cache.Closed scope := by
  intro package member
  rw [none] at member
  cases member

variable (cache scope) in
/-- The names of the missing packages get longer. -/
theorem pairwise_missing {chain : List String} (isChain : IsPackageChain chain) :
    (cache.missing scope chain).Pairwise fun outer inner => outer.length < inner.length := by
  rw [missing, List.pairwise_reverse]
  exact isChain.pairwise.filter _

end PackageCache

/-! ## Asking for what is missing -/

namespace Resolver

variable (resolver : Resolver) (cache : PackageCache) (chain : List String)

/-- Whether the markers of a package can be had. -/
def answers (package : String) : Bool := (resolver.markers package).isOk

/-- The packages that get a verdict: the missing ones from the outermost one inwards, up
to the first whose markers cannot be had. -/
def learned : List String := (cache.missing resolver.scope chain).takeWhile resolver.answers

/-- The packages that are asked: those that get a verdict and then the one that does not. -/
def asked : List String :=
  (cache.missing resolver.scope chain).take ((resolver.learned cache chain).length + 1)

/-- Verdicts are learned from the outermost package on, without a gap. -/
theorem learned_isPrefix :
    resolver.learned cache chain <+: cache.missing resolver.scope chain := List.takeWhile_prefix _

variable {chain} in
/-- Nobody is asked twice. -/
theorem nodup_asked (isChain : IsPackageChain chain) : (resolver.asked cache chain).Nodup := by
  have ordered := (cache.pairwise_missing resolver.scope isChain).sublist
    (List.take_sublist ((resolver.learned cache chain).length + 1) _)
  refine ordered.imp fun shorter same => ?_
  rw [same] at shorter
  exact Nat.lt_irrefl _ shorter

variable {resolver cache chain}

/-- Nobody is asked who is not missing. -/
theorem mem_missing_of_mem_asked {package : String}
    (member : package ∈ resolver.asked cache chain) :
    package ∈ cache.missing resolver.scope chain := List.mem_of_mem_take member

/-- If nobody is missing, nobody is asked. -/
theorem asked_of_missing_eq_nil (none : cache.missing resolver.scope chain = []) :
    resolver.learned cache chain = [] ∧ resolver.asked cache chain = [] := by
  simp [asked, learned, none]

/-- Whoever is asked and answers gets a verdict. -/
theorem mem_learned_of_answers {package : String}
    (member : package ∈ resolver.asked cache chain) (answers : resolver.answers package = true) :
    package ∈ resolver.learned cache chain := by
  have whole : resolver.learned cache chain ++
      (cache.missing resolver.scope chain).dropWhile resolver.answers =
        cache.missing resolver.scope chain := List.takeWhile_append_dropWhile
  rw [asked, ← whole, List.take_length_add_append] at member
  obtain inside | first := List.mem_append.1 member
  · exact inside
  · have silent := List.head?_dropWhile_not resolver.answers
      (cache.missing resolver.scope chain)
    cases rest : (cache.missing resolver.scope chain).dropWhile resolver.answers with
    | nil => simp [rest] at first
    | cons other others =>
      rw [rest] at first silent
      obtain rfl : package = other := by simpa using first
      simp [answers] at silent

/-! ### One more package in front of the chain -/

section

variable {package : String} {around : List String}
  (covers : resolver.scope.Covers package) (unknown : package ∉ cache.known)
include covers unknown

/-- If somebody further out cannot be asked, a package is not asked either. -/
theorem asked_of_stopped
    (stopped : resolver.learned cache around ≠ cache.missing resolver.scope around) :
    resolver.learned cache (package :: around) = resolver.learned cache around ∧
      resolver.asked cache (package :: around) = resolver.asked cache around ∧
      resolver.learned cache (package :: around) ≠
        cache.missing resolver.scope (package :: around) := by
  have shorter : (resolver.learned cache around).length <
      (cache.missing resolver.scope around).length :=
    Nat.lt_of_le_of_ne (resolver.learned_isPrefix cache around).length_le fun same =>
      stopped ((resolver.learned_isPrefix cache around).eq_of_length same)
  have learnedSame : resolver.learned cache (package :: around) =
      resolver.learned cache around := by
    have lengths := Nat.ne_of_lt shorter
    rw [learned] at lengths
    rw [learned, PackageCache.missing_cons_unknown covers unknown, List.takeWhile_append,
      if_neg lengths, learned]
  refine ⟨learnedSame, ?_, ?_⟩
  · rw [asked, asked, learnedSame, PackageCache.missing_cons_unknown covers unknown,
      List.take_append_of_le_length shorter]
  · intro same
    rw [same, PackageCache.missing_cons_unknown covers unknown] at learnedSame
    rw [← learnedSame, List.length_append] at shorter
    omega

/-- If all further out have answered, a package is asked. -/
theorem asked_of_through
    (through : resolver.learned cache around = cache.missing resolver.scope around) :
    resolver.learned cache (package :: around) =
        cache.missing resolver.scope around ++ [package].takeWhile resolver.answers ∧
      resolver.asked cache around = cache.missing resolver.scope around ∧
      resolver.asked cache (package :: around) =
        cache.missing resolver.scope around ++ [package] := by
  have learnedMore : resolver.learned cache (package :: around) =
      cache.missing resolver.scope around ++ [package].takeWhile resolver.answers := by
    have length := congrArg List.length through
    rw [learned] at length
    rw [learned, PackageCache.missing_cons_unknown covers unknown, List.takeWhile_append,
      if_pos length]
  refine ⟨learnedMore, ?_, ?_⟩
  · rw [asked, through, List.take_of_length_le (Nat.le_succ _)]
  · rw [asked, PackageCache.missing_cons_unknown covers unknown, learnedMore,
      List.take_of_length_le (by simp)]

end

/-- A cache stays closed when it learns what it misses. -/
theorem closed_of_learned {later : PackageCache} (closed : cache.Closed resolver.scope)
    (isChain : IsPackageChain chain)
    (grown : later.known = cache.known ++ resolver.learned cache chain) :
    later.Closed resolver.scope := by
  intro package member outer encloses covers
  rw [grown, List.mem_append] at member ⊢
  obtain known | fresh := member
  · exact .inl (closed package known outer encloses covers)
  · rw [or_iff_not_imp_left]
    intro unknown
    obtain ⟨behind, split⟩ := resolver.learned_isPrefix cache chain
    have inside := (PackageCache.mem_missing.1
      ((resolver.learned_isPrefix cache chain).subset fresh)).1
    have outerMissing : outer ∈ cache.missing resolver.scope chain :=
      PackageCache.mem_missing.2 ⟨isChain.mem_of_encloses inside encloses, covers, unknown⟩
    rw [← split, List.mem_append] at outerMissing
    -- What is missing further in has a longer name, but the outer package has not.
    have ordered := cache.pairwise_missing resolver.scope isChain
    rw [← split, List.pairwise_append] at ordered
    refine outerMissing.resolve_right fun later => ?_
    exact Nat.not_lt.2 encloses.length_le (ordered.2.2 package fresh outer later)

/-- What has been found out on the way to the verdict on the first package of a chain.
There is a verdict if everybody who was missing has answered. -/
structure Leaves (resolver : Resolver) (findings : Findings) (chain : List String)
    (left : Except Failure Bool × Findings) : Prop where
  consulted : left.2.consulted = findings.consulted ++ resolver.asked findings.cache chain
  known : left.2.cache.known = findings.cache.known ++ resolver.learned findings.cache chain
  isOk_iff : left.1.isOk = true ↔
    resolver.learned findings.cache chain = findings.cache.missing resolver.scope chain

/-- Where nobody is missing, the verdict is there at once. -/
theorem leaves_of_missing_eq_nil {findings : Findings} (verdict : Bool)
    (none : findings.cache.missing resolver.scope chain = []) :
    resolver.Leaves findings chain (.ok verdict, findings) := by
  obtain ⟨learnedNone, askedNone⟩ := asked_of_missing_eq_nil none
  constructor
  · simp [askedNone]
  · simp [learnedNone]
  · simp [learnedNone, none, Except.isOk, Except.toBool]

section

variable {findings middle : Findings} {package : String} {around : List String}
  (covers : resolver.scope.Covers package) (unknown : package ∉ findings.cache.known)
include covers unknown

/-- Without a verdict further out there is none on the package, and it is not asked. -/
theorem Leaves.of_stopped {failure : Failure}
    (outer : resolver.Leaves findings around (.error failure, middle)) :
    resolver.Leaves findings (package :: around) (.error failure, middle) := by
  have stopped : resolver.learned findings.cache around ≠
      findings.cache.missing resolver.scope around := fun through =>
    Bool.false_ne_true (outer.isOk_iff.2 through)
  obtain ⟨learnedSame, askedSame, still⟩ := asked_of_stopped covers unknown stopped
  constructor
  · rw [askedSame]
    exact outer.consulted
  · rw [learnedSame]
    exact outer.known
  · exact ⟨fun impossible => (Bool.false_ne_true impossible).elim,
      fun through => (still through).elim⟩

/-- The package is asked after those further out, but its markers cannot be had. -/
theorem Leaves.of_silent {inherited : Bool} {failure : Failure}
    (outer : resolver.Leaves findings around (.ok inherited, middle))
    (silent : resolver.answers package = false) :
    resolver.Leaves findings (package :: around)
      (.error failure, { middle with consulted := middle.consulted ++ [package] }) := by
  have through := outer.isOk_iff.1 rfl
  obtain ⟨learnedMore, askedAll, askedMore⟩ := asked_of_through covers unknown through
  rw [List.takeWhile_cons_of_neg (by simp [silent]), List.append_nil] at learnedMore
  constructor
  · rw [askedMore, ← List.append_assoc, ← askedAll, ← outer.consulted]
  · rw [learnedMore, ← through]
    exact outer.known
  · rw [learnedMore, PackageCache.missing_cons_unknown covers unknown]
    simp [Except.isOk, Except.toBool]

/-- The package is asked after those further out, and there is a verdict on it. -/
theorem Leaves.of_answered {inherited verdict : Bool} (elsewhere : package ∉ around)
    (outer : resolver.Leaves findings around (.ok inherited, middle))
    (answered : resolver.answers package = true) :
    resolver.Leaves findings (package :: around)
      (.ok (middle.cache.insert package verdict).1,
        { cache := (middle.cache.insert package verdict).2
          consulted := middle.consulted ++ [package] }) := by
  have through := outer.isOk_iff.1 rfl
  obtain ⟨learnedMore, askedAll, askedMore⟩ := asked_of_through covers unknown through
  rw [List.takeWhile_cons_of_pos answered, List.takeWhile_nil] at learnedMore
  have fresh : package ∉ middle.cache.known := by
    rw [outer.known, through, List.mem_append, PackageCache.mem_missing]
    tauto
  constructor
  · rw [askedMore, ← List.append_assoc, ← askedAll, ← outer.consulted]
  · rw [PackageCache.known_insert fresh, learnedMore, ← List.append_assoc, ← through,
      ← outer.known]
  · rw [learnedMore, PackageCache.missing_cons_unknown covers unknown]
    simp [Except.isOk, Except.toBool]

end

variable (resolver) in

/-- On the way to a verdict the missing packages are asked from the outermost one on, up to
the first that does not answer. The induction is on the chain; the cache is closed, so a
package that is known leaves nothing missing around it. -/
theorem leaves_chainVerdict (findings : Findings) (isChain : IsPackageChain chain)
    (closed : findings.cache.Closed resolver.scope) :
    resolver.Leaves findings chain (resolver.chainVerdict chain findings) := by
  induction chain with
  | nil => exact leaves_of_missing_eq_nil false rfl
  | cons package around inductionHypothesis =>
    by_cases covers : resolver.scope.Covers package
    · rw [chainVerdict_covered around covers]
      cases kept : findings.cache.get package with
      | some verdict =>
        have known : package ∈ findings.cache.known := by
          refine not_not.1 fun unknown => ?_
          rw [(findings.cache.get_eq_none_iff package).2 unknown] at kept
          cases kept
        exact leaves_of_missing_eq_nil verdict (closed.missing_of_known isChain known)
      | none =>
        have unknown := (findings.cache.get_eq_none_iff package).1 kept
        have elsewhere : package ∉ around := fun inside =>
          Nat.lt_irrefl _ ((List.pairwise_cons.1 isChain.pairwise).1 package inside)
        have outer := inductionHypothesis isChain.tail
        dsimp only
        cases found : resolver.chainVerdict around findings with
        | mk result middle =>
          rw [found] at outer
          cases result with
          | error failure => exact outer.of_stopped covers unknown
          | ok inherited =>
            cases asked : resolver.markers package with
            | error failure => exact outer.of_silent covers unknown (by rw [answers, asked]; rfl)
            | ok markers =>
              exact outer.of_answered covers unknown elsewhere (by rw [answers, asked]; rfl)
    · rw [chainVerdict_outside around covers]
      exact leaves_of_missing_eq_nil false (PackageCache.missing_of_outside isChain covers)

end Resolver

/-! ## One transformation -/

namespace Dispatcher

section

variable {name : String} {bytes : List UInt8}

/-- A class that does not pass the examination needs no verdict. -/
theorem weaveClass_snd_of_unfit (scope : RootScope) (lookup : ClassLookup) (findings : Findings)
    (unfit : ∀ fit, examined name bytes ≠ .ok (some fit)) :
    (weaveClass scope lookup name bytes findings).2 = findings := by
  cases known : examined name bytes with
  | error failure =>
    rw [weaveClass_eq, known]
    rfl
  | ok fit =>
    cases fit with
    | none => rw [weaveClass_of_woven scope lookup known]
    | some fit => exact (unfit fit known).elim

end

variable (dispatcher : Dispatcher) (lookup : ClassLookup) (name : String) (bytes : List UInt8)

/-- The policy of a class is needed: the class lies in the scope, is not there for its
package, and passes the examination. -/
structure Reaches (scope : RootScope) : Prop where
  active : dispatcher.root = some scope
  inside : scope.contains name = true
  isClass : Text.endsWith name packageMarkerName = false
  fit : ∃ fit, examined name bytes = .ok (some fit)

/-- A transformation ends before the policy of the class is needed: for one of four
reasons the class is handed back, or it cannot be read, or has another name, or there is no
model of it. -/
def EndsEarly : Prop :=
  (∃ reason ∈ [SkipReason.notActive, .outOfScope, .packageMarker, .alreadyWoven],
    (dispatcher.transform lookup name bytes).result = .ok (.unchanged reason)) ∨
  ∃ failure, examined name bytes = .error failure

variable {dispatcher name bytes}

/-- The verdict on the package of the class is sought, and the rest goes by it. -/
theorem Reaches.transform {scope : RootScope} (reaches : dispatcher.Reaches name bytes scope) :
    ∃ file model, ∃ ask : Except Failure Bool × Findings,
      Resolver.packageVerdict ⟨scope, packageMarkers lookup⟩ (packageOf name)
        ⟨dispatcher.cache, []⟩ = ask ∧
      dispatcher.transform lookup name bytes =
        ⟨tolerate (do
            let verdict ← during .resolvePolicy ask.1
            concluded file model (Policy.ofPackageVerdict model verdict)),
          ask.2.consulted.map packageMarkerClass, { dispatcher with cache := ask.2.cache }⟩ := by
  obtain ⟨⟨file, model⟩, fit⟩ := reaches.fit
  have ran := weaveClass_of_fit scope lookup fit ⟨dispatcher.cache, []⟩
  obtain ⟨-, named, modelled⟩ := examined_eq_some name bytes file model fit
  have called := (ClassModel.models_of_ofClass file model modelled).name
  rw [named] at called
  obtain rfl := Except.ok.inj called
  exact ⟨file, model, _, rfl,
    dispatcher.transform_of_weaveClass reaches.active reaches.inside reaches.isClass ran⟩

/-- A transformation that does not need the policy of the class looks nothing up and leaves
the dispatcher as it is. -/
theorem transform_of_not_reaches (short : ∀ scope, ¬ dispatcher.Reaches name bytes scope) :
    (dispatcher.transform lookup name bytes).lookups = [] ∧
      (dispatcher.transform lookup name bytes).dispatcher = dispatcher := by
  obtain ⟨reason, skipped⟩ | ⟨scope, result, findings, active, inside, isClass, ran, transformed⟩ :=
    dispatcher.transform_cases lookup name bytes
  · rw [skipped]
    exact ⟨rfl, rfl⟩
  · have unfit (fit) : examined name bytes ≠ .ok (some fit) := fun fit =>
      short scope ⟨active, inside, isClass, _, fit⟩
    have same := weaveClass_snd_of_unfit scope lookup ⟨dispatcher.cache, []⟩ unfit
    rw [ran] at same
    obtain rfl : findings = ⟨dispatcher.cache, []⟩ := same
    rw [transformed]
    exact ⟨rfl, rfl⟩

/-- Whether a transformation ends early can be told from what it gives. -/
theorem endsEarly_iff :
    dispatcher.EndsEarly lookup name bytes ↔ ∀ scope, ¬ dispatcher.Reaches name bytes scope := by
  constructor
  · rintro (⟨reason, member, ended⟩ | ⟨failure, unexamined⟩) scope reaches
    · obtain ⟨file, model, ask, -, transformed⟩ := reaches.transform lookup
      have other : reason ≠ .nothingToGuard ∧ ∀ message, reason ≠ .malformed message := by
        rw [List.mem_cons, List.mem_cons, List.mem_cons, List.mem_singleton] at member
        rcases member with rfl | rfl | rfl | rfl <;> simp
      rw [transformed] at ended
      obtain ⟨verdict, -, concludes⟩ :=
        (Outcome.bind_eq_ok ..).1 (tolerate_eq_unchanged other.2 ended)
      exact concluded_ne_unchanged file model _ other.1 concludes
    · obtain ⟨fit, examines⟩ := reaches.fit
      rw [unexamined] at examines
      cases examines
  · intro short
    cases examines : examined name bytes with
    | error failure => exact .inr ⟨failure, examines⟩
    | ok fit =>
      left
      obtain none | ⟨scope, active⟩ := Option.eq_none_or_eq_some dispatcher.root
      · exact ⟨.notActive, by simp, by rw [transform, none]⟩
      · cases inside : scope.contains name with
        | false => exact ⟨.outOfScope, by simp, by simp [transform, active, inside]⟩
        | true =>
          cases isMarker : Text.endsWith name packageMarkerName with
          | true => exact ⟨.packageMarker, by simp, by simp [transform, active, inside, isMarker]⟩
          | false =>
            cases fit with
            | some fit => exact (short scope ⟨active, inside, isMarker, fit, examines⟩).elim
            | none =>
              have ran := weaveClass_of_woven scope lookup examines ⟨dispatcher.cache, []⟩
              rw [dispatcher.transform_of_weaveClass active inside isMarker ran]
              exact ⟨.alreadyWoven, by simp, rfl⟩

/-- A transformation that does not end early asks for what is missing. -/
theorem Reaches.leaves {scope : RootScope} (reaches : dispatcher.Reaches name bytes scope)
    (closed : dispatcher.cache.Closed scope) :
    (dispatcher.transform lookup name bytes).lookups =
        (Resolver.asked ⟨scope, packageMarkers lookup⟩ dispatcher.cache
          (packageChain (packageOf name))).map packageMarkerClass ∧
      (dispatcher.transform lookup name bytes).dispatcher.cache.known = dispatcher.cache.known ++
        Resolver.learned ⟨scope, packageMarkers lookup⟩ dispatcher.cache
          (packageChain (packageOf name)) := by
  obtain ⟨file, model, ask, asking, transformed⟩ := reaches.transform lookup
  have leaves := Resolver.leaves_chainVerdict ⟨scope, packageMarkers lookup⟩
    ⟨dispatcher.cache, []⟩ (isPackageChain (packageOf name)) closed
  rw [Resolver.packageVerdict] at asking
  rw [asking] at leaves
  rw [transformed]
  exact ⟨congrArg (List.map packageMarkerClass) leaves.consulted, leaves.known⟩

/-! ## Calls in a row -/

/-- An activation succeeds once, with a root that is well spelled. -/
theorem activate_eq_ok {root : String} {activated : Dispatcher} :
    dispatcher.activate root = .ok activated ↔
      ∃ scope, RootScope.parse root = .ok scope ∧ dispatcher.root = none ∧
        activated = { dispatcher with root := some scope } := by
  rw [activate, Outcome.bind_eq_ok]
  refine exists_congr fun scope => ?_
  rw [Outcome.during_eq_ok]
  refine and_congr_right fun _ => ?_
  cases active : dispatcher.root with
  | none =>
    simp only [isActive, active, Option.isSome_none, Bool.false_eq_true, if_false, true_and]
    exact (Outcome.pure_eq_ok ..).trans eq_comm
  | some other =>
    simp only [isActive, active, Option.isSome_some, if_true, reduceCtorEq, false_and, iff_false]
    intro impossible
    cases impossible

/-- Without a root package nothing is known, and with one the cache is closed. -/
structure Orderly (dispatcher : Dispatcher) : Prop where
  idle : dispatcher.root = none → dispatcher.cache.known = []
  closed : ∀ scope, dispatcher.root = some scope → dispatcher.cache.Closed scope

/-- A dispatcher that has not been activated is orderly. -/
theorem orderly_idle : idle.Orderly := ⟨fun _ => rfl, nofun⟩

/-- One call. -/
theorem Orderly.after (orderly : dispatcher.Orderly) (call : Call) :
    (dispatcher.after call).Orderly := by
  cases call with
  | activate root =>
    rw [Dispatcher.after]
    cases ran : dispatcher.activate root with
    | error failure => exact orderly
    | ok activated =>
      obtain ⟨scope, -, inactive, rfl⟩ := activate_eq_ok.1 ran
      have known := orderly.idle inactive
      refine ⟨fun idle => ?_, fun _ _ => PackageCache.closed_of_known_eq_nil known⟩
      cases idle
  | transform lookup name bytes =>
    rw [Dispatcher.after]
    by_cases short : ∀ scope, ¬ dispatcher.Reaches name bytes scope
    · rw [(transform_of_not_reaches lookup short).2]
      exact orderly
    · obtain ⟨scope, reaches⟩ := not_forall_not.1 short
      have active := reaches.active
      have root := (dispatcher.transform_keeps lookup name bytes).1
      rw [active] at root
      constructor
      · intro inactive
        rw [root] at inactive
        cases inactive
      · intro other same
        obtain rfl := Option.some.inj (root.symm.trans same)
        exact Resolver.closed_of_learned (orderly.closed scope active) (isPackageChain _)
          (reaches.leaves lookup (orderly.closed scope active)).2

/-- Any number of calls. -/
theorem Orderly.afterAll (orderly : dispatcher.Orderly) (calls : List Call) :
    (dispatcher.afterAll calls).Orderly := by
  induction calls generalizing dispatcher with
  | nil => exact orderly
  | cons call others inductionHypothesis => exact inductionHypothesis (orderly.after call)

/-- What a host is told, and what it was asked for meanwhile. -/
inductive Reply
  | activated (result : Except Failure Unit)
  | transformed (result : Except Failure Outcome) (lookups : List String)

namespace Reply

/-- Whether an activation went through. -/
def hasActivated : Reply → Bool
  | .activated result => result.isOk
  | .transformed _ _ => false

/-- The classes that were looked up for a reply. -/
def lookups : Reply → List String
  | .activated _ => []
  | .transformed _ lookups => lookups

end Reply

/-- The reply to a call. -/
def reply (dispatcher : Dispatcher) : Call → Reply
  | .activate root => .activated ((dispatcher.activate root).map fun _ => ())
  | .transform lookup name bytes =>
    .transformed (dispatcher.transform lookup name bytes).result
      (dispatcher.transform lookup name bytes).lookups

/-- The replies to some calls in a row. -/
def replies (dispatcher : Dispatcher) : List Call → List Reply
  | [] => []
  | call :: others => dispatcher.reply call :: (dispatcher.after call).replies others

/-- A call goes to one host if it looks anything up. -/
def Call.Uses (lookup : ClassLookup) : Call → Prop
  | .activate _ => True
  | .transform other _ _ => other = lookup

/-- An activation leaves the cache as it is. -/
theorem cache_after_activate (root : String) :
    (dispatcher.after (.activate root)).cache = dispatcher.cache := by
  rw [after]
  cases ran : dispatcher.activate root with
  | error failure => rfl
  | ok activated =>
    obtain ⟨scope, -, -, rfl⟩ := activate_eq_ok.1 ran
    rfl

/-- An activation goes through only if there is no root package. -/
theorem root_of_hasActivated {call : Call}
    (activated : (dispatcher.reply call).hasActivated = true) : dispatcher.root = none := by
  cases call with
  | transform lookup name bytes => cases activated
  | activate root =>
    rw [reply, Reply.hasActivated] at activated
    cases ran : dispatcher.activate root with
    | error failure => simp [ran, Except.map, Except.isOk, Except.toBool] at activated
    | ok activated =>
      obtain ⟨scope, -, inactive, -⟩ := activate_eq_ok.1 ran
      exact inactive

/-- A root package is there as soon as an activation has gone through. -/
theorem root_after_eq_none_iff (call : Call) :
    (dispatcher.after call).root = none ↔
      dispatcher.root = none ∧ (dispatcher.reply call).hasActivated = false := by
  cases call with
  | transform lookup name bytes =>
    rw [after, (dispatcher.transform_keeps lookup name bytes).1]
    simp [reply, Reply.hasActivated]
  | activate root =>
    rw [after, reply, Reply.hasActivated]
    cases ran : dispatcher.activate root with
    | error failure => simp [Except.map, Except.isOk, Except.toBool, Except.toOption]
    | ok activated =>
      obtain ⟨scope, -, inactive, rfl⟩ := activate_eq_ok.1 ran
      simp [Except.map, Except.isOk, Except.toBool, Except.toOption]

variable {calls : List Call}

/-- There is no root package exactly as long as no activation has gone through. -/
theorem root_afterAll_eq_none_iff :
    (dispatcher.afterAll calls).root = none ↔
      dispatcher.root = none ∧
        ∀ reply ∈ dispatcher.replies calls, reply.hasActivated = false := by
  induction calls generalizing dispatcher with
  | nil => simp [afterAll, replies]
  | cons call others inductionHypothesis =>
    rw [replies, List.forall_mem_cons, ← and_assoc, ← root_after_eq_none_iff]
    exact inductionHypothesis

/-- An activation goes through once at most, and not at all if there is a root package. -/
theorem countP_hasActivated (dispatcher : Dispatcher) (calls : List Call) :
    (dispatcher.replies calls).countP Reply.hasActivated ≤
      if dispatcher.root = none then 1 else 0 := by
  induction calls generalizing dispatcher with
  | nil => exact Nat.zero_le _
  | cons call others inductionHypothesis =>
    have later := @inductionHypothesis (dispatcher.after call)
    have step := dispatcher.root_after_eq_none_iff call
    rw [replies, List.countP_cons]
    cases activated : (dispatcher.reply call).hasActivated with
    | true =>
      rw [root_of_hasActivated activated]
      rw [activated] at step
      simpa [step] using later
    | false =>
      rw [activated] at step
      simpa [step] using later

/-! ## What is looked up in a row of calls -/

/-- Different packages have different marker classes. -/
theorem packageMarkerClass_injective : Function.Injective packageMarkerClass := by
  intro package other same
  have texts := congrArg String.toList same
  simp only [packageMarkerClass, String.toList_append, List.append_assoc] at texts
  exact String.toList_inj.1 (List.append_cancel_right texts)

/-- The classes that are looked up during some calls. -/
def lookups (dispatcher : Dispatcher) (calls : List Call) : List String :=
  (dispatcher.replies calls).flatMap Reply.lookups

section

variable {lookup : ClassLookup} {package : String} (orderly : dispatcher.Orderly)
  (answers : (packageMarkers lookup package).isOk = true)
include orderly answers

/-- Who answers is not asked if there is a verdict, and has a verdict after being asked. -/
theorem count_lookups_reply {call : Call} (uses : call.Uses lookup) :
    (dispatcher.reply call).lookups.count (packageMarkerClass package) +
        (if package ∈ (dispatcher.after call).cache.known then 0 else 1) ≤
      if package ∈ dispatcher.cache.known then 0 else 1 := by
  cases call with
  | activate root =>
    refine Nat.le_of_eq ?_
    rw [cache_after_activate, reply, Reply.lookups, List.count_nil, Nat.zero_add]
  | transform other name bytes =>
    obtain rfl : other = lookup := uses
    rw [reply, Reply.lookups, after]
    by_cases short : ∀ scope, ¬ dispatcher.Reaches name bytes scope
    · obtain ⟨none, same⟩ := transform_of_not_reaches other short
      refine Nat.le_of_eq ?_
      rw [none, same, List.count_nil, Nat.zero_add]
    · obtain ⟨scope, reaches⟩ := not_forall_not.1 short
      obtain ⟨asks, learns⟩ := reaches.leaves other (orderly.closed scope reaches.active)
      rw [asks, learns, List.count_map_of_injective _ _ packageMarkerClass_injective]
      simp only [List.mem_append]
      have once := List.nodup_iff_count_le_one.1 (Resolver.nodup_asked
        ⟨scope, packageMarkers other⟩ dispatcher.cache (isPackageChain (packageOf name))) package
      by_cases isAsked : package ∈ Resolver.asked ⟨scope, packageMarkers other⟩ dispatcher.cache
          (packageChain (packageOf name))
      · have unknown := (PackageCache.mem_missing.1 (Resolver.mem_missing_of_mem_asked isAsked)).2.2
        have learns := Resolver.mem_learned_of_answers isAsked answers
        simpa [unknown, learns] using once
      · rw [List.count_eq_zero_of_not_mem isAsked, Nat.zero_add]
        by_cases known : package ∈ dispatcher.cache.known
        · simp [known]
        · rw [if_neg known]
          split
          · exact Nat.zero_le _
          · exact Nat.le_refl _

/-- Who answers is asked once at most, and not at all once there is a verdict. -/
theorem count_lookups (fixed : ∀ call ∈ calls, call.Uses lookup) :
    (dispatcher.lookups calls).count (packageMarkerClass package) ≤
      if package ∈ dispatcher.cache.known then 0 else 1 := by
  induction calls generalizing dispatcher with
  | nil => exact Nat.zero_le _
  | cons call others inductionHypothesis =>
    obtain ⟨uses, behind⟩ := List.forall_mem_cons.1 fixed
    have now := count_lookups_reply orderly answers uses
    have later := inductionHypothesis (orderly.after call) behind
    rw [lookups, replies, List.flatMap_cons, List.count_append]
    exact Nat.le_trans (Nat.add_le_add_left later _) now

end

/-- What a dispatcher does with one more call. -/
structure Disciplined (dispatcher : Dispatcher) (lookup : ClassLookup) : Prop where
  /-- An activation that is refused changes nothing. -/
  refused : ∀ root failure, dispatcher.activate root = .error failure →
    dispatcher.after (.activate root) = dispatcher
  /-- A root package stays for good. -/
  root_stays : ∀ scope later, dispatcher.root = some scope →
    (dispatcher.afterAll later).root = some scope
  /-- Nothing is looked up and nothing is found out before a policy is needed. -/
  early : ∀ name bytes, dispatcher.EndsEarly lookup name bytes →
    (dispatcher.transform lookup name bytes).lookups = [] ∧
      (dispatcher.transform lookup name bytes).dispatcher = dispatcher
  /-- Otherwise the packages are asked whose verdicts are missing, outermost first and no
  further than to the first whose markers cannot be had. All before it get a verdict. -/
  searching : ∀ name bytes, ¬ dispatcher.EndsEarly lookup name bytes → ∃ scope,
    dispatcher.root = some scope ∧
      (dispatcher.transform lookup name bytes).lookups =
        (Resolver.asked ⟨scope, packageMarkers lookup⟩ dispatcher.cache
          (packageChain (packageOf name))).map packageMarkerClass ∧
      dispatcher.cache.GrowsTo (dispatcher.transform lookup name bytes).dispatcher.cache ∧
      (dispatcher.transform lookup name bytes).dispatcher.cache.known = dispatcher.cache.known ++
        Resolver.learned ⟨scope, packageMarkers lookup⟩ dispatcher.cache
          (packageChain (packageOf name))

/-- The invariant gives what is said of one more call. -/
theorem Orderly.disciplined (orderly : dispatcher.Orderly) (lookup : ClassLookup) :
    dispatcher.Disciplined lookup where
  refused root failure failed := by
    rw [Dispatcher.after, failed]
    rfl
  root_stays scope later := (dispatcher.continues_afterAll later).root scope
  early name bytes ends :=
    transform_of_not_reaches lookup ((endsEarly_iff lookup).1 ends)
  searching name bytes goes := by
    rw [endsEarly_iff, not_forall_not] at goes
    obtain ⟨scope, reaches⟩ := goes
    obtain ⟨asks, learns⟩ := reaches.leaves lookup (orderly.closed scope reaches.active)
    exact ⟨scope, reaches.active, asks, (dispatcher.transform_keeps lookup name bytes).2, learns⟩

/-- A host with one way to look classes up may activate a dispatcher and have it transform
classes in any order. One activation goes through at most, and until then every class is
handed back. Whatever the calls so far, the next one looks up what is missing and nothing
else. So no class of a package whose markers can be read is ever looked up again. -/
theorem looks_up_once (lookup : ClassLookup) (calls : List Call)
    (fixed : ∀ call ∈ calls, call.Uses lookup) :
    (idle.replies calls).countP Reply.hasActivated ≤ 1 ∧
      ((∀ reply ∈ idle.replies calls, reply.hasActivated = false) → ∀ name bytes,
        ((idle.afterAll calls).transform lookup name bytes).result =
          .ok (.unchanged .notActive)) ∧
      (idle.afterAll calls).Disciplined lookup ∧
      ∀ package, (packageMarkers lookup package).isOk = true →
        (idle.lookups calls).count (packageMarkerClass package) ≤ 1 := by
  refine ⟨?_, ?_, (orderly_idle.afterAll calls).disciplined lookup, ?_⟩
  · simpa [idle] using countP_hasActivated idle calls
  · intro unanswered name bytes
    have inactive := root_afterAll_eq_none_iff.2 ⟨rfl, unanswered⟩
    rw [transform, inactive]
  · intro package answers
    exact Nat.le_trans (count_lookups orderly_idle answers fixed) (by split <;> simp)

/-- Two classes of one package: its class is looked up for the first of them only. -/
theorem looks_up_once_fieldClass :
    (∀ call ∈ [Call.activate "r", .transform packageLookup "r/A" fieldClass,
        .transform packageLookup "r/A" fieldClass], call.Uses packageLookup) ∧
      (packageMarkers packageLookup "r").isOk = true ∧
      idle.lookups [.activate "r", .transform packageLookup "r/A" fieldClass,
        .transform packageLookup "r/A" fieldClass] = ["r/package-info"] ∧
      (idle.lookups [.activate "r", .transform packageLookup "r/A" fieldClass,
        .transform packageLookup "r/A" fieldClass]).count (packageMarkerClass "r") ≤ 1 := by
  have fixed : ∀ call ∈ [Call.activate "r", .transform packageLookup "r/A" fieldClass,
      .transform packageLookup "r/A" fieldClass], call.Uses packageLookup := by
    simp [Call.Uses]
  have readable : (packageMarkers packageLookup "r").isOk = true := by decide +kernel
  exact ⟨fixed, readable, by decide +kernel,
    (looks_up_once packageLookup _ fixed).2.2.2 "r" readable⟩

end Dispatcher

end NullGuard
