import Mathlib.Algebra.BigOperators.Group.List.Basic
import Mathlib.Algebra.GroupWithZero.Nat
import NullGuard.Proofs.Nullness.Verdict

/-!
# Verdicts that are found out at the same time

Several calls may ask for verdicts on packages at the same time and share one cache. Each
call goes on step by step: it looks into the cache, calls itself for the package around,
asks for markers, and keeps a verdict unless one is kept already. Between two steps of a
call any steps of other calls may come, so two calls may find out the same verdict, and
the one that is later gets back what the other has kept.

What a call has made sure of at each point is said by `VerdictCall.Sound`. A step of the
call makes sure of what the next point asks for; the steps of other calls only let the
cache grow, and nothing that was made sure of is lost then.
-/

namespace NullGuard

/-! ## Calls -/

/-- A call for the verdict on a package. The packages that wait for the verdict on a
package around them stand with the outermost one first. -/
inductive VerdictCall
  /-- About to call for the first package of a chain. -/
  | entering (waiting chain : List String)
  /-- About to look a package up in the cache. -/
  | reading (waiting : List String) (package : String) (around : List String)
  /-- About to give a verdict to the first package that waits, which asks for its own
  markers then, or to the host if none waits. -/
  | returning (waiting : List String) (verdict : Bool)
  /-- About to keep the verdict on a package. -/
  | keeping (waiting : List String) (package : String) (verdict : Bool)
  | finished (result : Except Failure Bool)

namespace VerdictCall

/-- A call before its first step. -/
def start (package : String) : VerdictCall := .entering [] (packageChain package)

/-- One step of a call, and what it makes of the cache. A call that is finished stops. -/
def step (resolver : Resolver) (cache : PackageCache) :
    VerdictCall → Option (VerdictCall × PackageCache)
  | .entering waiting [] => some (.returning waiting false, cache)
  | .entering waiting (package :: around) =>
    if resolver.scope.Covers package then some (.reading waiting package around, cache)
    else some (.returning waiting false, cache)
  | .reading waiting package around =>
    match cache.get package with
    | some kept => some (.returning waiting kept, cache)
    | none => some (.entering (package :: waiting) around, cache)
  | .returning [] verdict => some (.finished (.ok verdict), cache)
  | .returning (package :: waiting) inherited =>
    match resolver.markers package with
    | .error failure => some (.finished (.error failure), cache)
    | .ok markers => some (.keeping waiting package (markers.verdict inherited), cache)
  | .keeping waiting package verdict =>
    some (.returning waiting (cache.insert package verdict).1, (cache.insert package verdict).2)
  | .finished _ => none

/-- What a call for a package has made sure of. -/
def Sound (resolver : Resolver) (cache : PackageCache) (target : String) : VerdictCall → Prop
  | .entering waiting chain =>
    packageChain target = waiting.reverse ++ chain ∧
      ∀ package ∈ waiting, resolver.scope.Covers package
  | .reading waiting package around =>
    packageChain target = waiting.reverse ++ package :: around ∧
      ∀ covered ∈ package :: waiting, resolver.scope.Covers covered
  | .returning waiting verdict =>
    ∃ chain, packageChain target = waiting.reverse ++ chain ∧
      (∀ package ∈ waiting, resolver.scope.Covers package) ∧
      resolver.plainVerdict chain = .ok verdict ∧ cache.Holds resolver.scope chain
  | .keeping waiting package verdict =>
    ∃ around, packageChain target = waiting.reverse ++ package :: around ∧
      (∀ covered ∈ package :: waiting, resolver.scope.Covers covered) ∧
      resolver.plainVerdict (package :: around) = .ok verdict ∧
      cache.Holds resolver.scope around
  | .finished result => resolver.verdictOn target = result

section

variable {resolver : Resolver} {cache later : PackageCache} {target : String}
variable {call next : VerdictCall}

/-- A call that has just begun fits any cache. -/
theorem sound_start (resolver : Resolver) (cache : PackageCache) (target : String) :
    (start target).Sound resolver cache target :=
  ⟨rfl, by simp⟩

/-- Verdicts that others have kept do not matter. -/
theorem Sound.grow (sound : call.Sound resolver cache target) (grows : cache.GrowsTo later) :
    call.Sound resolver later target := by
  cases call with
  | entering waiting chain => exact sound
  | reading waiting package around => exact sound
  | returning waiting verdict =>
    obtain ⟨chain, split, covers, given, held⟩ := sound
    exact ⟨chain, split, covers, given, held.grow grows⟩
  | keeping waiting package verdict =>
    obtain ⟨around, split, covers, given, held⟩ := sound
    exact ⟨around, split, covers, given, held.grow grows⟩
  | finished result => exact sound

/-- What is left of a package chain is one as well. -/
theorem isPackageChain_of_split {inner outer : List String}
    (split : packageChain target = inner ++ outer) : IsPackageChain outer := by
  have whole := isPackageChain target
  rw [split] at whole
  exact whole.of_append

/-- One step. The cache grows and stays sound, and the call has made sure of what it
needs next. -/
theorem Sound.step (sound : call.Sound resolver cache target) (cacheSound : cache.Sound resolver)
    (stepped : call.step resolver cache = some (next, later)) :
    cache.GrowsTo later ∧ later.Sound resolver ∧ next.Sound resolver later target := by
  cases call with
  | entering waiting chain =>
    obtain ⟨split, covers⟩ := sound
    cases chain with
    | nil =>
      cases stepped
      exact ⟨List.prefix_rfl, cacheSound, [], split, covers, rfl, by simp [PackageCache.Holds]⟩
    | cons package around =>
      rw [VerdictCall.step] at stepped
      split at stepped
      · next here =>
        cases stepped
        exact ⟨List.prefix_rfl, cacheSound, split, List.forall_mem_cons.2 ⟨here, covers⟩⟩
      · next outside =>
        cases stepped
        exact ⟨List.prefix_rfl, cacheSound, package :: around, split, covers,
          Resolver.plainVerdict_outside outside,
          cache.holds_outside (isPackageChain_of_split split) outside⟩
  | reading waiting package around =>
    obtain ⟨split, covers⟩ := sound
    obtain ⟨-, behind⟩ := List.forall_mem_cons.1 covers
    rw [VerdictCall.step] at stepped
    split at stepped
    · next kept known =>
      cases stepped
      -- A sound cache has the verdict that the whole rest of the chain comes to.
      have isChain := isPackageChain_of_split split
      have given := cacheSound.given package kept known
      have held := cacheSound.around package kept known
      rw [Resolver.verdictOn, ← isChain] at given
      rw [← isChain] at held
      exact ⟨List.prefix_rfl, cacheSound, package :: around, split, behind, given, held⟩
    · cases stepped
      refine ⟨List.prefix_rfl, cacheSound, ?_, covers⟩
      rw [split, List.reverse_cons, List.append_assoc]
      rfl
  | returning waiting verdict =>
    obtain ⟨chain, split, covers, given, held⟩ := sound
    cases waiting with
    | nil =>
      cases stepped
      refine ⟨List.prefix_rfl, cacheSound, ?_⟩
      show resolver.plainVerdict (packageChain target) = .ok verdict
      rw [split]
      exact given
    | cons package waiting =>
      obtain ⟨here, behind⟩ := List.forall_mem_cons.1 covers
      rw [List.reverse_cons, List.append_assoc] at split
      have mine : resolver.plainVerdict (package :: chain) = do
          let inherited ← resolver.plainVerdict chain
          let markers ← resolver.markers package
          return markers.verdict inherited := Resolver.plainVerdict_covered here
      rw [given] at mine
      rw [VerdictCall.step] at stepped
      split at stepped
      · next failure asked =>
        cases stepped
        -- Every package that waits fails in the same way.
        refine ⟨List.prefix_rfl, cacheSound, ?_⟩
        show resolver.plainVerdict (packageChain target) = .error failure
        rw [split]
        apply Resolver.plainVerdict_append_error
        · intro other member
          exact behind other (List.mem_reverse.1 member)
        · rw [asked] at mine
          exact mine
      · next markers asked =>
        cases stepped
        rw [asked] at mine
        exact ⟨List.prefix_rfl, cacheSound, chain, split, covers, mine, held⟩
  | keeping waiting package verdict =>
    obtain ⟨around, split, covers, given, held⟩ := sound
    obtain ⟨here, behind⟩ := List.forall_mem_cons.1 covers
    cases stepped
    -- Another call may have kept a verdict in the meantime, but then it is this one.
    obtain ⟨same, laterSound, laterHolds⟩ :=
      cacheSound.insert (isPackageChain_of_split split) here given held
    refine ⟨cache.growsTo_insert package verdict, laterSound, package :: around, split, behind,
      ?_, laterHolds⟩
    rw [same]
    exact given
  | finished result => cases stepped

end

/-- How many steps a call may still take. -/
def weight : VerdictCall → Nat
  | .entering waiting chain => 2 + 2 * waiting.length + 4 * chain.length
  | .reading waiting _ around => 5 + 2 * waiting.length + 4 * around.length
  | .returning waiting _ => 1 + 2 * waiting.length
  | .keeping waiting _ _ => 2 + 2 * waiting.length
  | .finished _ => 0

/-- Only a finished call stops, and each step brings the end nearer. -/
theorem finished_or_step (resolver : Resolver) (cache : PackageCache) (call : VerdictCall) :
    (∃ result, call = .finished result) ∨
      ∃ next later, call.step resolver cache = some (next, later) ∧ next.weight < call.weight := by
  cases call with
  | entering waiting chain =>
    cases chain with
    | nil =>
      refine .inr ⟨.returning waiting false, cache, rfl, ?_⟩
      simp only [weight]
      omega
    | cons package around =>
      by_cases covers : resolver.scope.Covers package
      · refine .inr ⟨.reading waiting package around, cache, if_pos covers, ?_⟩
        simp only [weight, List.length_cons]
        omega
      · refine .inr ⟨.returning waiting false, cache, if_neg covers, ?_⟩
        simp only [weight, List.length_cons]
        omega
  | reading waiting package around =>
    cases known : cache.get package with
    | some kept =>
      refine .inr ⟨.returning waiting kept, cache, by rw [step, known], ?_⟩
      simp only [weight]
      omega
    | none =>
      refine .inr ⟨.entering (package :: waiting) around, cache, by rw [step, known], ?_⟩
      simp only [weight, List.length_cons]
      omega
  | returning waiting verdict =>
    cases waiting with
    | nil => exact .inr ⟨.finished (.ok verdict), cache, rfl, by simp [weight]⟩
    | cons package waiting =>
      cases asked : resolver.markers package with
      | error failure =>
        refine .inr ⟨.finished (.error failure), cache, by rw [step, asked], ?_⟩
        simp only [weight]
        omega
      | ok markers =>
        refine .inr ⟨.keeping waiting package (markers.verdict verdict), cache,
          by rw [step, asked], ?_⟩
        simp only [weight, List.length_cons]
        omega
  | keeping waiting package verdict =>
    exact .inr ⟨.returning waiting (cache.insert package verdict).1,
      (cache.insert package verdict).2, rfl, by simp [weight]⟩
  | finished result => exact .inl ⟨result, rfl⟩

end VerdictCall

/-! ## Races -/

/-- Calls with the cache that they share. -/
structure Race where
  cache : PackageCache
  calls : List VerdictCall

namespace Race

/-- Calls for the verdicts on some packages before the first step, with nothing in the cache. -/
def start (packages : List String) : Race := ⟨.empty, packages.map VerdictCall.start⟩

/-- The call at a place takes a step. -/
def move (resolver : Resolver) (race : Race) (place : Nat) : Option Race := do
  let call ← race.calls[place]?
  let (next, cache) ← call.step resolver race.cache
  return ⟨cache, race.calls.set place next⟩

/-- The calls take steps in the order of a schedule, which names the place of the call for
each step. -/
def moves (resolver : Resolver) (race : Race) (schedule : List Nat) : Option Race :=
  schedule.foldlM (move resolver) race

/-- The cache is sound, and each call has made sure of what it relies on. -/
structure Sound (race : Race) (resolver : Resolver) (packages : List String) : Prop where
  cache : race.cache.Sound resolver
  length : race.calls.length = packages.length
  calls : ∀ (place : Nat) (package : String) (call : VerdictCall),
    packages[place]? = some package → race.calls[place]? = some call →
      call.Sound resolver race.cache package

section

variable {resolver : Resolver} {packages : List String} {race later : Race}

/-- A race that has just begun is sound. -/
theorem sound_start (resolver : Resolver) (packages : List String) :
    (start packages).Sound resolver packages where
  cache := PackageCache.sound_empty resolver
  length := List.length_map ..
  calls := by
    intro place package call target here
    rw [start, List.getElem?_map, target] at here
    cases here
    exact VerdictCall.sound_start resolver .empty package

/-- A move is a step of one call, which changes the cache for all. -/
theorem move_eq_some (place : Nat) (moved : race.move resolver place = some later) :
    ∃ call next cache, race.calls[place]? = some call ∧
      call.step resolver race.cache = some (next, cache) ∧
      later = ⟨cache, race.calls.set place next⟩ := by
  obtain ⟨call, here, moved⟩ := Option.bind_eq_some_iff.1 moved
  obtain ⟨⟨next, cache⟩, stepped, moved⟩ := Option.bind_eq_some_iff.1 moved
  exact ⟨call, next, cache, here, stepped, (Option.some.inj moved).symm⟩

/-- One step of one call. -/
theorem Sound.move {place : Nat} (sound : race.Sound resolver packages)
    (moved : race.move resolver place = some later) :
    race.cache.GrowsTo later.cache ∧ later.Sound resolver packages := by
  obtain ⟨call, next, cache, here, stepped, rfl⟩ := move_eq_some place moved
  have small : place < packages.length := by
    rw [← sound.length]
    exact (List.getElem?_eq_some_iff.1 here).1
  have callSound := sound.calls place _ call (List.getElem?_eq_getElem small) here
  obtain ⟨grows, cacheSound, nextSound⟩ := callSound.step sound.cache stepped
  refine ⟨grows, cacheSound, (List.length_set ..).trans sound.length, ?_⟩
  intro other package otherCall target there
  by_cases same : place = other
  · subst same
    rw [List.getElem?_set_self (sound.length ▸ small)] at there
    rw [List.getElem?_eq_getElem small] at target
    cases there
    cases target
    exact nextSound
  · rw [List.getElem?_set_ne same] at there
    exact (sound.calls other package otherCall target there).grow grows

/-- Any steps in any order. -/
theorem Sound.moves {schedule : List Nat} (sound : race.Sound resolver packages)
    (ran : race.moves resolver schedule = some later) :
    race.cache.GrowsTo later.cache ∧ later.Sound resolver packages := by
  induction schedule generalizing race with
  | nil =>
    cases ran
    exact ⟨List.prefix_rfl, sound⟩
  | cons place schedule inductionHypothesis =>
    obtain ⟨middle, moved, ran⟩ := Option.bind_eq_some_iff.1 ran
    obtain ⟨begun, middleSound⟩ := sound.move moved
    obtain ⟨ended, laterSound⟩ := inductionHypothesis middleSound ran
    exact ⟨List.IsPrefix.trans begun ended, laterSound⟩

/-- Whatever the calls have done to each other, one that is finished has the verdict that
there is without a cache. -/
theorem verdictOn_of_finished {schedule : List Nat}
    (ran : (start packages).moves resolver schedule = some race) (place : Nat) (package : String)
    (result : Except Failure Bool) (target : packages[place]? = some package)
    (here : race.calls[place]? = some (.finished result)) :
    resolver.verdictOn package = result := by
  obtain ⟨-, sound⟩ := (sound_start resolver packages).moves ran
  exact sound.calls place package _ target here

end

/-! ## Ends of races -/

/-- How many steps the calls may still take. -/
def weight (race : Race) : Nat := (race.calls.map VerdictCall.weight).sum

/-- It is enough that one call comes nearer to its end. -/
theorem weight_set (cache later : PackageCache) (calls : List VerdictCall) (place : Nat)
    (call next : VerdictCall) (here : calls[place]? = some call)
    (lighter : next.weight < call.weight) :
    weight ⟨later, calls.set place next⟩ < weight ⟨cache, calls⟩ := by
  obtain ⟨inside, known⟩ := List.getElem?_eq_some_iff.1 here
  have before := (calls.map VerdictCall.weight).sum_set place call.weight
  have after := (calls.map VerdictCall.weight).sum_set place next.weight
  rw [← List.map_set, ← known, List.set_getElem_self] at before
  rw [weight, weight, List.map_set, before, after]
  simp only [List.length_map, if_pos inside, known]
  omega

/-- However far the calls have come, they can all be finished. -/
theorem exists_finished (resolver : Resolver) (race : Race) :
    ∃ schedule last, race.moves resolver schedule = some last ∧
      ∀ call ∈ last.calls, ∃ result, call = .finished result := by
  by_cases finished : ∀ call ∈ race.calls, ∃ result, call = .finished result
  · exact ⟨[], race, rfl, finished⟩
  · push Not at finished
    obtain ⟨call, member, unfinished⟩ := finished
    obtain ⟨place, here⟩ := List.mem_iff_getElem?.1 member
    obtain ⟨result, same⟩ | ⟨next, cache, stepped, lighter⟩ :=
      call.finished_or_step resolver race.cache
    · exact absurd same (unfinished result)
    · have moved : race.move resolver place = some ⟨cache, race.calls.set place next⟩ := by
        simp [move, here, stepped]
      have lighterRace := weight_set race.cache cache race.calls place call next here lighter
      obtain ⟨schedule, last, ran, ended⟩ :=
        exists_finished resolver ⟨cache, race.calls.set place next⟩
      refine ⟨place :: schedule, last, ?_, ended⟩
      rw [moves, List.foldlM_cons, moved]
      exact ran
termination_by race.weight

/-! ## A call alone -/

section

variable {resolver : Resolver}

/-- Some steps lead from one state of a race to another. -/
def Reaches (resolver : Resolver) (race last : Race) : Prop :=
  ∃ schedule, race.moves resolver schedule = some last

/-- A race reaches itself. -/
theorem Reaches.refl (race : Race) : Reaches resolver race race := ⟨[], rfl⟩

/-- What is reached from a reached race is reached. -/
theorem Reaches.trans {race middle last : Race} (begun : Reaches resolver race middle)
    (ended : Reaches resolver middle last) : Reaches resolver race last := by
  obtain ⟨first, begun⟩ := begun
  obtain ⟨second, ended⟩ := ended
  refine ⟨first ++ second, ?_⟩
  rw [moves, List.foldlM_append]
  exact Option.bind_eq_some_iff.2 ⟨middle, begun, ended⟩

/-- A step of a call that nobody else is with. -/
theorem Reaches.step {cache later : PackageCache} {call next : VerdictCall} {last : Race}
    (stepped : call.step resolver cache = some (next, later))
    (rest : Reaches resolver ⟨later, [next]⟩ last) : Reaches resolver ⟨cache, [call]⟩ last := by
  refine Reaches.trans ⟨[0], ?_⟩ rest
  simp [moves, move, stepped]

/-- The point that a call comes to once the verdict on a chain is known. -/
def answered (waiting : List String) : Except Failure Bool → VerdictCall
  | .ok verdict => .returning waiting verdict
  | .error failure => .finished (.error failure)

/-- What stands in `Resolver.chainVerdict` as one computation is done step by step. -/
theorem reaches_answered (waiting chain : List String) (findings : Findings) :
    Reaches resolver ⟨findings.cache, [.entering waiting chain]⟩
      ⟨(resolver.chainVerdict chain findings).2.cache,
        [answered waiting (resolver.chainVerdict chain findings).1]⟩ := by
  induction chain generalizing waiting findings with
  | nil => exact .step rfl (.refl _)
  | cons package around inductionHypothesis =>
    by_cases covers : resolver.scope.Covers package
    · refine .step (if_pos covers) ?_
      rw [Resolver.chainVerdict_covered around covers]
      cases known : findings.cache.get package with
      | some kept => exact .step (by simp only [VerdictCall.step, known, answered]) (.refl _)
      | none =>
        refine .step (by rw [VerdictCall.step, known]) ?_
        refine (inductionHypothesis (package :: waiting) findings).trans ?_
        cases resolver.chainVerdict around findings with
        | mk result middle =>
          cases result with
          | error failure => exact .refl _
          | ok inherited =>
            show Reaches resolver ⟨middle.cache, [.returning (package :: waiting) inherited]⟩ _
            cases asked : resolver.markers package with
            | error failure =>
              exact .step (by simp only [VerdictCall.step, asked, answered]) (.refl _)
            | ok markers =>
              refine .step (by rw [VerdictCall.step, asked]) ?_
              exact .step rfl (.refl _)
    · rw [Resolver.chainVerdict_outside around covers]
      exact .step (if_neg covers) (.refl _)

/-- A call that nobody else is with does what `Resolver.packageVerdict` does. -/
theorem reaches_finished (package : String) (findings : Findings) :
    Reaches resolver ⟨findings.cache, [.start package]⟩
      ⟨(resolver.packageVerdict package findings).2.cache,
        [.finished (resolver.packageVerdict package findings).1]⟩ := by
  refine (reaches_answered [] (packageChain package) findings).trans ?_
  rw [Resolver.packageVerdict]
  cases resolver.chainVerdict (packageChain package) findings with
  | mk result later =>
    cases result with
    | error failure => exact .refl _
    | ok verdict => exact .step rfl (.refl _)

end

/-! ## Every interleaving -/

/-- Any number of calls for verdicts share a cache that is empty at first, and take their
steps in any order. A call that is finished has the result that it has alone, which is
that of `Resolver.packageVerdict`. At every moment the cache has only verdicts that there
are without it, each of them on a package inside the root and together with the verdicts
on all packages around that one; no step changes or removes one. All calls can be
finished. -/
theorem consistent (resolver : Resolver) (packages : List String) (schedule : List Nat)
    (race : Race) (ran : (start packages).moves resolver schedule = some race) :
    race.calls.length = packages.length ∧
      (∀ (place : Nat) (package : String) (result : Except Failure Bool),
        packages[place]? = some package →
        race.calls[place]? = some (VerdictCall.finished result) →
        result = ((resolver.packageVerdict package).run ⟨.empty, []⟩).1) ∧
      (∀ package, ∃ alone last, (start [package]).moves resolver alone = some last ∧
        last.calls = [.finished ((resolver.packageVerdict package).run ⟨.empty, []⟩).1]) ∧
      (∀ package verdict, race.cache.get package = some verdict →
        resolver.verdictOn package = .ok verdict ∧
        resolver.scope.contains package = true ∧
        (∀ outer, Encloses outer package → outer ≠ "" → resolver.scope.contains outer = true →
          ∃ inherited, race.cache.get outer = some inherited) ∧
        ∀ further later, race.moves resolver further = some later →
          later.cache.get package = some verdict) ∧
      ∃ further last, race.moves resolver further = some last ∧
        ∀ call ∈ last.calls, ∃ result, call = VerdictCall.finished result := by
  obtain ⟨-, sound⟩ := (sound_start resolver packages).moves ran
  refine ⟨sound.length, ?_, ?_, ?_, exists_finished resolver race⟩
  · intro place package result target here
    have alone := resolver.packageVerdict_of_sound package ⟨.empty, []⟩
      (PackageCache.sound_empty resolver)
    rw [← verdictOn_of_finished ran place package result target here]
    exact alone.symm
  · intro package
    have ended : Reaches resolver (start [package]) _ := reaches_finished package ⟨.empty, []⟩
    obtain ⟨alone, ended⟩ := ended
    exact ⟨alone, _, ended, rfl⟩
  · intro package verdict kept
    refine ⟨sound.cache.given package verdict kept, (sound.cache.covers package verdict kept).2,
      ?_, ?_⟩
    · intro outer encloses named inside
      exact sound.cache.around package verdict kept outer ((mem_packageChain ..).2 encloses)
        ⟨named, inside⟩
    · intro further later ranFurther
      exact (sound.moves ranFurther).1.get package verdict kept

/-- Two calls take turns until one of them is finished. -/
def turns : List Nat := (List.replicate 10 [0, 1]).flatten ++ List.replicate 4 0

/-- What the calls leave that way: neither has found anything in the cache. -/
def afterTurns : Race where
  cache := ⟨[("com", true), ("com/shop", false), ("com/shop/cart", false)]⟩
  calls := [.finished (.ok false), .finished (.ok false)]

/-- The turns can be taken in the order given. -/
theorem moves_turns :
    (start ["com/shop/cart", "com/shop"]).moves Resolver.nested turns = some afterTurns := by
  rfl

/-- Two calls take turns. Each verdict is that of a call on its own, and both agree on the
package that they share. -/
theorem consistent_turns :
    (start ["com/shop/cart", "com/shop"]).moves Resolver.nested turns = some afterTurns ∧
      .ok false = ((Resolver.nested.packageVerdict "com/shop/cart").run ⟨.empty, []⟩).1 ∧
      Resolver.nested.verdictOn "com/shop" = .ok false ∧
      ∃ inherited, afterTurns.cache.get "com" = some inherited := by
  obtain ⟨-, results, -, entries, -⟩ :=
    consistent Resolver.nested ["com/shop/cart", "com/shop"] turns afterTurns moves_turns
  obtain ⟨given, -, around, -⟩ := entries "com/shop" false rfl
  have alone := results 0 "com/shop/cart" (.ok false) rfl rfl
  exact ⟨moves_turns, alone, given,
    around "com" (.inr ⟨"shop", rfl⟩) (by decide) (by decide +kernel)⟩

end Race

end NullGuard
