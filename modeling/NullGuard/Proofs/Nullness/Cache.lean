import NullGuard.Proofs.Nullness.Packages
import NullGuard.Proofs.Stateful

/-!
# Caches of verdicts

A cache only grows, and the verdict that it gives for a package stays the same. The
step that finds the verdict on the first package of a chain is described state by
state: by `chainVerdict_outside` for a package without a say, and by
`chainVerdict_covered` for any other.
-/

namespace NullGuard

open Stateful

/-- Verdicts are added behind the ones that are there. -/
def PackageCache.GrowsTo (cache grown : PackageCache) : Prop := cache.entries <+: grown.entries

namespace PackageCache

/-- A verdict that is kept stays the one that counts. -/
theorem GrowsTo.get {cache grown : PackageCache} (grows : cache.GrowsTo grown)
    (package : String) (verdict : Bool) (kept : cache.get package = some verdict) :
    grown.get package = some verdict := by
  obtain ⟨added, same⟩ := grows
  rw [PackageCache.get] at kept ⊢
  rw [← same, List.lookup_append, kept]
  rfl

/-- A verdict that is added overwrites none. -/
theorem growsTo_insert (cache : PackageCache) (package : String) (verdict : Bool) :
    cache.GrowsTo (cache.insert package verdict).2 := by
  rw [insert]
  split
  · exact List.prefix_rfl
  · exact List.prefix_append ..

/-- What a cache gives for a package after something was put into it. -/
theorem get_insert (cache : PackageCache) (package other : String) (verdict : Bool) :
    (cache.insert package verdict).2.get other =
      (cache.get other).or (if other = package then some verdict else none) := by
  unfold insert
  cases known : cache.get package with
  | some kept =>
    by_cases same : other = package
    · simp [same, known]
    · simp [same]
  | none =>
    rw [get, get, List.lookup_append, List.lookup_cons]
    by_cases same : other = package
    · simp [same]
    · simp [same, beq_false_of_ne same]

/-- The verdict that comes back from the cache is the one that the cache has then. -/
theorem insert_fst (cache : PackageCache) (package : String) (verdict : Bool) :
    (cache.insert package verdict).2.get package = some (cache.insert package verdict).1 := by
  rw [get_insert]
  unfold insert
  cases known : cache.get package with
  | some kept => rfl
  | none => simp

end PackageCache

/-- Whatever happens, verdicts that were found out stay. -/
def Findings.GrowsTo (findings grown : Findings) : Prop := findings.cache.GrowsTo grown.cache

namespace Findings.GrowsTo

/-- Findings grow to themselves. -/
theorem refl (findings : Findings) : findings.GrowsTo findings := List.prefix_rfl

/-- Findings that grow twice have grown. -/
theorem trans (first second third : Findings) (begun : first.GrowsTo second)
    (ended : second.GrowsTo third) : first.GrowsTo third := List.IsPrefix.trans begun ended

end Findings.GrowsTo

namespace Resolver

variable (resolver : Resolver)

/-- Asking a package adds it to those that have been asked. -/
theorem keeps_consult (package : String) :
    Keeps Findings.GrowsTo (resolver.consult package) :=
  .bind Findings.GrowsTo.trans (fun _ => .refl _) fun _ => keeps_settle .refl _

/-- A verdict on a chain forgets nothing. The induction is on the chain, which is gone
through from the inside. -/
theorem keeps_chainVerdict (chain : List String) :
    Keeps Findings.GrowsTo (resolver.chainVerdict chain) := by
  induction chain with
  | nil => exact keeps_pure .refl _
  | cons package around inductionHypothesis =>
    rw [chainVerdict]
    split
    · exact keeps_pure .refl _
    · refine .bind Findings.GrowsTo.trans (keeps_get .refl) fun findings => ?_
      split
      · exact keeps_pure .refl _
      · refine .bind Findings.GrowsTo.trans inductionHypothesis fun inherited => ?_
        refine .bind Findings.GrowsTo.trans (resolver.keeps_consult package) fun markers => ?_
        exact fun found => PackageCache.growsTo_insert ..

/-! ## The verdict on the first package of a chain -/

section

variable {resolver : Resolver} {package : String} {findings : Findings} (around : List String)

/-- A package without a say has no verdict of its own, and nobody is asked. -/
theorem chainVerdict_outside (outside : ¬ resolver.scope.Covers package) :
    resolver.chainVerdict (package :: around) findings = (.ok false, findings) := by
  rw [RootScope.not_covers_iff] at outside
  rw [chainVerdict, if_pos outside]
  rfl

/-- The way past the first test. -/
theorem chainVerdict_covered (covers : resolver.scope.Covers package) :
    resolver.chainVerdict (package :: around) findings =
      match findings.cache.get package with
      | some kept => (.ok kept, findings)
      | none =>
        match resolver.chainVerdict around findings with
        | (.error failure, middle) => (.error failure, middle)
        | (.ok inherited, middle) =>
          match resolver.markers package with
          | .error failure =>
            (.error failure, { middle with consulted := middle.consulted ++ [package] })
          | .ok markers =>
            (.ok (middle.cache.insert package (markers.verdict inherited)).1,
              { cache := (middle.cache.insert package (markers.verdict inherited)).2
                consulted := middle.consulted ++ [package] }) := by
  have inside : ¬ (package.isEmpty || !resolver.scope.contains package) = true := by
    rw [← RootScope.not_covers_iff]
    exact not_not_intro covers
  have looked : (get : Resolving Findings) findings = (.ok findings, findings) := rfl
  rw [chainVerdict, if_neg inside, bind_ok _ _ _ _ _ looked]
  cases known : findings.cache.get package with
  | some kept => rfl
  | none =>
    dsimp only
    cases outer : resolver.chainVerdict around findings with
    | mk result middle =>
      cases result with
      | error failure => exact bind_error _ _ _ _ _ outer
      | ok inherited =>
        rw [bind_ok _ _ _ _ _ outer]
        have consulted : resolver.consult package middle = (resolver.markers package,
            { middle with consulted := middle.consulted ++ [package] }) := rfl
        cases asked : resolver.markers package with
        | error failure =>
          rw [asked] at consulted
          exact bind_error _ _ _ _ _ consulted
        | ok markers =>
          rw [asked] at consulted
          rw [bind_ok _ _ _ _ _ consulted]
          rfl

end

end Resolver

end NullGuard
