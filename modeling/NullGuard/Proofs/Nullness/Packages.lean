import Mathlib.Data.List.Basic
import NullGuard.Nullness.Policy

/-!
# Packages around a package

The chain of a package holds the package itself and the packages around it,
innermost first. Behind each member of a chain stands the chain of the package just
around that member (`IsPackageChain.tail`), so facts about chains are shown by
induction along the chain.

A package has a say if it has a name and lies in the scope. Scopes are closed
inwards: inside a package that has a say every package has one. So the packages of a
chain that have a say are its first ones.
-/

namespace NullGuard

/-- A package lies around another one, or is that one. -/
def Encloses (outer package : String) : Prop :=
  outer = package ∨ ∃ inner, package = outer ++ "/" ++ inner

/-! ## Chains -/

namespace packageChain

/-- Packages around a name are found while going through it; `seen` is what has been passed,
last character first. -/
theorem enclosing_append (seen front back : List Char) :
    enclosing seen (front ++ back) =
      enclosing seen front ++ enclosing (front.reverse ++ seen) back := by
  induction front generalizing seen with
  | nil => rfl
  | cons c rest inductionHypothesis =>
    by_cases slash : c = '/'
    · simp [enclosing, slash, inductionHypothesis]
    · simp [enclosing, slash, inductionHypothesis]

/-- What encloses a text ends in front of one of its slashes. -/
theorem mem_enclosing (seen text : List Char) (outer : String) :
    outer ∈ enclosing seen text ↔
      ∃ front back, text = front ++ '/' :: back ∧
        outer = String.ofList (seen.reverse ++ front) := by
  induction text generalizing seen with
  | nil => simp [enclosing]
  | cons c rest inductionHypothesis =>
    have later : (∃ front back, rest = front ++ '/' :: back ∧
          outer = String.ofList ((c :: seen).reverse ++ front)) ↔
        ∃ front back, c :: rest = (c :: front) ++ '/' :: back ∧
          outer = String.ofList (seen.reverse ++ c :: front) := by simp
    by_cases slash : c = '/'
    · rw [enclosing, if_pos slash, List.mem_cons, inductionHypothesis, later]
      constructor
      · rintro (rfl | ⟨front, back, split, named⟩)
        · exact ⟨[], rest, by rw [slash]; rfl, by simp⟩
        · exact ⟨c :: front, back, split, named⟩
      · rintro ⟨front, back, split, named⟩
        cases front with
        | nil => exact .inl (by simpa using named)
        | cons first front =>
          obtain ⟨rfl, -⟩ := List.cons.inj split
          exact .inr ⟨front, back, split, named⟩
    · rw [enclosing, if_neg slash, inductionHypothesis, later]
      constructor
      · rintro ⟨front, back, split, named⟩
        exact ⟨c :: front, back, split, named⟩
      · rintro ⟨front, back, split, named⟩
        cases front with
        | nil => exact absurd (List.cons.inj split).1 slash
        | cons first front =>
          obtain ⟨rfl, -⟩ := List.cons.inj split
          exact ⟨front, back, split, named⟩

/-- The packages around a package: none, or the chain of the one just around it. -/
theorem reverse_enclosing (text : List Char) :
    (enclosing [] text).reverse = [] ∨
      ∃ parent, (enclosing [] text).reverse = packageChain parent := by
  by_cases slashed : '/' ∈ text.reverse
  · obtain ⟨back, front, split, last⟩ := List.eq_append_cons_of_mem slashed
    have known : text = front.reverse ++ ('/' :: back.reverse) := by
      simpa using congrArg List.reverse split
    have nothing : enclosing ('/' :: front) back.reverse = [] := by
      apply List.eq_nil_iff_forall_not_mem.2
      intro outer member
      obtain ⟨before, behind, split, -⟩ := (mem_enclosing ..).1 member
      exact last (List.mem_reverse.1 (by simp [split]))
    refine .inr ⟨String.ofList front.reverse, ?_⟩
    rw [known, enclosing_append]
    simp [enclosing, nothing, packageChain]
  · refine .inl ?_
    rw [List.reverse_eq_nil_iff]
    apply List.eq_nil_iff_forall_not_mem.2
    intro outer member
    obtain ⟨front, back, split, -⟩ := (mem_enclosing ..).1 member
    exact slashed (by simp [split])

end packageChain

/-- A chain consists of a package and those around it. -/
theorem mem_packageChain (package outer : String) :
    outer ∈ packageChain package ↔ Encloses outer package := by
  rw [packageChain, List.mem_cons, List.mem_reverse, packageChain.mem_enclosing, Encloses]
  refine or_congr_right ?_
  constructor
  · rintro ⟨front, back, split, rfl⟩
    refine ⟨String.ofList back, ?_⟩
    apply String.toList_inj.1
    simpa using split
  · rintro ⟨inner, rfl⟩
    exact ⟨outer.toList, inner.toList, by simp, by simp⟩

/-- A list of packages that is the chain of its first member, or empty. -/
def IsPackageChain : List String → Prop
  | [] => True
  | package :: around => package :: around = packageChain package

/-- The packages around a package are a chain. -/
theorem isPackageChain (package : String) : IsPackageChain (packageChain package) :=
  (rfl : packageChain package = packageChain package)

/-- Behind a package stands the chain of the package just around it. -/
theorem IsPackageChain.tail {package : String} {around : List String}
    (chain : IsPackageChain (package :: around)) : IsPackageChain around := by
  obtain ⟨-, rfl⟩ := List.cons.inj chain
  obtain none | ⟨parent, parentChain⟩ := packageChain.reverse_enclosing package.toList
  · rw [none]
    trivial
  · rw [parentChain]
    exact isPackageChain parent

/-- The outer part of a chain is a chain. -/
theorem IsPackageChain.of_append {inner outer : List String}
    (chain : IsPackageChain (inner ++ outer)) : IsPackageChain outer := by
  induction inner with
  | nil => exact chain
  | cons package inner inductionHypothesis => exact inductionHypothesis chain.tail

/-- The names of packages get shorter along a chain. -/
theorem IsPackageChain.pairwise {chain : List String} (isChain : IsPackageChain chain) :
    chain.Pairwise fun inner outer => outer.length < inner.length := by
  induction chain with
  | nil => exact .nil
  | cons package around inductionHypothesis =>
    refine .cons ?_ (inductionHypothesis isChain.tail)
    intro outer member
    obtain ⟨-, rfl⟩ := List.cons.inj isChain
    rw [List.mem_reverse, packageChain.mem_enclosing] at member
    obtain ⟨front, back, split, rfl⟩ := member
    rw [← String.length_toList, ← String.length_toList, split]
    simp

/-! ## Packages that have a say -/

namespace RootScope

variable (scope : RootScope)

/-- A package has a say: it has a name and lies in the scope. -/
def Covers (package : String) : Prop := package ≠ "" ∧ scope.contains package = true

/-- Whether a package has a say can be seen from its name. -/
instance : DecidablePred scope.Covers := fun package =>
  inferInstanceAs (Decidable (package ≠ "" ∧ scope.contains package = true))

/-- A package has no say if it is the unnamed one or outside the root. -/
theorem not_covers_iff (package : String) :
    ¬ scope.Covers package ↔ (package.isEmpty || !scope.contains package) = true := by
  rw [Covers, Bool.or_eq_true, String.isEmpty_iff, Bool.not_eq_true']
  by_cases unnamed : package = ""
  · simp [unnamed]
  · simp [unnamed]

/-- Scopes are closed inwards. -/
theorem Covers.of_encloses {scope : RootScope} {outer package : String}
    (covers : scope.Covers outer) (encloses : Encloses outer package) : scope.Covers package := by
  obtain rfl | ⟨inner, rfl⟩ := encloses
  · exact covers
  · obtain ⟨-, inside⟩ := covers
    constructor
    · intro unnamed
      have impossible := congrArg String.toList unnamed
      simp at impossible
    · rw [contains, Text.startsWith, List.isPrefixOf_iff_prefix] at inside ⊢
      rw [String.toList_append, String.toList_append]
      exact inside.trans ((List.prefix_append ..).trans (List.prefix_append ..))

/-- The packages around a package that have a say, innermost first, itself included. -/
def packagesAround (package : String) : List String := (packageChain package).filter scope.Covers

/-- The packages around that have a say are those that enclose and are covered. -/
theorem mem_packagesAround (package outer : String) :
    outer ∈ scope.packagesAround package ↔ Encloses outer package ∧ scope.Covers outer := by
  rw [packagesAround, List.mem_filter, mem_packageChain, decide_eq_true_iff]

/-- Without a say of its own a package has nobody around it who has one. -/
theorem filter_eq_nil {package : String} {around : List String}
    (chain : IsPackageChain (package :: around)) (outside : ¬ scope.Covers package) :
    (package :: around).filter scope.Covers = [] := by
  rw [List.filter_eq_nil_iff]
  intro outer member
  rw [decide_eq_true_iff]
  intro covers
  have encloses : Encloses outer package := by
    rw [← mem_packageChain, ← chain]
    exact member
  exact outside (covers.of_encloses encloses)

end RootScope

end NullGuard
