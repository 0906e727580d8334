import Mathlib.Data.List.Nodup
import NullGuard.Proofs.Text.Split
import NullGuard.Run.Input

/-!
# Names of classes in the input

A file that is woven has the name of its class in its path, so a name belongs to one
path only. Of the classes of an input with different paths no two have the same name.
-/

namespace NullGuard

/-- A value is found by its name if no other value has that name. -/
theorem lookup_eq_some_iff_mem {α β : Type} [BEq α] [LawfulBEq α] {items : List (α × β)}
    (distinct : (items.map Prod.fst).Nodup) (name : α) (value : β) :
    items.lookup name = some value ↔ (name, value) ∈ items := by
  constructor
  · intro found
    obtain ⟨front, back, rfl, -⟩ := List.lookup_eq_some_iff.1 found
    exact List.mem_append_right _ List.mem_cons_self
  · intro member
    obtain ⟨front, back, rfl⟩ := List.append_of_mem member
    refine List.lookup_eq_some_iff.2 ⟨front, back, rfl, fun item inside => ?_⟩
    rw [List.map_append, List.map_cons] at distinct
    rw [bne_iff_ne]
    rintro rfl
    exact List.disjoint_of_nodup_append distinct (List.mem_map_of_mem inside) List.mem_cons_self

/-- Which files hold a class that is woven, and under which name. -/
theorem weavableName_eq_some (path name : String) :
    weavableName path = some name ↔
      path = name ++ classEnding ∧ name ≠ "" ∧ lastPiece path ≠ "module-info.class" ∧
        Text.startsWith path variantsFolder = false := by
  rw [weavableName]
  by_cases variant : Text.startsWith path variantsFolder = true
  · simp [variant]
  · rw [if_neg variant]
    cases dropped : Text.dropEnding path classEnding with
    | none =>
      have different : path ≠ name ++ classEnding := by
        intro same
        rw [(Text.dropEnding_eq_some ..).2 same] at dropped
        cases dropped
      simp [different]
    | some front =>
      have same := (Text.dropEnding_eq_some ..).1 dropped
      have unique : path = name ++ classEnding ↔ front = name := by
        rw [← Text.dropEnding_eq_some, dropped, Option.some.injEq]
      dsimp only
      rw [unique]
      split
      next none =>
        constructor
        · intro impossible
          cases impossible
        · rintro ⟨rfl, named, isClass, -⟩
          rcases none with isModule | unnamed
          · exact (isClass isModule).elim
          · exact (named (by simpa using unnamed)).elim
      next fits =>
        rw [not_or] at fits
        rw [Option.some.injEq]
        constructor
        · rintro rfl
          exact ⟨rfl, by simpa using fits.2, fits.1, Bool.eq_false_iff.2 variant⟩
        · rintro ⟨rfl, -⟩
          rfl

/-- The path of a class that is woven follows from its name. -/
theorem path_of_weavableName (path name : String) (named : weavableName path = some name) :
    path = name ++ classEnding :=
  ((weavableName_eq_some ..).1 named).1

namespace Inputs

/-- The classes of an input are its entries that are woven, by their names. -/
theorem mem_classes (inputs : Inputs) (name : String) (entry : InputEntry) :
    (name, entry) ∈ inputs.classes ↔ entry ∈ inputs.entries ∧ entry.className = some name := by
  rw [classes, List.mem_filterMap]
  constructor
  · rintro ⟨other, inside, same⟩
    obtain ⟨found, named, same⟩ := Option.map_eq_some_iff.1 same
    obtain ⟨rfl, rfl⟩ := Prod.mk.inj same
    exact ⟨inside, named⟩
  · rintro ⟨inside, named⟩
    exact ⟨entry, inside, by rw [named]; rfl⟩

/-- Classes with different paths have different names. -/
theorem nodup_classes (inputs : Inputs) (distinct : (inputs.entries.map InputEntry.path).Nodup)
    (named : ∀ entry ∈ inputs.entries, entry.className = weavableName entry.path) :
    (inputs.classes.map Prod.fst).Nodup := by
  rw [List.Nodup, List.pairwise_map] at distinct
  rw [List.Nodup, List.pairwise_map, classes, List.pairwise_filterMap]
  refine distinct.imp_of_mem fun {first second} firstInside secondInside apart => ?_
  intro _ firstHere _ secondHere same
  obtain ⟨name, firstNamed, rfl⟩ := Option.map_eq_some_iff.1 firstHere
  obtain ⟨other, secondNamed, rfl⟩ := Option.map_eq_some_iff.1 secondHere
  obtain rfl : name = other := same
  rw [named first firstInside] at firstNamed
  rw [named second secondInside] at secondNamed
  exact apart ((path_of_weavableName _ _ firstNamed).trans
    (path_of_weavableName _ _ secondNamed).symm)

end Inputs

end NullGuard
