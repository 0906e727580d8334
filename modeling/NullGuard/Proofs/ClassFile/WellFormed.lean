import NullGuard.Proofs.ClassFile.RoundTrip
import NullGuard.Proofs.Invariant

/-!
# Well-formed pools stay well-formed

Constants that are added to a pool take one slot each, they fit into their written
form, and there is room for one more. So a pool that could be written can still be
written when constants have been added, however far the adding came, and the same
holds of a class to which something is added.
-/

namespace NullGuard

open Stateful

/-! ## Pools -/

namespace Pool

/-- A constant that takes one slot can stand behind the others. -/
theorem Filled.append {slots : List (Option Constant)} (filled : Filled slots)
    (constant : Constant) (narrow : constant.isWide = false) (fits : constant.Fits) :
    Filled (slots ++ [some constant]) := by
  induction filled with
  | nil => exact .narrow narrow fits .nil
  | narrow isNarrow fitsFirst _ inductionHypothesis =>
    exact .narrow isNarrow fitsFirst inductionHypothesis
  | wide isWide fitsFirst _ inductionHypothesis =>
    exact .wide isWide fitsFirst inductionHypothesis

/-- A constant of one slot can be put behind the others as long as there is room. -/
theorem WellFormed.push {pool : Pool} (wellFormed : pool.WellFormed) (constant : Constant)
    (narrow : constant.isWide = false) (fits : constant.Fits) (room : pool.size < maxSize) :
    (pool.push constant).WellFormed := by
  obtain ⟨constants, slots, filled⟩ := wellFormed.filled
  have pushed : (pool.push constant).slots = pool.slots.push (some constant) := rfl
  constructor
  · refine ⟨constants ++ [some constant], ?_, filled.append constant narrow fits⟩
    rw [pushed, Array.toList_push, slots, List.cons_append]
  · rw [size, pushed, Array.size_push]
    exact room

/-- The result of interning is the same pool, or a pool with one constant more. -/
theorem upholds_intern (constant : Constant) (narrow : constant.isWide = false)
    (fits : constant.Fits) : Upholds WellFormed (intern constant) := by
  rw [upholds_iff]
  intro pool wellFormed
  show (pool.interned constant).2.WellFormed
  unfold interned
  split
  · exact wellFormed
  · split
    · next room => exact wellFormed.push constant narrow fits room
    · exact wellFormed

/-- A text is not added unless its length can be written. -/
instance (text : String) : Upholds WellFormed (addUtf8 text) := by
  unfold addUtf8
  dsimp only
  split
  · next short => exact upholds_intern _ rfl short
  · infer_instance

/-- Adding a class entry spoils no pool. -/
instance (name : String) : Upholds WellFormed (addClass name) :=
  .bind inferInstance fun _ => upholds_intern _ rfl trivial

/-- Adding a string constant spoils no pool. -/
instance (text : String) : Upholds WellFormed (addString text) :=
  .bind inferInstance fun _ => upholds_intern _ rfl trivial

/-- Adding a name and type entry spoils no pool. -/
instance (name descriptor : String) : Upholds WellFormed (addNameAndType name descriptor) :=
  .bind inferInstance fun _ => .bind inferInstance fun _ => upholds_intern _ rfl trivial

/-- Adding a field reference spoils no pool. -/
instance (owner name descriptor : String) :
    Upholds WellFormed (addFieldRef owner name descriptor) :=
  .bind inferInstance fun _ => .bind inferInstance fun _ => upholds_intern _ rfl trivial

/-- Adding a method reference spoils no pool. -/
instance (owner name descriptor : String) :
    Upholds WellFormed (addMethodRef owner name descriptor) :=
  .bind inferInstance fun _ => .bind inferInstance fun _ => upholds_intern _ rfl trivial

end Pool

/-! ## Classes -/

namespace ClassFile

/-- The pool of the class is well-formed. -/
def HasPool (file : ClassFile) : Prop := file.pool.WellFormed

/-- What spoils no pool spoils no class to whose pool it is done. -/
instance {α : Type} (growth : Pool.Growth α) [upholds : Upholds Pool.WellFormed growth] :
    Upholds HasPool (growing growth) := by
  rw [upholds_iff]
  intro file wellFormed
  exact (upholds_iff growth).1 upholds file.pool wellFormed

/-- Adding a method spoils no pool, whether the method has code or not. -/
instance (access : UInt16) (name descriptor : String) (code : Option (List UInt8)) :
    Upholds HasPool (addMethod access name descriptor code) := by
  unfold addMethod
  refine .bind inferInstance fun nameIndex => .bind inferInstance fun descriptorIndex => ?_
  cases code with
  | none =>
    exact .bind inferInstance fun attributes => upholds_modify _ fun file wellFormed => wellFormed
  | some contents =>
    exact .bind inferInstance fun attributes => upholds_modify _ fun file wellFormed => wellFormed

/-- Adding an attribute spoils no pool. -/
instance (name : String) (contents : List UInt8) :
    Upholds HasPool (addAttribute name contents) :=
  .bind inferInstance fun _ => upholds_modify _ fun _ wellFormed => wellFormed

end ClassFile

end NullGuard
