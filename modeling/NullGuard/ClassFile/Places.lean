import NullGuard.ClassFile.Constant
import Std.Data.TreeMap

/-!
# Places of constants

Where each constant of a sequence of slots stands for the first time. Places are
kept by the written forms of the constants, which tell them apart and have an
order. The main statement, `find?_of`, says that looking a constant up is the
same as going through the slots for it.
-/

namespace NullGuard

/-- Where constants stand for the first time, by their written forms. -/
abbrev Places := Std.TreeMap (List UInt8) Nat

namespace Places

/-- Take note of the slot at a place. What stands further in front counts. -/
def add (places : Places) (slot : Option Constant) (place : Nat) : Places :=
  match slot with
  | some constant => places.insertIfNew constant.written place
  | none => places

/-- The places in some slots, the first of which is at `place`. -/
def addAll (places : Places) (place : Nat) : List (Option Constant) → Places
  | [] => places
  | slot :: rest => addAll (places.add slot place) (place + 1) rest

/-- The places in some slots. -/
def of (slots : Array (Option Constant)) : Places := addAll ∅ 0 slots.toList

/-- The place of a constant, if it has one. -/
def find? (places : Places) (constant : Constant) : Option Nat := places[constant.written]?

/-- Slots can be added in two parts, the second part from where the first one ends. -/
theorem addAll_append (places : Places) (place : Nat) (front back : List (Option Constant)) :
    addAll places place (front ++ back) =
      addAll (addAll places place front) (place + front.length) back := by
  induction front generalizing places place with
  | nil => rfl
  | cons slot rest ih =>
    simp only [List.cons_append, addAll, ih, List.length_cons]
    congr 1
    omega

/-- A slot behind the others is taken note of last. -/
theorem of_push (slots : Array (Option Constant)) (slot : Option Constant) :
    of (slots.push slot) = (of slots).add slot slots.size := by
  simp [of, addAll_append, addAll]

/-- What is known about a constant does not change; of one that was not known,
the slot tells whether it is the one. -/
theorem find?_add (places : Places) (slot : Option Constant) (place : Nat) (constant : Constant) :
    (places.add slot place).find? constant =
      (places.find? constant).or (if slot = some constant then some place else none) := by
  cases slot with
  | none => simp [add, find?]
  | some other =>
    simp only [add, find?, Std.TreeMap.getElem?_insertIfNew, Std.LawfulEqCmp.compare_eq_iff_eq,
      Constant.written_inj, Option.some.injEq]
    by_cases same : other = constant
    · subst same
      cases known : places[other.written]? with
      | none =>
        have absent : other.written ∉ places := by
          simpa using known
        simp [absent]
      | some place =>
        have present : other.written ∈ places := by
          rw [← Std.TreeMap.isSome_getElem?_iff_mem, known]; rfl
        simp [present]
    · simp [same]

/-- A constant is found where it was before, or else in the first of the added slots that
holds it. -/
theorem find?_addAll (places : Places) (place : Nat) (slots : List (Option Constant))
    (constant : Constant) :
    (addAll places place slots).find? constant =
      (places.find? constant).or
        ((slots.findIdx? (· == some constant)).map (· + place)) := by
  induction slots generalizing places place with
  | nil => simp [addAll]
  | cons slot rest ih =>
    rw [addAll, ih, find?_add, List.findIdx?_cons, Option.or_assoc]
    congr 1
    by_cases same : slot = some constant
    · simp [same]
    · simp only [same, if_false, Option.none_or, beq_iff_eq, Option.map_map]
      congr 1
      funext index
      simp only [Function.comp]
      omega

/-- Looking a constant up is the same as going through the slots for it. -/
theorem find?_of (slots : Array (Option Constant)) (constant : Constant) :
    (of slots).find? constant = slots.toList.findIdx? (· == some constant) := by
  rw [of, find?_addAll]
  simp [find?]

end Places

end NullGuard
