import NullGuard.Bytes.Reader
import NullGuard.Bytes.Written

/-!
# Annotations

An annotation names its type and gives values to its elements; a value may hold
annotations and further values, to any depth. Reading builds the whole tree and
so accepts exactly what the grammar of annotations allows; `written` is the byte
form that was read.

Nesting is bounded by the number of bytes, since each level takes at least one.
Readers are therefore given the number of bytes as the depth they may go to, and
one that has come to that depth has no bytes left.
-/

namespace NullGuard

mutual

/-- A type and values for named elements. -/
inductive AnnotationTree
  | mk (type : UInt16) (elements : List (UInt16 × ElementValue))
  deriving Repr

/-- What an element of an annotation is set to. -/
inductive ElementValue
  /-- A number, a text or a class, by its tag. -/
  | constant (tag : UInt8) (index : UInt16)
  | enumeration (type name : UInt16)
  | nested (inner : AnnotationTree)
  | array (values : List ElementValue)
  deriving Repr

end

/-- The tags of values that are a single constant: `B C D F I J S Z s c`. -/
def ElementValue.constantTags : List UInt8 := [66, 67, 68, 70, 73, 74, 83, 90, 115, 99]

namespace AnnotationTree

/-- The index of the type's descriptor. -/
def type : AnnotationTree → UInt16
  | .mk type _ => type

/-- The values by element. -/
def elements : AnnotationTree → List (UInt16 × ElementValue)
  | .mk _ elements => elements

/-- An annotation whose values are read by `value`. -/
def readWith (value : Reader ElementValue) : Reader AnnotationTree := do
  let type ← Reader.u16
  return .mk type (← Reader.table do
    let name ← Reader.u16
    return (name, ← value))

end AnnotationTree

namespace ElementValue

/-- A value that is nested at most `depth` levels deep. -/
def read : Nat → Reader ElementValue
  | 0 => fail .truncated
  | depth + 1 => do
    let tag ← Reader.u8
    if tag ∈ constantTags then return .constant tag (← Reader.u16)
    else if tag = 101 then
      let type ← Reader.u16
      return .enumeration type (← Reader.u16)
    else if tag = 64 then return .nested (← AnnotationTree.readWith (read depth))
    else if tag = 91 then return .array (← Reader.table (read depth))
    else fail (.unknownElementTag tag)

end ElementValue

namespace AnnotationTree

/-- The next annotation, whose values are nested at most `depth` levels deep. -/
def read (depth : Nat) : Reader AnnotationTree := readWith (ElementValue.read depth)

end AnnotationTree

mutual

/-- The byte form of an annotation with fewer than 65536 elements, in front of
other bytes. -/
def AnnotationTree.writtenBefore : AnnotationTree → List UInt8 → List UInt8
  | .mk type elements, rest =>
    Written.u16 type ++ (Written.u16 (UInt16.ofNat elements.length) ++
      ElementValue.elementsBefore elements rest)

/-- The byte form of the elements of an annotation, in front of other bytes. -/
def ElementValue.elementsBefore : List (UInt16 × ElementValue) → List UInt8 → List UInt8
  | [], rest => rest
  | (name, value) :: others, rest =>
    Written.u16 name ++ value.writtenBefore (ElementValue.elementsBefore others rest)

/-- The byte form of a value whose arrays have fewer than 65536 items, in front
of other bytes. -/
def ElementValue.writtenBefore : ElementValue → List UInt8 → List UInt8
  | .constant tag index, rest => tag :: Written.u16 index ++ rest
  | .enumeration type name, rest => 101 :: Written.u16 type ++ (Written.u16 name ++ rest)
  | .nested inner, rest => 64 :: inner.writtenBefore rest
  | .array values, rest =>
    91 :: Written.u16 (UInt16.ofNat values.length) ++ ElementValue.allBefore values rest

/-- The byte forms of some values, in front of other bytes. -/
def ElementValue.allBefore : List ElementValue → List UInt8 → List UInt8
  | [], rest => rest
  | value :: others, rest => value.writtenBefore (ElementValue.allBefore others rest)

end

/-- The byte form of an annotation with fewer than 65536 elements. -/
def AnnotationTree.written (tree : AnnotationTree) : List UInt8 := tree.writtenBefore []

/-- The byte form of a value whose arrays have fewer than 65536 items. -/
def ElementValue.written (value : ElementValue) : List UInt8 := value.writtenBefore []

mutual

/-- Bytes that stand behind the byte form of an annotation stay behind it, however many of
them are handed on. -/
theorem AnnotationTree.writtenBefore_append (tree : AnnotationTree) (front back : List UInt8) :
    tree.writtenBefore (front ++ back) = tree.writtenBefore front ++ back := by
  obtain ⟨type, elements⟩ := tree
  simp only [AnnotationTree.writtenBefore, List.append_assoc,
    ElementValue.elementsBefore_append elements front back]

/-- The same for the elements of an annotation. -/
theorem ElementValue.elementsBefore_append (elements : List (UInt16 × ElementValue))
    (front back : List UInt8) :
    ElementValue.elementsBefore elements (front ++ back) =
      ElementValue.elementsBefore elements front ++ back := by
  match elements with
  | [] => rfl
  | (name, value) :: others =>
    simp only [ElementValue.elementsBefore, ElementValue.elementsBefore_append others front back,
      ElementValue.writtenBefore_append value, List.append_assoc]

/-- The same for a value. -/
theorem ElementValue.writtenBefore_append (value : ElementValue) (front back : List UInt8) :
    value.writtenBefore (front ++ back) = value.writtenBefore front ++ back := by
  match value with
  | .constant tag index => simp only [ElementValue.writtenBefore, List.append_assoc,
      List.cons_append]
  | .enumeration type name => simp only [ElementValue.writtenBefore, List.append_assoc,
      List.cons_append]
  | .nested inner =>
    simp only [ElementValue.writtenBefore, AnnotationTree.writtenBefore_append inner,
      List.cons_append]
  | .array values =>
    simp only [ElementValue.writtenBefore, ElementValue.allBefore_append values,
      List.append_assoc, List.cons_append]

/-- The same for the items of an array. -/
theorem ElementValue.allBefore_append (values : List ElementValue) (front back : List UInt8) :
    ElementValue.allBefore values (front ++ back) =
      ElementValue.allBefore values front ++ back := by
  match values with
  | [] => rfl
  | value :: others =>
    simp only [ElementValue.allBefore, ElementValue.allBefore_append others front back,
      ElementValue.writtenBefore_append value]

end

/-- Other bytes stand behind the byte form of a value as they are. -/
theorem ElementValue.writtenBefore_eq (value : ElementValue) (rest : List UInt8) :
    value.writtenBefore rest = value.written ++ rest :=
  ElementValue.writtenBefore_append value [] rest

namespace AnnotationTree

/-- The types of the annotations on a class, a field or a method. -/
def types (contents : List UInt8) : Except Failure (List UInt16) := do
  return (← Reader.whole "annotations" (Reader.table (read contents.length)) contents).map type

/-- The types of the annotations on each parameter that the attribute lists. -/
def parameterTypes (contents : List UInt8) : Except Failure (List (List UInt16)) := do
  let parameters ← Reader.whole "parameter annotations" (do
    let count ← Reader.u8
    Reader.times count.toNat (Reader.table (read contents.length))) contents
  return parameters.map (·.map type)

end AnnotationTree

end NullGuard
