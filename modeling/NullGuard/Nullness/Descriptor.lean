import NullGuard.Failure

/-!
# Descriptors

A method descriptor lists the types of the parameters between parentheses and
then the type of the result. Each parameter takes one local variable slot, a
long or double two, counted from the slot behind the receiver.

The grammar is lenient: `void` may stand wherever a type may, the name of a
class may hold any characters but a semicolon, and what follows the result is
not looked at.
-/

namespace NullGuard

/-- A type as a descriptor writes it. -/
inductive FieldType
  | boolean
  | byte
  | char
  | short
  | int
  | float
  | long
  | double
  | void
  | object (name : List Char)
  | array (dimensions : Nat) (element : FieldType)
  deriving DecidableEq, Repr

namespace FieldType

/-- The types written by one letter. -/
def ofLetter? : Char → Option FieldType
  | 'Z' => some .boolean
  | 'B' => some .byte
  | 'C' => some .char
  | 'S' => some .short
  | 'I' => some .int
  | 'F' => some .float
  | 'J' => some .long
  | 'D' => some .double
  | 'V' => some .void
  | _ => none

/-- Whether the type is a class; an array of classes is none. -/
def isObject : FieldType → Bool
  | .object _ => true
  | _ => false

/-- The local variable slots that a value of the type takes. -/
def width : FieldType → Nat
  | .long | .double => 2
  | _ => 1

end FieldType

/-! ## Reading types -/

namespace Descriptor

/-- The most dimensions of an array. -/
def maxDimensions : Nat := 255

/-- Count the opening brackets in front of a type. -/
def readDimensions : Nat → List Char → Except DescriptorFault (Nat × List Char)
  | seen, '[' :: rest =>
    if seen < maxDimensions then readDimensions (seen + 1) rest else .error .tooManyDimensions
  | seen, rest => .ok (seen, rest)

/-- A type that is no array. -/
def readElement : List Char → Except DescriptorFault (FieldType × List Char)
  | [] => .error .endOfText
  | 'L' :: rest =>
    match rest.dropWhile (· != ';') with
    | [] => .error .missingSemicolon
    | _ :: after => .ok (.object (rest.takeWhile (· != ';')), after)
  | letter :: rest =>
    match FieldType.ofLetter? letter with
    | some type => .ok (type, rest)
    | none => .error .unknownType

/-- The next type. A closing parenthesis cannot end an array. -/
def readType (text : List Char) : Except DescriptorFault (FieldType × List Char) := do
  let (dimensions, rest) ← readDimensions 0 text
  if dimensions = 0 then readElement rest
  else if rest.head? = some ')' then .error .elementMissing
  else
    let (element, rest) ← readElement rest
    return (.array dimensions element, rest)

/-- The parameter types up to the closing parenthesis, at most `budget` of them;
`found` holds those before them, last one first. A type takes at least one
character, so a budget of the length of the text ends only with the text. -/
def readParameters : Nat → List FieldType → List Char →
    Except DescriptorFault (List FieldType × List Char)
  | _, found, ')' :: rest => .ok (found.reverse, rest)
  | 0, _, _ => .error .endOfText
  | budget + 1, found, text => do
    let (type, rest) ← readType text
    readParameters budget (type :: found) rest

/-- The parameter types and the result type of a method. -/
def read : List Char → Except DescriptorFault (List FieldType × FieldType)
  | '(' :: rest => do
    let (parameters, rest) ← readParameters rest.length [] rest
    if rest.head? = some ')' then .error .missingResult
    else
      let (result, _) ← readType rest
      return (parameters, result)
  | _ => .error .missingOpening

end Descriptor

/-! ## Method shapes -/

/-- What a method hands back. -/
inductive ReturnKind
  | void
  | primitive
  | reference
  deriving DecidableEq, Repr

/-- Which kind of value a type stands for as a result. -/
def FieldType.returnKind : FieldType → ReturnKind
  | .void => .void
  | .object _ | .array _ _ => .reference
  | _ => .primitive

/-- A parameter with the first local variable slot that it takes. -/
structure ParameterShape where
  isObject : Bool
  slot : UInt16
  deriving DecidableEq, Repr

/-- The parameters and the result of a method. -/
structure MethodShape where
  parameters : List ParameterShape
  returnKind : ReturnKind
  deriving DecidableEq, Repr

namespace MethodShape

/-- Give each type its slot, counted from `slot` on; `placed` holds the
parameters before it, last one first. -/
def placeFrom (slot : Nat) (placed : List ParameterShape) :
    List FieldType → Except Failure (List ParameterShape)
  | [] => .ok placed.reverse
  | type :: rest =>
    if slot + type.width < 65536 then
      placeFrom (slot + type.width) (⟨type.isObject, UInt16.ofNat slot⟩ :: placed) rest
    else fail .tooManyLocals

/-- The shape of a method by its descriptor. The receiver of an instance method
takes slot 0 and is not listed. -/
def ofDescriptor (descriptor : String) (isStatic : Bool) : Except Failure MethodShape := do
  match Descriptor.read descriptor.toList with
  | .error fault => during (.parseDescriptor descriptor) (fail (.malformedDescriptor fault))
  | .ok (parameters, result) =>
    let parameters ← placeFrom (if isStatic then 0 else 1) [] parameters
    return ⟨parameters, result.returnKind⟩

end MethodShape

/-- Whether the descriptor of a field names a class. -/
def isObjectField (descriptor : String) : Bool :=
  descriptor.toList.head? == some 'L' && descriptor.toList.getLast? == some ';'

end NullGuard
