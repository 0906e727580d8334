import NullGuard.Annotations.Tree
import NullGuard.ClassFile.Basic
import NullGuard.Nullness.Descriptor
import NullGuard.Text.Split

/-!
# Marked classes

What the weaver has to know about a class: its fields, methods and parameters
in the order of declaration, and which of them carry a marker. There are two
markers, one that forbids null and one that allows it. Markers are annotations;
only the annotations on an element itself count, not those nested in them.
-/

namespace NullGuard

/-- The markers on one element. -/
structure Markers where
  notNull : Bool
  nullable : Bool
  deriving DecidableEq, Repr

namespace Markers

/-- No marker. -/
def none : Markers := ⟨false, false⟩

/-- What the markers say about an element: `true` forbids null. An element with
both markers forbids it, one with neither says nothing. -/
def explicit (markers : Markers) : Option Bool :=
  if markers.notNull then some true
  else if markers.nullable then some false
  else Option.none

/-- Whether the two markers contradict each other. -/
def isConflicting (markers : Markers) : Bool := markers.notNull && markers.nullable

/-- The type of the marker that forbids null. -/
def notNullType : String := "Lnotnullcheckweaver/NotNull;"

/-- The type of the marker that allows null. -/
def nullableType : String := "Lnotnullcheckweaver/Nullable;"

/-- The bytes of the type of the marker that forbids null. -/
def notNullBytes : List UInt8 := Text.ModifiedUtf8.encode notNullType

/-- The bytes of the type of the marker that allows null. -/
def nullableBytes : List UInt8 := Text.ModifiedUtf8.encode nullableType

/-- Take note of an annotation by the bytes of its type. -/
def record (markers : Markers) (type : List UInt8) : Markers :=
  if type = notNullBytes then { markers with notNull := true }
  else if type = nullableBytes then { markers with nullable := true }
  else markers

/-- Take note of annotations by the indices of their types. -/
def recordAll (pool : Pool) (markers : Markers) (types : List UInt16) : Except Failure Markers :=
  types.foldlM (fun markers type => do return markers.record (← pool.utf8Bytes type)) markers

/-- The attributes that hold annotations on an element. -/
def elementAttributes : List String :=
  ["RuntimeVisibleAnnotations", "RuntimeInvisibleAnnotations"]

/-- The attributes that hold annotations on the parameters of a method. -/
def parameterAttributes : List String :=
  ["RuntimeVisibleParameterAnnotations", "RuntimeInvisibleParameterAnnotations"]

/-- The attributes that have one of some names. -/
def named (pool : Pool) (names : List String) (attributes : List Attribute) : List Attribute :=
  let names := names.map Text.ModifiedUtf8.encode
  attributes.filter fun entry => names.any fun bytes => pool.holds bytes entry.name

/-- The markers on an element with these attributes. -/
def ofAttributes (pool : Pool) (attributes : List Attribute) : Except Failure Markers :=
  (named pool elementAttributes attributes).foldlM
    (fun markers entry => do markers.recordAll pool (← AnnotationTree.types entry.contents))
    Markers.none

end Markers

/-- A field. -/
structure FieldModel where
  name : String
  descriptor : String
  isStatic : Bool
  isObject : Bool
  markers : Markers
  deriving DecidableEq, Repr

/-- A parameter at its position in the descriptor. -/
structure ParameterModel where
  index : Nat
  slot : UInt16
  isObject : Bool
  markers : Markers
  deriving DecidableEq, Repr

/-- A method. -/
structure MethodModel where
  name : String
  descriptor : String
  hasCode : Bool
  parameters : List ParameterModel
  returnKind : ReturnKind
  returnMarkers : Markers
  deriving DecidableEq, Repr

/-- A class. -/
structure ClassModel where
  name : String
  isInterface : Bool
  markers : Markers
  fields : List FieldModel
  methods : List MethodModel
  deriving DecidableEq, Repr

namespace MethodModel

/-- Whether a method is called on an object that has just been made. -/
def isConstructor (method : MethodModel) : Bool := method.name == "<init>"

/-- Whether a method is called when its class is loaded. -/
def isStaticInitializer (method : MethodModel) : Bool := method.name == "<clinit>"

/-- The parameters of a method without their markers. -/
def unmarked (shape : MethodShape) : List ParameterModel :=
  shape.parameters.zipIdx.map fun (parameter, index) =>
    ⟨index, parameter.slot, parameter.isObject, Markers.none⟩

/-- Take note of the annotations on parameters. A table may leave out leading
parameters that do not stand in the source text, so its rows belong to the last
parameters of the descriptor. -/
def markParameters (pool : Pool) (name descriptor : String) (parameters : List ParameterModel)
    (rows : List (List UInt16)) : Except Failure (List ParameterModel) := do
  if parameters.length < rows.length then fail (.tooManyAnnotated name descriptor)
  let shift := parameters.length - rows.length
  let marked ← ((parameters.drop shift).zip rows).mapM fun (parameter, types) => do
    return { parameter with markers := ← parameter.markers.recordAll pool types }
  return parameters.take shift ++ marked

/-- The model of a method. -/
def ofMember (file : ClassFile) (member : Member) : Except Failure MethodModel := do
  let pool := file.pool
  let name ← file.memberName member
  let descriptor ← file.memberDescriptor member
  let shape ← MethodShape.ofDescriptor descriptor member.isStatic
  let returnMarkers ← during (.readAnnotations (name ++ descriptor))
    (Markers.ofAttributes pool member.attributes)
  let tables := Markers.named pool Markers.parameterAttributes member.attributes
  let parameters ← tables.foldlM (fun parameters entry => do
    let rows ← during (.readParameterAnnotations (name ++ descriptor))
      (AnnotationTree.parameterTypes entry.contents)
    markParameters pool name descriptor parameters rows) (unmarked shape)
  let hasCode := (pool.findAttribute ClassFile.codeName member.attributes).isSome
  return ⟨name, descriptor, hasCode, parameters, shape.returnKind, returnMarkers⟩

end MethodModel

namespace FieldModel

/-- The model of a field. -/
def ofMember (file : ClassFile) (member : Member) : Except Failure FieldModel := do
  let name ← file.memberName member
  let descriptor ← file.memberDescriptor member
  let markers ← during (.readFieldAnnotations name)
    (Markers.ofAttributes file.pool member.attributes)
  return ⟨name, descriptor, member.isStatic, isObjectField descriptor, markers⟩

end FieldModel

/-- The package of a class: its name up to the last slash, nothing without one. -/
def packageOf (className : String) : String :=
  match Text.splitLast '/' className.toList with
  | some (package, _) => String.ofList package
  | none => ""

namespace ClassModel

/-- The model of a class. -/
def ofClass (file : ClassFile) : Except Failure ClassModel := do
  let name ← file.name
  let markers ← during .readClassAnnotations (Markers.ofAttributes file.pool file.attributes)
  let fields ← file.fields.mapM (FieldModel.ofMember file)
  let methods ← file.methods.mapM (MethodModel.ofMember file)
  return ⟨name, file.isInterface, markers, fields, methods⟩

/-- The package of the class. -/
def package (model : ClassModel) : String := packageOf model.name

end ClassModel

end NullGuard
