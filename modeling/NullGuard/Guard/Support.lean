import NullGuard.Annotations.Tree
import NullGuard.Code.Body
import NullGuard.Guard.Check

/-!
# Support classes

The classes that woven code needs when it runs: the two marker annotations, the
exceptions and the helper class with one method for each kind of check. They
are of a class file version that needs no stack maps.
-/

namespace NullGuard

/-- A class to be written beside the woven ones. -/
structure SupportClass where
  name : String
  bytes : List UInt8
  deriving DecidableEq, Repr

namespace SupportClass

/-- The class file version of all support classes. -/
def version : UInt16 := 49

/-- The class that all others extend. -/
def objectClass : String := "java/lang/Object"

/-- The class by which an exception puts its message together. -/
def stringBuilderClass : String := "java/lang/StringBuilder"

/-- The class that the base of all exceptions extends. -/
def throwableClass : String := "java/lang/RuntimeException"

/-- The name of every constructor. -/
def constructorName : String := "<init>"

/-- The descriptor of a constructor that takes a text. -/
def textConstructor : String := "(Ljava/lang/String;)V"

/-- The class that a series of edits makes of an empty one. -/
def build (name superName : String) (access : UInt16) (edits : ClassFile.Edit Unit) :
    Except Failure SupportClass := do
  let file ← ClassFile.create name superName access version
  let (result, file) := edits.run file
  result
  return ⟨← file.name, ← file.written⟩

/-- Add a method that consists of some instructions. -/
def addMethod (access : UInt16) (name descriptor : String) (maxStack maxLocals : UInt16)
    (code : List (Instruction Label)) : ClassFile.Edit Unit := do
  let body ← settle (Body.generate (Stream.ofInstructions code) maxStack maxLocals)
  ClassFile.addMethod access name descriptor (some (← settle body.written))

/-! ## Markers -/

/-- The two markers. -/
def markerNames : List String := ["notnullcheckweaver/NotNull", "notnullcheckweaver/Nullable"]

/-- Where a marker may stand. -/
def markerPlaces : List String := ["PACKAGE", "TYPE", "FIELD", "PARAMETER", "METHOD"]

/-- The annotations on a marker: it is documented, visible when a program runs,
and may stand at the places listed. -/
def markerMeta : Pool.Growth (List AnnotationTree) := do
  let value ← Pool.addUtf8 "value"
  let documented ← Pool.addUtf8 "Ljava/lang/annotation/Documented;"
  let retention ← Pool.addUtf8 "Ljava/lang/annotation/Retention;"
  let retentionPolicy ← Pool.addUtf8 "Ljava/lang/annotation/RetentionPolicy;"
  let runtime ← Pool.addUtf8 "RUNTIME"
  let target ← Pool.addUtf8 "Ljava/lang/annotation/Target;"
  let elementType ← Pool.addUtf8 "Ljava/lang/annotation/ElementType;"
  let places ← markerPlaces.mapM Pool.addUtf8
  return [.mk documented [], .mk retention [(value, .enumeration retentionPolicy runtime)],
    .mk target [(value, .array (places.map (.enumeration elementType ·)))]]

/-- A marker. -/
def marker (name : String) : Except Failure SupportClass :=
  build name objectClass
    (Access.publicFlag ||| Access.interfaceFlag ||| Access.abstractFlag |||
      Access.annotationFlag) do
    ClassFile.addInterface "java/lang/annotation/Annotation"
    let metas ← ClassFile.growing markerMeta
    ClassFile.addAttribute "RuntimeVisibleAnnotations"
      (Written.u16 (UInt16.ofNat metas.length) ++ metas.flatMap AnnotationTree.written)

/-! ## Exceptions -/

/-- The class that all exceptions extend; its constructor takes the message. -/
def baseException : Except Failure SupportClass :=
  build baseExceptionClass throwableClass
    (Access.publicFlag ||| Access.superFlag ||| Access.abstractFlag) do
    let superInit ← ClassFile.growing
      (Pool.addMethodRef throwableClass constructorName textConstructor)
    addMethod Access.publicFlag constructorName textConstructor 2 2
      [.plain Opcode.aload0, .plain Opcode.aload1, .withWord Opcode.invokespecial superInit,
        .plain Opcode.vreturn]

/-- A field that keeps the detail of a check, and its accessor. -/
structure DetailField where
  name : String
  descriptor : String
  accessor : String
  /-- The opcode that loads the detail from the first parameter. -/
  load : UInt8
  /-- The opcode that returns the detail. -/
  giveBack : UInt8
  deriving DecidableEq, Repr

/-- The field for a detail, if there is a detail to keep. -/
def DetailField.ofDetail : CheckDetail → Option DetailField
  | .none => none
  | .argumentIndex => some ⟨"index", "I", "getArgumentIndex", Opcode.iload1, Opcode.ireturn⟩
  | .fieldName =>
    some ⟨"fieldName", "Ljava/lang/String;", "getFieldName", Opcode.aload1, Opcode.areturn⟩

/-- The members of an exception without detail: its message is fixed. -/
def plainException (kind : CheckKind) (superInit : UInt16) : ClassFile.Edit Unit := do
  let message ← ClassFile.growing (Pool.addString kind.messageParts.1)
  addMethod Access.publicFlag constructorName kind.constructorDescriptor 2 1
    [.plain Opcode.aload0, .loadConstant message, .withWord Opcode.invokespecial superInit,
      .plain Opcode.vreturn]

/-- The members of an exception that keeps a detail and shows it in its message. -/
def detailedException (kind : CheckKind) (superInit : UInt16) (detail : DetailField) :
    ClassFile.Edit Unit := do
  ClassFile.addField (Access.privateFlag ||| Access.finalFlag) detail.name detail.descriptor
  let field ← ClassFile.growing
    (Pool.addFieldRef kind.exceptionClass detail.name detail.descriptor)
  let builder ← ClassFile.growing (Pool.addClass stringBuilderClass)
  let builderMethod (name descriptor : String) : ClassFile.Edit UInt16 :=
    ClassFile.growing (Pool.addMethodRef stringBuilderClass name descriptor)
  let builderInit ← builderMethod constructorName textConstructor
  let appendDetail ←
    builderMethod "append" s!"({detail.descriptor})Ljava/lang/StringBuilder;"
  let appendText ← builderMethod "append" "(Ljava/lang/String;)Ljava/lang/StringBuilder;"
  let toText ← builderMethod "toString" "()Ljava/lang/String;"
  let opening ← ClassFile.growing (Pool.addString kind.messageParts.1)
  let closing ← ClassFile.growing (Pool.addString kind.messageParts.2)
  addMethod Access.publicFlag constructorName kind.constructorDescriptor 4 2
    [.plain Opcode.aload0, .withWord Opcode.new builder, .plain Opcode.dup,
      .loadConstant opening, .withWord Opcode.invokespecial builderInit, .plain detail.load,
      .withWord Opcode.invokevirtual appendDetail, .loadConstant closing,
      .withWord Opcode.invokevirtual appendText, .withWord Opcode.invokevirtual toText,
      .withWord Opcode.invokespecial superInit, .plain Opcode.aload0, .plain detail.load,
      .withWord Opcode.putfield field, .plain Opcode.vreturn]
  addMethod Access.publicFlag detail.accessor s!"(){detail.descriptor}" 1 1
    [.plain Opcode.aload0, .withWord Opcode.getfield field, .plain detail.giveBack]

/-- The exception of a kind of check. -/
def exception (kind : CheckKind) : Except Failure SupportClass :=
  build kind.exceptionClass baseExceptionClass (Access.publicFlag ||| Access.superFlag) do
    let superInit ← ClassFile.growing
      (Pool.addMethodRef baseExceptionClass constructorName textConstructor)
    match DetailField.ofDetail kind.detail with
    | none => plainException kind superInit
    | some detail => detailedException kind superInit detail

/-! ## Helper -/

/-- The method of the helper class for a kind of check: it returns if its first
argument is not null and throws otherwise. -/
def addCheck (kind : CheckKind) : ClassFile.Edit Unit := do
  let thrown ← ClassFile.growing (Pool.addClass kind.exceptionClass)
  let init ← ClassFile.growing
    (Pool.addMethodRef kind.exceptionClass constructorName kind.constructorDescriptor)
  let load : List (Instruction Label) :=
    match DetailField.ofDetail kind.detail with
    | none => []
    | some detail => [.plain detail.load]
  let size := UInt16.ofNat load.length
  addMethod (Access.publicFlag ||| Access.staticFlag) kind.methodName kind.methodDescriptor
    (2 + size) (1 + size)
    ([.plain Opcode.aload0, .jump Opcode.ifnonnull (6 + load.length),
      .withWord Opcode.new thrown, .plain Opcode.dup] ++ load ++
      [.withWord Opcode.invokespecial init, .plain Opcode.athrow, .plain Opcode.vreturn])

/-- The class whose methods make the checks. -/
def helper : Except Failure SupportClass :=
  build helperClass objectClass
    (Access.publicFlag ||| Access.finalFlag ||| Access.superFlag) do
    let superInit ← ClassFile.growing (Pool.addMethodRef objectClass constructorName "()V")
    addMethod Access.privateFlag constructorName "()V" 1 1
      [.plain Opcode.aload0, .withWord Opcode.invokespecial superInit, .plain Opcode.vreturn]
    CheckKind.all.forM addCheck

/-- All support classes in the order in which they are written. -/
def all : Except Failure (List SupportClass) := do
  let markers ← markerNames.mapM marker
  let base ← baseException
  let exceptions ← CheckKind.all.mapM fun kind =>
    during (.generate kind.exceptionClass) (exception kind)
  return markers ++ base :: exceptions ++ [← helper]

end SupportClass

end NullGuard
