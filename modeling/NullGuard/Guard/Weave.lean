import NullGuard.Code.Body
import NullGuard.Guard.Statistics
import NullGuard.Nullness.Policy
import Std.Data.TreeMap

/-!
# Weaving

Weaving puts a guard wherever a policy forbids null: parameters are checked at
the entry of a method, results before they are returned, fields after they are
read and before they are written. A constructor that returns checks all guarded
instance fields, a static initializer all guarded static fields; these checks
stand in two methods that weaving adds to the class, except that an interface
makes the checks in place. A woven class carries an empty attribute, so that it
is not woven again.

A method without any guard keeps its bytes, and a class without any guarded
field or guard is left alone.
-/

namespace NullGuard

/-- The name of the attribute that a woven class carries. -/
def wovenAttribute : String := "NotNullCheckWoven"

/-- The operand stack that a guard may need beyond what the method needs. -/
def guardStack : UInt16 := 2

/-- The added method that checks the instance fields. -/
def instanceCheckMethod : String := "$checkNotNullInstanceFieldsInitialized"

/-- The added method that checks the static fields. -/
def staticCheckMethod : String := "$checkNotNullStaticFieldsInitialized"

/-- The descriptor of both added methods. -/
def checkMethodDescriptor : String := "()V"

/-- Whether a class has been woven. -/
def ClassFile.isWoven (file : ClassFile) : Bool := (file.findAttribute wovenAttribute).isSome

/-! ## Guarded fields -/

/-- What identifies a field within its class. -/
structure FieldKey where
  name : String
  descriptor : String
  deriving DecidableEq, Repr

/-- The fields that must not be null, in the order of declaration. -/
structure GuardedFields where
  instances : List FieldKey
  statics : List FieldKey
  deriving DecidableEq, Repr

namespace GuardedFields

/-- The fields that a policy forbids to be null, as far as a class names their type. -/
def ofPolicy (model : ClassModel) (policy : Policy) : GuardedFields :=
  let guarded := ((model.fields.zip policy.fields).filter fun (field, verdict) =>
    verdict && field.isObject).map Prod.fst
  let keys (fields : List FieldModel) : List FieldKey :=
    fields.map fun field => ⟨field.name, field.descriptor⟩
  ⟨keys (guarded.filter fun field => !field.isStatic), keys (guarded.filter FieldModel.isStatic)⟩

/-- Whether no field is guarded. -/
def isEmpty (guarded : GuardedFields) : Bool := guarded.instances.isEmpty && guarded.statics.isEmpty

/-- Whether an instruction of the given opcode that names this field is guarded. -/
def accessedBy (guarded : GuardedFields) (opcode : UInt8) (key : FieldKey) : Bool :=
  if opcode = Opcode.getfield ∨ opcode = Opcode.putfield then guarded.instances.contains key
  else if opcode = Opcode.getstatic ∨ opcode = Opcode.putstatic then guarded.statics.contains key
  else false

end GuardedFields

/-! ## Groups -/

/-- The call of a check. -/
def checkCall (kind : CheckKind) : Pool.Growth (Instruction Label) := do
  return .withWord Opcode.invokestatic
    (← Pool.addMethodRef helperClass kind.methodName kind.methodDescriptor)

/-- Check the reference on top of the stack and leave it there. -/
def checkTop (kind : CheckKind) : Pool.Growth (List (Instruction Label)) := do
  return [.plain Opcode.dup, ← checkCall kind]

/-- Read a field and check it under its name. -/
def fieldCheck (className : String) (kind : CheckKind) (key : FieldKey) :
    Pool.Growth (List (Instruction Label)) := do
  let field ← Pool.addFieldRef className key.name key.descriptor
  let name ← Pool.addString key.name
  let read : List (Instruction Label) :=
    if kind = .constructorField then
      [.plain Opcode.aload0, .withWord Opcode.getfield field]
    else [.withWord Opcode.getstatic field]
  return read ++ [.loadConstant name, ← checkCall kind]

/-- Read and check fields one after the other. -/
def fieldChecks (className : String) (kind : CheckKind) (keys : List FieldKey) :
    Pool.Growth (List (Instruction Label)) := do
  return (← keys.mapM (fieldCheck className kind)).flatten

/-! ## Methods -/

/-- What has to be known to weave a method. -/
structure MethodPlan where
  className : String
  isInterface : Bool
  method : MethodModel
  verdicts : MethodVerdicts
  guarded : GuardedFields
  deriving DecidableEq, Repr

/-- A guard at an instruction. -/
inductive Insertion
  | nothing
  | before (kind : CheckKind) (group : List (Instruction Label))
  | after (kind : CheckKind) (group : List (Instruction Label))
  deriving DecidableEq, Repr

namespace Insertion

/-- The kinds of the guard, none or one. -/
def kinds : Insertion → List CheckKind
  | .nothing => []
  | .before kind _ | .after kind _ => [kind]

/-- Put the guard into a slot. -/
def apply (insertion : Insertion) (slot : Slot) : Slot :=
  match insertion with
  | .nothing => slot
  | .before _ group => { slot with before := slot.before ++ group }
  | .after _ group => { slot with after := slot.after ++ group }

end Insertion

/-- What is known about the members that indices of the pool refer to. -/
abbrev Remembered := Std.TreeMap UInt16 Bool

/-- A step in weaving a method: it adds constants and remembers members. -/
abbrev Guarding (α : Type) := StateT Remembered Pool.Growth α

namespace MethodPlan

/-- Check one parameter. -/
def parameterCheck (parameter : ParameterModel) : Pool.Growth (List (Instruction Label)) := do
  if 65536 ≤ parameter.index then fail .tooManyParameters
  return [.loadLocal parameter.slot, .pushNumber (UInt16.ofNat parameter.index),
    ← checkCall .argument]

/-- The parameters to check, in the order of the descriptor. -/
def guardedParameters (plan : MethodPlan) : List ParameterModel :=
  ((plan.method.parameters.zip plan.verdicts.parameters).filter fun (parameter, verdict) =>
    verdict && parameter.isObject).map Prod.fst

/-- Whether results are checked. -/
def guardsResult (plan : MethodPlan) : Bool :=
  plan.verdicts.result && plan.method.returnKind == .reference

/-- Whether a field instruction works on a guarded field of the class. The
answer for an index is remembered and used for every later instruction with the
same index. -/
def isGuardedAccess (plan : MethodPlan) (instruction : Instruction Label) : Guarding Bool := do
  let some index := instruction.poolIndex? | fail .fieldIndexMissing
  if let some known := (← getThe Remembered)[index]? then return known
  let member ← (settle ((← getThe Pool).memberRef index) : Pool.Growth MemberRef)
  let isGuarded := member.owner == plan.className &&
    plan.guarded.accessedBy instruction.opcode ⟨member.name, member.descriptor⟩
  modifyThe Remembered (·.insert index isGuarded)
  return isGuarded

/-- The checks when a static initializer returns. -/
def staticFieldGroup (plan : MethodPlan) : Pool.Growth (List (Instruction Label)) := do
  if plan.isInterface then
    fieldChecks plan.className .staticInitializerField plan.guarded.statics
  else
    let check ← Pool.addMethodRef plan.className staticCheckMethod checkMethodDescriptor
    return [.withWord Opcode.invokestatic check]

/-- The check when a constructor returns. -/
def instanceFieldGroup (plan : MethodPlan) : Pool.Growth (List (Instruction Label)) := do
  let check ← Pool.addMethodRef plan.className instanceCheckMethod checkMethodDescriptor
  return [.plain Opcode.aload0, .withWord Opcode.invokespecial check]

/-- The guard at an instruction. -/
def insertionAt (plan : MethodPlan) (instruction : Instruction Label) : Guarding Insertion := do
  let opcode := instruction.opcode
  if opcode = Opcode.areturn then
    if plan.guardsResult then return .before .result (← checkTop .result)
    else return .nothing
  else if opcode = Opcode.getfield ∨ opcode = Opcode.getstatic then
    if ← plan.isGuardedAccess instruction then return .after .getField (← checkTop .getField)
    else return .nothing
  else if opcode = Opcode.putfield ∨ opcode = Opcode.putstatic then
    if ← plan.isGuardedAccess instruction then return .before .putField (← checkTop .putField)
    else return .nothing
  else if opcode = Opcode.vreturn then
    if plan.method.isConstructor && !plan.guarded.instances.isEmpty then
      return .before .constructorField (← plan.instanceFieldGroup)
    else if plan.method.isStaticInitializer && !plan.guarded.statics.isEmpty then
      return .before .staticInitializerField (← plan.staticFieldGroup)
    else return .nothing
  else return .nothing

/-- The stream with all guards in it, and their kinds. -/
def guardStream (plan : MethodPlan) (stream : Stream) :
    Pool.Growth (Stream × List CheckKind) := do
  let checked := plan.guardedParameters
  let entry ← checked.mapM parameterCheck
  let insertions ← (stream.instructions.mapM plan.insertionAt : Guarding _).run' ∅
  let slots := List.zipWith Insertion.apply insertions stream.slots
  return ({ stream.insertAtEntry entry.flatten with slots },
    checked.map (fun _ => .argument) ++ insertions.flatMap Insertion.kinds)

/-- The new contents of a method's code attribute and what was put in, unless
there is nothing to put in. -/
def guardCode (plan : MethodPlan) (member : Member) :
    Pool.Growth (Option (List UInt8 × Statistics)) := do
  let some code := (← getThe Pool).findAttribute ClassFile.codeName member.attributes
    | fail (.invariant (.codeMissing plan.className plan.method.name))
  let body ← settle (Body.parse code.contents)
  let stream ← settle (Stream.decode body.code)
  let (stream, kinds) ← plan.guardStream stream
  if !stream.isModified then return none
  let body ← settle (body.rearranged stream (← getThe Pool) guardStack)
  return some (← settle body.written, Statistics.ofKinds kinds)

end MethodPlan

/-! ## Classes -/

namespace Weaving

/-- Fail unless a class, its model and a policy list the same elements. -/
def checkAlignment (file : ClassFile) (model : ClassModel) (policy : Policy) :
    Except Failure Unit := do
  if model.fields.length ≠ file.fields.length ∨ model.methods.length ≠ file.methods.length ∨
      policy.fields.length ≠ model.fields.length ∨
      policy.methods.length ≠ model.methods.length then
    fail (.invariant (.modelMismatch model.name))
  (model.methods.zip policy.methods).forM fun (method, verdicts) =>
    if method.parameters.length ≠ verdicts.parameters.length then
      fail (.invariant (.verdictMismatch model.name method.name))
    else pure ()

/-- The new code of each method that gets a guard. -/
def guardMethods (members : List Member) (model : ClassModel) (policy : Policy)
    (guarded : GuardedFields) : Pool.Growth (List (Option (List UInt8 × Statistics))) :=
  (members.zip (model.methods.zip policy.methods)).mapM fun (member, method, verdicts) =>
    if method.hasCode then
      let plan : MethodPlan :=
        { className := model.name, isInterface := model.isInterface, method, verdicts, guarded }
      during (.weaveMethod model.name (method.name ++ method.descriptor)) (plan.guardCode member)
    else pure none

/-- Give the first attribute of a name new contents. -/
def replaceContents (pool : Pool) (name : String) (contents : List UInt8) :
    List Attribute → Option (List Attribute)
  | [] => none
  | entry :: rest =>
    if pool.utf8Is entry.name name then some ({ entry with contents } :: rest)
    else (replaceContents pool name contents rest).map (entry :: ·)

/-- A method with its new code, if it has any. -/
def replaceCode (pool : Pool) (position : Nat) (member : Member)
    (rewritten : Option (List UInt8 × Statistics)) : Except Failure Member :=
  match rewritten with
  | none => .ok member
  | some (code, _) =>
    match replaceContents pool ClassFile.codeName code member.attributes with
    | some attributes => .ok { member with attributes }
    | none => fail (.invariant (.codeLost position))

/-- Give each method its new code. -/
def replaceMethods (file : ClassFile) (rewritten : List (Option (List UInt8 × Statistics))) :
    Except Failure ClassFile := do
  let methods ← ((file.methods.zip rewritten).zipIdx).mapM fun ((member, code), position) =>
    replaceCode file.pool position member code
  return { file with methods }

/-- Add a method that checks fields, unless a method has its name already. -/
def addCheckMethod (className name : String) (access maxLocals : UInt16) (kind : CheckKind)
    (keys : List FieldKey) : ClassFile.Edit Unit := do
  let file ← getThe ClassFile
  if file.hasMethod name then fail (.alreadyDeclares (← settle file.name) name)
  let checks ← ClassFile.growing (fieldChecks className kind keys)
  let stream := Stream.ofInstructions (checks ++ [.plain Opcode.vreturn])
  let body ← settle (Body.generate stream guardStack maxLocals)
  ClassFile.addMethod access name checkMethodDescriptor (some (← settle body.written))

/-- Add the method that checks the instance fields. -/
def addInstanceCheck (model : ClassModel) (guarded : GuardedFields) : ClassFile.Edit Unit :=
  addCheckMethod model.name instanceCheckMethod (Access.privateFlag ||| Access.syntheticFlag) 1
    .constructorField guarded.instances

/-- Add the method that checks the static fields. -/
def addStaticCheck (model : ClassModel) (guarded : GuardedFields) : ClassFile.Edit Unit :=
  addCheckMethod model.name staticCheckMethod
    (Access.privateFlag ||| Access.staticFlag ||| Access.syntheticFlag) 0
    .staticInitializerField guarded.statics

end Weaving

open Weaving in
/-- Weave a class by a policy. Without anything to guard the class stays as it
is and there are no statistics. -/
def weave (model : ClassModel) (policy : Policy) : ClassFile.Edit (Option Statistics) := do
  let file ← getThe ClassFile
  settle (checkAlignment file model policy)
  let guarded := GuardedFields.ofPolicy model policy
  let rewritten ← ClassFile.growing (guardMethods file.methods model policy guarded)
  let changed := rewritten.filterMap id
  if changed.isEmpty && guarded.isEmpty then return none
  set (← settle (replaceMethods (← getThe ClassFile) rewritten))
  let hasInstances := !guarded.instances.isEmpty
  let hasStatics := !guarded.statics.isEmpty && !model.isInterface
  if hasInstances then addInstanceCheck model guarded
  if hasStatics then addStaticCheck model guarded
  ClassFile.addAttribute wovenAttribute []
  let counted := Statistics.sum (changed.map Prod.snd)
  return some { counted with
    rewrittenMethods := changed.length
    synthesizedMethods := hasInstances.toNat + hasStatics.toNat }

end NullGuard
