import NullGuard.Nullness.Descriptor
import NullGuard.Proofs.Machine.Linking
import Mathlib.Algebra.GroupWithZero.Nat
import Mathlib.Data.Option.Basic
import Mathlib.Logic.Relation

/-!
# A machine that runs guards

The instructions that guards, added methods and checks consist of, as a virtual
machine runs them. A state is a stack of frames over a heap. Each frame has an
operand stack of limited depth; what goes beyond the limit does not run, and
neither does an instruction whose operands are of the wrong kind.

A constructor call is one step: it keeps the arguments with the new object. A field
that is read is the one that the reference resolves to, and an error is thrown if there
is none. What is thrown leaves the frames without handlers one after the other. A frame
with handlers keeps it; which handler takes it is left open.
-/

namespace NullGuard.Machine

open Text.ModifiedUtf8

/-! ## Values -/

/-- The place of an object in the heap. -/
abbrev Address := Nat

/-- What a local variable or a field holds. -/
inductive Value
  | null
  | object (address : Address)
  /-- A string constant, by the bytes of its text. -/
  | text (contents : List UInt8)
  | int (number : Int)
  | float (bits : UInt32)
  | long (bits : UInt64)
  | double (bits : UInt64)
  deriving DecidableEq, Repr

namespace Value

/-- Whether a value is a reference, which a local variable of that kind can hold. -/
def isReference : Value → Bool
  | .null | .object _ | .text _ => true
  | _ => false

/-- The slots of an operand stack, or the local variables, that a value takes. -/
def width : Value → Nat
  | .long _ | .double _ => 2
  | _ => 1

/-- An object is referred to by one cell. -/
@[simp]
theorem width_object (address : Address) : (object address).width = 1 := rfl

/-- A text is referred to by one cell. -/
@[simp]
theorem width_text (contents : List UInt8) : (text contents).width = 1 := rfl

/-- A number takes one cell. -/
@[simp]
theorem width_int (number : Int) : (int number).width = 1 := rfl

/-- A value in the local variables; one of width two leaves the second to itself. -/
def cells (value : Value) : List Value := List.replicate value.width value

/-- What a field of a descriptor holds before anything is written to it. The first byte tells
classes and arrays, the two wide numbers and the narrow one with a fraction. -/
def initial (descriptor : List UInt8) : Value :=
  match descriptor.head? with
  | some 0x4c | some 0x5b => .null
  | some 0x4a => .long 0
  | some 0x44 => .double 0
  | some 0x46 => .float 0
  | _ => .int 0

/-- A field whose descriptor names a class is made to hold references. -/
theorem isReference_initial (descriptor : String) (named : isObjectField descriptor = true) :
    (initial (encode descriptor)).isReference = true := by
  rw [isObjectField, Bool.and_eq_true, beq_iff_eq] at named
  obtain ⟨letters, spelled⟩ := List.head?_eq_some_iff.1 named.1
  have first : (encode descriptor).head? = some 0x4c := by
    rw [encode, spelled]
    rfl
  rw [initial, first]
  rfl

end Value

/-- The slots that an operand stack takes. -/
def depth (stack : List Value) : Nat := (stack.map Value.width).sum

/-! ## The heap -/

/-- What declared fields hold, each under the name of the class that declares it. A field that
is made to hold references holds one. -/
structure Fields where
  value : Pool.Spelling → Value
  typed : ∀ field, (Value.initial field.descriptor).isReference = true →
    (value field).isReference = true

/-- Fields to which nothing has been written. -/
def Fields.initial : Fields where
  value field := .initial field.descriptor
  typed _ reference := reference

/-- The call of a constructor. -/
structure Construction where
  descriptor : List UInt8
  arguments : List Value
  deriving DecidableEq, Repr

/-- An object. One that has just been made has not been constructed. -/
structure Object where
  className : List UInt8
  construction : Option Construction
  fields : Fields

/-- The objects that there are, and what the static fields hold. -/
structure Heap where
  objects : List Object
  statics : Fields

namespace Heap

/-- The address of the next object that is made. -/
def fresh (heap : Heap) : Address := heap.objects.length

/-- The heap with one more object. -/
def add (heap : Heap) (object : Object) : Heap := { heap with objects := heap.objects ++ [object] }

/-- The heap after a constructor call for an object of that class. -/
def construct (heap : Heap) (address : Address) (className : List UInt8)
    (construction : Construction) : Option Heap := do
  let object ← heap.objects[address]?
  guard (object.className = className ∧ object.construction = none)
  return { heap with
    objects := heap.objects.set address { object with construction := some construction } }

end Heap

/-! ## States -/

/-- A method that runs. -/
structure Frame where
  pool : Pool
  code : List (Instruction Label)
  handlers : List HandlerRow
  /-- The most slots that the operand stack may take. -/
  limit : Nat
  position : Nat
  locals : List Value
  /-- The operand stack, its top first. -/
  stack : List Value

/-- The frames are listed from the innermost one. -/
structure State where
  frames : List Frame
  heap : Heap
  /-- What has been thrown and not been caught. -/
  thrown : Option Address

/-! ## Instructions -/

/-- What an instruction does. -/
inductive Action
  | loadReference (slot : Nat)
  | loadInt (slot : Nat)
  | push (value : Value)
  | dup
  | readInstance (field : Pool.Spelling)
  | readStatic (field : Pool.Spelling)
  | make (className : List UInt8)
  | callSpecial (method : Pool.Spelling)
  | callStatic (method : Pool.Spelling)
  | jumpUnlessNull (target : Nat)
  | throw
  | finish
  deriving DecidableEq, Repr

namespace Action

/-- The instructions of one byte. -/
def ofOpcode (opcode : UInt8) : Option Action :=
  if 0x02 ≤ opcode ∧ opcode ≤ 0x08 then some (.push (.int (opcode.toNat - 3)))
  else if 0x1a ≤ opcode ∧ opcode ≤ 0x1d then some (.loadInt (opcode.toNat - 0x1a))
  else if 0x2a ≤ opcode ∧ opcode ≤ 0x2d then some (.loadReference (opcode.toNat - 0x2a))
  else if opcode = Opcode.dup then some .dup
  else if opcode = Opcode.athrow then some .throw
  else if opcode = Opcode.vreturn then some .finish
  else none

/-- The string constant at an index. -/
def ofConstant (pool : Pool) (index : UInt16) : Option Action :=
  match pool.get? index with
  | some (.stringEntry bytes) => (pool.bytes? bytes).map fun contents => .push (.text contents)
  | _ => none

/-- The instructions with a one-byte operand. -/
def ofByte (pool : Pool) (opcode value : UInt8) : Option Action :=
  if opcode = Opcode.bipush then some (.push (.int value.toInt8.toInt))
  else if opcode = Opcode.ldc then ofConstant pool value.toUInt16
  else if opcode = Opcode.aload then some (.loadReference value.toNat)
  else none

/-- An action on the field that an index refers to. -/
def onField (pool : Pool) (index : UInt16) (action : Pool.Spelling → Action) : Option Action :=
  match pool.get? index with
  | some (.fieldRef owner texts) => (pool.spelling? owner texts).map action
  | _ => none

/-- An action on the method that an index refers to. -/
def onMethod (pool : Pool) (index : UInt16) (action : Pool.Spelling → Action) : Option Action :=
  match pool.get? index with
  | some (.methodRef owner texts) => (pool.spelling? owner texts).map action
  | _ => none

/-- The instructions with a two-byte operand. -/
def ofWord (pool : Pool) (opcode : UInt8) (value : UInt16) : Option Action :=
  if opcode = Opcode.sipush then some (.push (.int value.toInt16.toInt))
  else if opcode = Opcode.ldcWide then ofConstant pool value
  else if opcode = Opcode.getstatic then onField pool value .readStatic
  else if opcode = Opcode.getfield then onField pool value .readInstance
  else if opcode = Opcode.invokespecial then onMethod pool value .callSpecial
  else if opcode = Opcode.invokestatic then onMethod pool value .callStatic
  else if opcode = Opcode.new then (pool.classBytes? value).map .make
  else none

/-- What an instruction does, if the machine knows it. -/
def ofInstruction (pool : Pool) (instruction : Instruction Label) : Option Action :=
  match instruction.operand with
  | .fixed [] => ofOpcode instruction.opcode
  | .fixed [value] => ofByte pool instruction.opcode value
  | .fixed [high, low] =>
    ofWord pool instruction.opcode (UInt16.ofNat (high.toNat * 256 + low.toNat))
  | .fixed [widened, high, low] =>
    if instruction.opcode = Opcode.wide ∧ widened = Opcode.aload then
      some (.loadReference (high.toNat * 256 + low.toNat))
    else none
  | .branch target =>
    if instruction.opcode = Opcode.ifnonnull then some (.jumpUnlessNull target) else none
  | _ => none

end Action

/-! ## Calls -/

namespace Program

/-- The frame in which a call of a method begins. -/
def enter (program : Program) (method : Pool.Spelling) (isStatic : Bool)
    (arguments : List Value) : Option Frame := do
  let (file, member) ← program.find? method
  guard (member.isStatic = isStatic)
  let code ← file.pool.findAttribute ClassFile.codeName member.attributes
  let body ← (Body.parse code.contents).toOption
  let stream ← (Stream.decode body.code).toOption
  let locals := arguments.flatMap Value.cells
  guard (locals.length ≤ body.maxLocals.toNat)
  return {
    pool := file.pool
    code := stream.instructions
    handlers := body.handlers
    limit := body.maxStack.toNat
    position := 0
    locals
    stack := [] }

end Program

/-- How many arguments a call takes from the operand stack, the receiver not counted. -/
def arity (descriptor : List UInt8) : Option Nat :=
  (Descriptor.read (decode descriptor).toList).toOption.map fun (parameters, _) => parameters.length

/-! ## Steps -/

namespace Frame

/-- The frame at another position with another operand stack. -/
def goto (frame : Frame) (position : Nat) (stack : List Value) : Frame :=
  { frame with position, stack }

/-- The frame behind the instruction, which leaves an operand stack. -/
def next (frame : Frame) (stack : List Value) : Frame := frame.goto (frame.position + 1) stack

/-- The frame behind an instruction that pushes a value. -/
def push (frame : Frame) (value : Value) (stack : List Value) : Option Frame :=
  if depth (value :: stack) ≤ frame.limit then some (frame.next (value :: stack)) else none

/-- What the instruction at a position does. -/
def actionAt (frame : Frame) (position : Nat) : Option Action :=
  frame.code[position]?.bind (Action.ofInstruction frame.pool)

end Frame

/-- The state in which an error is thrown that no instruction has made. What it tells is left
open. -/
def raise (frame : Frame) (callers : List Frame) (heap : Heap) (error : String) : State :=
  ⟨frame :: callers, heap.add ⟨encode error, none, .initial⟩, some heap.fresh⟩

/-- What an action does in a frame. A frame waits at the instruction that calls. -/
def perform (program : Program) (frame : Frame) (callers : List Frame) (heap : Heap) :
    Action → Option State
  | .loadReference slot => do
    let value ← frame.locals[slot]?
    guard value.isReference
    return ⟨(← frame.push value frame.stack) :: callers, heap, none⟩
  | .loadInt slot =>
    match frame.locals[slot]? with
    | some (.int number) => do
      return ⟨(← frame.push (.int number) frame.stack) :: callers, heap, none⟩
    | _ => none
  | .push value => do return ⟨(← frame.push value frame.stack) :: callers, heap, none⟩
  | .dup =>
    match frame.stack with
    | [] => none
    | value :: _ => do
      guard (value.width = 1)
      return ⟨(← frame.push value frame.stack) :: callers, heap, none⟩
  | .readInstance field =>
    match frame.stack with
    | .object address :: rest => do
      let object ← heap.objects[address]?
      match program.resolve field false with
      | .found declared =>
        return ⟨(← frame.push (object.fields.value declared) rest) :: callers, heap, none⟩
      | .fails error => return raise frame callers heap error
    | _ => none
  | .readStatic field =>
    match program.resolve field true with
    | .found declared => do
      return ⟨(← frame.push (heap.statics.value declared) frame.stack) :: callers, heap, none⟩
    | .fails error => some (raise frame callers heap error)
  | .make className => do
    let frame ← frame.push (.object heap.fresh) frame.stack
    return ⟨frame :: callers, heap.add ⟨className, none, .initial⟩, none⟩
  | .callSpecial method => do
    let count ← arity method.descriptor
    let arguments := (frame.stack.take count).reverse
    match frame.stack.drop count with
    | .object address :: rest =>
      if method.name = encode SupportClass.constructorName then
        let heap ← heap.construct address method.owner ⟨method.descriptor, arguments⟩
        return ⟨frame.next rest :: callers, heap, none⟩
      else
        let callee ← program.enter method false (.object address :: arguments)
        return ⟨callee :: frame.goto frame.position rest :: callers, heap, none⟩
    | _ => none
  | .callStatic method => do
    let count ← arity method.descriptor
    guard (count ≤ frame.stack.length)
    let callee ← program.enter method true (frame.stack.take count).reverse
    return ⟨callee :: frame.goto frame.position (frame.stack.drop count) :: callers, heap, none⟩
  | .jumpUnlessNull target =>
    match frame.stack with
    | [] => none
    | value :: rest => do
      guard value.isReference
      let position := if value = .null then frame.position + 1 else target
      return ⟨frame.goto position rest :: callers, heap, none⟩
  | .throw =>
    match frame.stack with
    | .object address :: _ => some ⟨frame :: callers, heap, some address⟩
    | _ => none
  | .finish =>
    match callers with
    | [] => some ⟨[], heap, none⟩
    | caller :: callers => some ⟨caller.next caller.stack :: callers, heap, none⟩

/-- The next state, unless there is nothing more to run. -/
def step (program : Program) (state : State) : Option State :=
  match state.frames, state.thrown with
  | [], _ => none
  | frame :: callers, none =>
    (frame.actionAt frame.position).bind (perform program frame callers state.heap)
  | frame :: callers, some address =>
    if frame.handlers = [] then some ⟨callers, state.heap, some address⟩ else none

/-- Some number of steps leads from a state to another one. -/
def Reaches (program : Program) : State → State → Prop :=
  Relation.ReflTransGen fun state next => step program state = some next

end NullGuard.Machine
