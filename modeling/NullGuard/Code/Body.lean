import NullGuard.Annotations.InCode
import NullGuard.ClassFile.Basic
import NullGuard.Code.Layout
import NullGuard.Code.StackMap

/-!
# Method bodies

The contents of a code attribute: the code itself, the exception table and
further attributes. `Body.rearranged` gives a body the code of a stream and
moves every offset that the exception table and the known attributes hold to
where the stream has put the instruction.
-/

namespace NullGuard

/-- A stretch of code and the handler for what is thrown there. -/
structure HandlerRow where
  start : UInt16
  stop : UInt16
  handler : UInt16
  caught : UInt16
  deriving DecidableEq, Repr

/-- The contents of a code attribute. -/
structure Body where
  maxStack : UInt16
  maxLocals : UInt16
  code : List UInt8
  handlers : List HandlerRow
  attributes : List Attribute
  deriving DecidableEq, Repr

namespace HandlerRow

/-- The next row of the table of handlers. -/
def read : Reader HandlerRow := do
  return ⟨← Reader.u16, ← Reader.u16, ← Reader.u16, ← Reader.u16⟩

/-- The byte form of a row. -/
def written (row : HandlerRow) : List UInt8 :=
  Written.u16 row.start ++ Written.u16 row.stop ++ Written.u16 row.handler ++
    Written.u16 row.caught

/-- A row whose code has moved. The end of its range may be the end of the code. -/
def relocate (relocation : Relocation) (row : HandlerRow) : Except Failure HandlerRow := do
  let start ← relocation.move row.start
  let stop ← relocation.move row.stop
  let handler ← relocation.move row.handler
  return ⟨start, stop, handler, row.caught⟩

end HandlerRow

namespace Body

/-- The contents of the attribute that holds a body. -/
def read : Reader Body := do
  let maxStack ← Reader.u16
  let maxLocals ← Reader.u16
  let length := (← Reader.u32).toNat
  if length = 0 ∨ Stream.maxLength < length then fail (.invalidCodeLength length)
  let code ← Reader.bytes length
  let handlers ← Reader.table HandlerRow.read
  let attributes ← during .parseCodeAttributes Attribute.readAll
  return ⟨maxStack, maxLocals, code, handlers, attributes⟩

/-- The body that the contents of a code attribute hold. -/
def parse (contents : List UInt8) : Except Failure Body :=
  Reader.whole "code attribute" read contents

/-- The contents of a code attribute. -/
def written (body : Body) : Except Failure (List UInt8) := do
  let handlers ←
    Written.table "exception handlers" (fun row => .ok (HandlerRow.written row)) body.handlers
  let attributes ← Attribute.writtenAll body.attributes
  return Written.u16 body.maxStack ++ Written.u16 body.maxLocals ++
    Written.u32 (UInt32.ofNat body.code.length) ++ body.code ++ handlers ++ attributes

/-- The body of a method that consists of a stream and nothing else. -/
def generate (stream : Stream) (maxStack maxLocals : UInt16) : Except Failure Body := do
  let encoded ← stream.encode
  return ⟨maxStack, maxLocals, encoded.code, [], []⟩

/-! ## Rearranging -/

/-- Where a stream puts an offset of the code it was decoded from. -/
def relocationOf (stream : Stream) (encoded : Encoded) : Relocation := fun offset => do
  encoded.offsetOf (← stream.labelAt offset)

/-- What an attribute of a body holds, as far as it depends on the code. -/
inductive CodeTable
  | lineNumbers
  | localVariables
  | stackMap
  | typeAnnotations
  deriving DecidableEq, Repr

/-- The attributes of a body that hold offsets, by name. -/
def tableNames : List (String × CodeTable) :=
  [("LineNumberTable", .lineNumbers), ("LocalVariableTable", .localVariables),
    ("LocalVariableTypeTable", .localVariables), ("StackMapTable", .stackMap),
    ("RuntimeVisibleTypeAnnotations", .typeAnnotations),
    ("RuntimeInvisibleTypeAnnotations", .typeAnnotations)]

/-- The bytes of their names. -/
def tableBytes : List (List UInt8 × CodeTable) :=
  tableNames.map fun (name, table) => (Text.ModifiedUtf8.encode name, table)

/-- What an attribute of a body holds, if it depends on the code. -/
def tableOf (pool : Pool) (entry : Attribute) : Option CodeTable :=
  (tableBytes.find? fun known => pool.holds known.1 entry.name).map Prod.snd

/-- The contents of an attribute with all offsets moved. -/
def relocateContents (relocation : Relocation) (contents : List UInt8) :
    CodeTable → Except Failure (List UInt8)
  | .lineNumbers => during .remapLineNumbers (LineRow.relocate relocation contents)
  | .localVariables => during .remapLocalVariables (VariableRow.relocate relocation contents)
  | .stackMap => do
    let map ← during .parseStackMap (StackMap.parse contents)
    (← map.relocate relocation).written
  | .typeAnnotations =>
    during .remapTypeAnnotations (AnnotatedType.relocate relocation contents)

/-- An attribute of a body with all offsets moved. -/
def relocateAttribute (relocation : Relocation) (pool : Pool) (entry : Attribute) :
    Except Failure Attribute :=
  match tableOf pool entry with
  | none => .ok entry
  | some table => do
    return { entry with contents := ← relocateContents relocation entry.contents table }

/-- A larger operand stack, as far as its size can be written. -/
def raisedStack (maxStack extra : UInt16) : UInt16 :=
  if maxStack.toNat + extra.toNat < 65536 then maxStack + extra else 65535

/-- The body with the code of a stream and everything moved along with it. -/
def rearranged (body : Body) (stream : Stream) (pool : Pool) (extraStack : UInt16) :
    Except Failure Body := do
  let encoded ← stream.encode
  let relocation := relocationOf stream encoded
  let handlers ← body.handlers.mapM (HandlerRow.relocate relocation)
  let attributes ← body.attributes.mapM (relocateAttribute relocation pool)
  return ⟨raisedStack body.maxStack extraStack, body.maxLocals, encoded.code, handlers, attributes⟩

end Body

end NullGuard
