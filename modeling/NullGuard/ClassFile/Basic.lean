import NullGuard.ClassFile.Pool

/-!
# Class files

The structure of a class file down to its attributes, whose contents stay
bytes. Reading accepts a class whose name can be resolved and nothing after the
last attribute; writing is the inverse, so a class that is read and written
without changes comes back byte for byte.

A class grows in `ClassFile.Edit`: what was added stays when a later step fails.
-/

namespace NullGuard

/-- An attribute: the index of its name and its contents. -/
structure Attribute where
  name : UInt16
  contents : List UInt8
  deriving DecidableEq, Repr

/-- A field or a method. -/
structure Member where
  access : UInt16
  name : UInt16
  descriptor : UInt16
  attributes : List Attribute
  deriving DecidableEq, Repr

/-- A class file. -/
structure ClassFile where
  minor : UInt16
  major : UInt16
  pool : Pool
  access : UInt16
  thisClass : UInt16
  superClass : UInt16
  interfaces : List UInt16
  fields : List Member
  methods : List Member
  attributes : List Attribute
  deriving DecidableEq, Repr

/-! ## Access flags -/

namespace Access

/-- Seen from everywhere. -/
def publicFlag : UInt16 := 0x0001

/-- Seen from its own class only. -/
def privateFlag : UInt16 := 0x0002

/-- Belonging to the class, not to its objects. -/
def staticFlag : UInt16 := 0x0008

/-- Not to be assigned again, overridden or extended. -/
def finalFlag : UInt16 := 0x0010

/-- The treatment of superclass calls that every class since the first release asks for. -/
def superFlag : UInt16 := 0x0020

/-- An interface. -/
def interfaceFlag : UInt16 := 0x0200

/-- A method without a body, or a class that may have such methods. -/
def abstractFlag : UInt16 := 0x0400

/-- Made by a tool, without a place in the source. -/
def syntheticFlag : UInt16 := 0x1000

/-- The type of an annotation. -/
def annotationFlag : UInt16 := 0x2000

/-- Whether a flag is among the flags of a class or member. -/
def has (flags flag : UInt16) : Bool := flags &&& flag != 0

end Access

/-! ## Attributes -/

namespace Attribute

/-- The next attribute. Its contents are as long as it says. -/
def read : Reader Attribute := do
  let name ← Reader.u16
  let length ← Reader.u32
  return ⟨name, ← Reader.bytes length.toNat⟩

/-- The byte form of an attribute. It fails if the length does not fit into its word. -/
def written (entry : Attribute) : Except Failure (List UInt8) :=
  if entry.contents.length < 0x100000000 then
    .ok (Written.u16 entry.name ++ Written.u32 (UInt32.ofNat entry.contents.length) ++
      entry.contents)
  else fail .attributeTooLong

/-- A list of attributes in a class, a member or a code attribute. -/
def readAll : Reader (List Attribute) := Reader.table read

/-- The byte form of a table of attributes, behind their number. -/
def writtenAll (attributes : List Attribute) : Except Failure (List UInt8) :=
  Written.table "attributes" written attributes

end Attribute

/-- The first attribute of a name. -/
def Pool.findAttribute (pool : Pool) (name : String) (attributes : List Attribute) :
    Option Attribute :=
  let bytes := Text.ModifiedUtf8.encode name
  attributes.find? fun entry => pool.holds bytes entry.name

/-! ## Members -/

namespace Member

/-- The next member. Members of all kinds look alike. -/
def read : Reader Member := do
  let access ← Reader.u16
  let name ← Reader.u16
  let descriptor ← Reader.u16
  return ⟨access, name, descriptor, ← Attribute.readAll⟩

/-- The byte form of a member. -/
def written (member : Member) : Except Failure (List UInt8) := do
  let attributes ← Attribute.writtenAll member.attributes
  return Written.u16 member.access ++ Written.u16 member.name ++
    Written.u16 member.descriptor ++ attributes

/-- Whether a member belongs to the class and not to its objects. -/
def isStatic (member : Member) : Bool := Access.has member.access Access.staticFlag

end Member

namespace ClassFile

/-- The four bytes that open every class file. -/
def magic : UInt32 := 0xCAFEBABE

/-- The name that a class declares for itself. -/
def name (file : ClassFile) : Except Failure String := file.pool.className file.thisClass

/-- Whether a class is an interface. -/
def isInterface (file : ClassFile) : Bool := Access.has file.access Access.interfaceFlag

/-- Read the opening bytes, which have to be the right ones. -/
def readMagic : Reader Unit := do
  if (← during .readMagic Reader.u32) ≠ magic then fail .wrongMagic

/-- The parts of a class file in order. -/
def read : Reader ClassFile := do
  readMagic
  let minor ← Reader.u16
  let major ← Reader.u16
  let pool ← during .parsePool Pool.read
  let access ← Reader.u16
  let thisClass ← Reader.u16
  let superClass ← Reader.u16
  let interfaces ← Reader.table Reader.u16
  let fields ← during .parseFields (Reader.table Member.read)
  let methods ← during .parseMethods (Reader.table Member.read)
  let attributes ← during .parseClassAttributes Attribute.readAll
  return { minor, major, pool, access, thisClass, superClass, interfaces, fields, methods,
           attributes }

/-- The class that some bytes hold: nothing is left over and its name resolves. -/
def parse (bytes : List UInt8) : Except Failure ClassFile := do
  let file ← Reader.whole "class file" read bytes
  let _ ← during .resolveClassName file.name
  return file

/-- The bytes of a class. -/
def written (file : ClassFile) : Except Failure (List UInt8) := do
  let interfaces ←
    Written.table "interfaces" (fun index => .ok (Written.u16 index)) file.interfaces
  let fields ← Written.table "fields" Member.written file.fields
  let methods ← Written.table "methods" Member.written file.methods
  let attributes ← Attribute.writtenAll file.attributes
  return Written.u32 magic ++ Written.u16 file.minor ++ Written.u16 file.major ++
    file.pool.written ++ Written.u16 file.access ++ Written.u16 file.thisClass ++
    Written.u16 file.superClass ++ interfaces ++ fields ++ methods ++ attributes

/-- Read no further than the name of the class. -/
def readName : Reader String := do
  readMagic
  Reader.skip 4
  let pool ← during .parsePool Pool.read
  let _ ← Reader.u16
  let thisClass ← Reader.u16
  pool.className thisClass

/-- The name of the class that some bytes begin. -/
def peekName (bytes : List UInt8) : Except Failure String := readName.run' bytes

/-- The name of a field or method. -/
def memberName (file : ClassFile) (member : Member) : Except Failure String :=
  file.pool.utf8 member.name

/-- The descriptor of a field or method. -/
def memberDescriptor (file : ClassFile) (member : Member) : Except Failure String :=
  file.pool.utf8 member.descriptor

/-- Whether a method of that name is declared. -/
def hasMethod (file : ClassFile) (name : String) : Bool :=
  let bytes := Text.ModifiedUtf8.encode name
  file.methods.any fun method => file.pool.holds bytes method.name

/-- The first class attribute of a name. -/
def findAttribute (file : ClassFile) (name : String) : Option Attribute :=
  file.pool.findAttribute name file.attributes

/-! ## Building -/

/-- A step that changes a class; what it has changed stays when it fails. -/
abbrev Edit (α : Type) := ExceptT Failure (StateM ClassFile) α

/-- Add constants to the pool of the class. -/
def growing {α : Type} (growth : Pool.Growth α) : Edit α := fun file =>
  let (result, pool) := growth.run file.pool
  (result, { file with pool })

/-- A class without members. -/
def create (name superName : String) (access major : UInt16) : Except Failure ClassFile :=
  let (result, pool) := (do
    let thisClass ← Pool.addClass name
    let superClass ← Pool.addClass superName
    return (thisClass, superClass) : Pool.Growth (UInt16 × UInt16)).run Pool.empty
  result.map fun (thisClass, superClass) =>
    { minor := 0, major, pool, access, thisClass, superClass, interfaces := [], fields := [],
      methods := [], attributes := [] }

/-- Add an interface that the class implements. -/
def addInterface (name : String) : Edit Unit := do
  let index ← growing (Pool.addClass name)
  modify fun file => { file with interfaces := file.interfaces ++ [index] }

/-- Add a field without attributes. -/
def addField (access : UInt16) (name descriptor : String) : Edit Unit := do
  let name ← growing (Pool.addUtf8 name)
  let descriptor ← growing (Pool.addUtf8 descriptor)
  modify fun file =>
    { file with fields := file.fields ++ [⟨access, name, descriptor, []⟩] }

/-- The name of the attribute that holds a method's code. -/
def codeName : String := "Code"

/-- Add a method, with the contents of its code attribute if it has one. -/
def addMethod (access : UInt16) (name descriptor : String) (code : Option (List UInt8)) :
    Edit Unit := do
  let name ← growing (Pool.addUtf8 name)
  let descriptor ← growing (Pool.addUtf8 descriptor)
  let attributes ← match code with
    | none => pure []
    | some contents => do pure [⟨← growing (Pool.addUtf8 codeName), contents⟩]
  modify fun file =>
    { file with methods := file.methods ++ [⟨access, name, descriptor, attributes⟩] }

/-- Add an attribute to the class itself. -/
def addAttribute (name : String) (contents : List UInt8) : Edit Unit := do
  let name ← growing (Pool.addUtf8 name)
  modify fun file => { file with attributes := file.attributes ++ [⟨name, contents⟩] }

end ClassFile

end NullGuard
