import NullGuard.ClassFile.Places
import NullGuard.Text.ModifiedUtf8

/-!
# Constant pools

A pool is a sequence of slots. Slot 0 and the slot after a long or double
constant are empty; every other slot holds a constant. Constants are added by
interning: an equal constant that is already there is used again, so an index
once handed out keeps its meaning and no constant is added twice.

A pool also knows where each of its constants stands, as soon as somebody asks
for it. That follows from the slots, so a pool is no more than its slots
(`ext_slots`), and asking is the same as going through them (`indexOf?_eq`).

Adding happens in `Pool.Growth`, which keeps the pool also when a later step
fails. A class reference, for instance, needs its name first, and the name
stays in the pool when no room is left for the reference.
-/

namespace NullGuard

/-- A sequence of slots; an empty slot holds no constant. -/
structure Pool where
  slots : Array (Option Constant)
  /-- Where the constants stand. -/
  places : Thunk Places
  places_get : places.get = Places.of slots

/-- A reference to a field or a method, resolved to texts. -/
structure MemberRef where
  owner : String
  name : String
  descriptor : String
  deriving DecidableEq, Repr

namespace Pool

/-- The pool with given slots. -/
def ofSlots (slots : Array (Option Constant)) : Pool :=
  ⟨slots, Thunk.mk fun _ => Places.of slots, rfl⟩

/-- A pool is no more than its slots. -/
theorem ext_slots {a b : Pool} (same : a.slots = b.slots) : a = b := by
  obtain ⟨slots, ⟨places⟩, known⟩ := a
  obtain ⟨others, ⟨otherPlaces⟩, otherKnown⟩ := b
  obtain rfl : slots = others := same
  obtain rfl : places = otherPlaces := funext fun _ => known.trans otherKnown.symm
  rfl

/-- Pools are compared by their slots alone. -/
instance : DecidableEq Pool := fun a b =>
  decidable_of_iff (a.slots = b.slots) ⟨ext_slots, congrArg slots⟩

/-- A pool is shown by its slots. -/
instance : Repr Pool := ⟨fun pool => reprPrec pool.slots⟩

/-- The pool without constants. -/
def empty : Pool := ofSlots #[none]

/-- The number of slots, the empty ones included. -/
def size (pool : Pool) : Nat := pool.slots.size

/-- The pool with a constant in a slot behind the others. -/
def push (pool : Pool) (constant : Constant) : Pool :=
  ⟨pool.slots.push (some constant),
    Thunk.pure (pool.places.get.add (some constant) pool.slots.size), by
    rw [Places.of_push, ← pool.places_get]; rfl⟩

/-- Where a constant stands, if it is in the pool. -/
def indexOf? (pool : Pool) (constant : Constant) : Option Nat :=
  pool.places.get.find? constant

/-- The place of a constant is the first slot that holds it. -/
theorem indexOf?_eq (pool : Pool) (constant : Constant) :
    pool.indexOf? constant = pool.slots.toList.findIdx? (· == some constant) := by
  rw [indexOf?, pool.places_get, Places.find?_of]

/-! ## Reading and writing -/

/-- Fill a number of slots behind those that are filled already. A wide constant
needs a second slot, so it cannot fill the last one. -/
def readSlots : Nat → Array (Option Constant) → Reader (Array (Option Constant))
  | 0, slots => pure slots
  | 1, slots => do
    let constant ← Constant.read
    if constant.isWide then fail .poolOverrun else pure (slots.push (some constant))
  | free + 2, slots => do
    let constant ← Constant.read
    if constant.isWide then readSlots free ((slots.push (some constant)).push none)
    else readSlots (free + 1) (slots.push (some constant))

/-- A pool: the number of its slots, then its constants. -/
def read : Reader Pool := do
  let count ← during .readPoolCount Reader.u16
  if count = 0 then fail .noPoolCount
  return ofSlots (← readSlots (count.toNat - 1) #[none])

/-- The written form of a slot; an empty slot leaves no trace. -/
def writtenSlot (slot : Option Constant) : List UInt8 :=
  (slot.map Constant.written).getD []

/-- The written form of a pool. -/
def written (pool : Pool) : List UInt8 :=
  Written.u16 (UInt16.ofNat pool.size) ++ pool.slots.toList.flatMap writtenSlot

/-! ## Looking up -/

/-- The constant in a slot, if there is one. -/
def get? (pool : Pool) (index : UInt16) : Option Constant :=
  (pool.slots[index.toNat]?).join

/-- The constant in a slot that has to hold one. -/
def get (pool : Pool) (index : UInt16) : Except Failure Constant :=
  match pool.get? index with
  | some constant => .ok constant
  | none => fail (.invalidIndex index)

/-- The bytes of a text. -/
def utf8Bytes (pool : Pool) (index : UInt16) : Except Failure (List UInt8) := do
  match ← pool.get index with
  | .utf8 bytes => return bytes
  | _ => fail (.wrongConstant index .utf8)

/-- A text. -/
def utf8 (pool : Pool) (index : UInt16) : Except Failure String := do
  return Text.ModifiedUtf8.decode (← pool.utf8Bytes index)

/-- Whether a slot holds a text with these bytes. -/
def holds (pool : Pool) (bytes : List UInt8) (index : UInt16) : Bool :=
  match pool.get? index with
  | some (.utf8 held) => held == bytes
  | _ => false

/-- Whether a slot holds the canonical bytes of a text. -/
def utf8Is (pool : Pool) (index : UInt16) (text : String) : Bool :=
  pool.holds (Text.ModifiedUtf8.encode text) index

/-- The name of a class entry. -/
def className (pool : Pool) (index : UInt16) : Except Failure String := do
  match ← pool.get index with
  | .classEntry name => pool.utf8 name
  | _ => fail (.wrongConstant index .classEntry)

/-- The two texts of a name and type entry. -/
def nameAndType (pool : Pool) (index : UInt16) : Except Failure (String × String) := do
  match ← pool.get index with
  | .nameAndType name descriptor => return (← pool.utf8 name, ← pool.utf8 descriptor)
  | _ => fail (.wrongConstant index .nameAndType)

/-- The field or method that a reference names. -/
def memberRef (pool : Pool) (index : UInt16) : Except Failure MemberRef := do
  match ← pool.get index with
  | .fieldRef owner member | .methodRef owner member | .interfaceMethodRef owner member =>
    let owner ← during .resolveOwner (pool.className owner)
    let (name, descriptor) ← during .resolveNameAndType (pool.nameAndType member)
    return ⟨owner, name, descriptor⟩
  | _ => fail (.wrongConstant index .memberReference)

/-! ## Adding -/

/-- A step that may add constants; what it has added stays when it fails. -/
abbrev Growth (α : Type) := ExceptT Failure (StateM Pool) α

/-- The most slots a pool can have. -/
def maxSize : Nat := 65535

/-- The index of a constant in a pool, and the pool with that constant in it. -/
def interned (pool : Pool) (constant : Constant) : Except Failure UInt16 × Pool :=
  match pool.indexOf? constant with
  | some index => (.ok (UInt16.ofNat index), pool)
  | none =>
    if pool.size < maxSize then (.ok (UInt16.ofNat pool.size), pool.push constant)
    else (fail .poolFull, pool)

/-- The index of a constant, which is added if it is not there. -/
def intern (constant : Constant) : Growth UInt16 := fun pool => pool.interned constant

/-- The index of a text, whose written form must be shorter than 65536 bytes. -/
def addUtf8 (text : String) : Growth UInt16 :=
  let bytes := Text.ModifiedUtf8.encode text
  if bytes.length < 65536 then intern (.utf8 bytes) else fail .utf8TooLong

/-- The index of a class reference. -/
def addClass (name : String) : Growth UInt16 := do
  intern (.classEntry (← addUtf8 name))

/-- The index of a string constant. -/
def addString (text : String) : Growth UInt16 := do
  intern (.stringEntry (← addUtf8 text))

/-- The index of a name and type entry. -/
def addNameAndType (name descriptor : String) : Growth UInt16 := do
  let name ← addUtf8 name
  let descriptor ← addUtf8 descriptor
  intern (.nameAndType name descriptor)

/-- The index of a field reference. -/
def addFieldRef (owner name descriptor : String) : Growth UInt16 := do
  let owner ← addClass owner
  let member ← addNameAndType name descriptor
  intern (.fieldRef owner member)

/-- The index of a method reference. -/
def addMethodRef (owner name descriptor : String) : Growth UInt16 := do
  let owner ← addClass owner
  let member ← addNameAndType name descriptor
  intern (.methodRef owner member)

end Pool

end NullGuard
