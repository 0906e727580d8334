import NullGuard.Annotations.Tree
import NullGuard.ClassFile.Basic
import NullGuard.Proofs.Failing.Basic

/-!
# Ordinary failures of class files

Reading, resolving, changing and writing a class can only fail in ordinary ways,
and so can reading annotations.
-/

namespace NullGuard

/-! ## Bytes -/

namespace Reader

variable {α : Type}

/-- Bytes can run out. -/
instance (count : Nat) : Ordinary (bytes count) := by
  refine .of_each _ fun input => ?_
  unfold bytes
  infer_instance

/-- A byte can be missing. -/
instance : Ordinary u8 := by
  refine .of_each _ fun input => ?_
  unfold u8
  split <;> infer_instance

/-- One of two bytes can be missing. -/
instance : Ordinary u16 := by
  refine .of_each _ fun input => ?_
  unfold u16
  split <;> infer_instance

/-- One of four bytes can be missing. -/
instance : Ordinary u32 := by
  refine .of_each _ fun input => ?_
  unfold u32
  split <;> infer_instance

/-- Something can be left where nothing should be. -/
instance (what : String) : Ordinary (expectEnd what) := by
  refine .of_each _ fun rest => ?_
  unfold expectEnd
  infer_instance

/-- There can be fewer bytes than are passed over. -/
instance (count : Nat) : Ordinary (skip count) := by
  unfold skip
  infer_instance

/-- A signed word fails as a word does. -/
instance : Ordinary i32 := by
  unfold i32
  infer_instance

/-- A long word fails as its two halves do. -/
instance : Ordinary u64 := by
  unfold u64
  infer_instance

/-- A signed long word fails as a long word does. -/
instance : Ordinary i64 := by
  unfold i64
  infer_instance

/-- Repeating a reader fails as the reader does. The induction is on the count. -/
instance (count : Nat) (item : Reader α) [Ordinary item] : Ordinary (times count item) := by
  induction count with
  | zero =>
    rw [times_zero]
    infer_instance
  | succ count inductionHypothesis =>
    rw [times_succ]
    infer_instance

/-- A table fails as its count or one of its rows does. -/
instance (item : Reader α) [Ordinary item] : Ordinary (table item) := by
  unfold table
  infer_instance

/-- Reading all of some bytes fails as the reader does, or because some are left. -/
instance (what : String) (reader : Reader α) [Ordinary reader] (input : List UInt8) :
    Ordinary (whole what reader input) := by
  unfold whole
  infer_instance

end Reader

/-! ## Tables -/

namespace Written

/-- A table can have too many rows. -/
instance (what : String) (count : Nat) : Ordinary (tableLength what count) := by
  unfold tableLength
  infer_instance

/-- A table cannot be written if it has too many rows, or one of them cannot be. -/
instance {α : Type} (what : String) (row : α → Except Failure (List UInt8))
    [∀ item, Ordinary (row item)] (rows : List α) : Ordinary (table what row rows) := by
  unfold table
  infer_instance

end Written

/-! ## Constants and pools -/

/-- A tag can be unknown, and what it asks for can break off. -/
instance (tag : UInt8) : Ordinary (Constant.readContents tag) := by
  unfold Constant.readContents
  split <;> infer_instance

/-- A constant fails as its tag or its contents do. -/
instance : Ordinary Constant.read := by
  unfold Constant.read
  infer_instance

namespace Pool

/-- A pool can break off, and its last constant can be too wide. The cases are those of the
reader. -/
instance (free : Nat) (slots : Array (Option Constant)) : Ordinary (readSlots free slots) := by
  induction free, slots using readSlots.induct with
  | case1 slots =>
    rw [readSlots]
    infer_instance
  | case2 slots =>
    rw [readSlots]
    infer_instance
  | case3 slots free wide narrow =>
    rw [readSlots]
    have (constant : Constant) := wide constant
    have (constant : Constant) := narrow constant
    infer_instance

/-- A pool can have no count, or fail in its slots. -/
instance : Ordinary read := by
  unfold read
  infer_instance

section

variable (pool : Pool) (index : UInt16)

/-- A slot can be empty or beyond the pool. -/
instance : Ordinary (pool.get index) := by
  unfold get
  split <;> infer_instance

/-- A slot can hold something else than a text. -/
instance : Ordinary (pool.utf8Bytes index) := by
  unfold utf8Bytes
  refine .bind _ fun constant => ?_
  split <;> infer_instance

/-- A text fails as its bytes do. -/
instance : Ordinary (pool.utf8 index) := by
  unfold utf8
  infer_instance

/-- A slot can hold something else than a class entry. -/
instance : Ordinary (pool.className index) := by
  unfold className
  refine .bind _ fun constant => ?_
  split <;> infer_instance

/-- A slot can hold something else than a name and type entry. -/
instance : Ordinary (pool.nameAndType index) := by
  unfold nameAndType
  refine .bind _ fun constant => ?_
  split <;> infer_instance

/-- A slot can hold something else than a reference. -/
instance : Ordinary (pool.memberRef index) := by
  unfold memberRef
  refine .bind _ fun constant => ?_
  split <;> infer_instance

end

/-- The pool can be full. -/
instance (constant : Constant) : Ordinary (intern constant) := by
  refine .of_results _ fun pool => ?_
  unfold intern interned
  split
  · infer_instance
  · split <;> infer_instance

/-- A text can be too long. -/
instance (text : String) : Ordinary (addUtf8 text) := by
  unfold addUtf8
  infer_instance

/-- A class entry fails as its name does, or because the pool is full. -/
instance (name : String) : Ordinary (addClass name) := by
  unfold addClass
  infer_instance

/-- A string constant fails as its text does, or because the pool is full. -/
instance (text : String) : Ordinary (addString text) := by
  unfold addString
  infer_instance

/-- A name and type entry fails as its texts do, or because the pool is full. -/
instance (name descriptor : String) : Ordinary (addNameAndType name descriptor) := by
  unfold addNameAndType
  infer_instance

/-- A field reference fails as its parts do, or because the pool is full. -/
instance (owner name descriptor : String) : Ordinary (addFieldRef owner name descriptor) := by
  unfold addFieldRef
  infer_instance

/-- A method reference fails as its parts do, or because the pool is full. -/
instance (owner name descriptor : String) : Ordinary (addMethodRef owner name descriptor) := by
  unfold addMethodRef
  infer_instance

end Pool

/-! ## Classes -/

namespace Attribute

/-- An attribute can break off. -/
instance : Ordinary read := by
  unfold read
  infer_instance

/-- Attributes fail as one of them does. -/
instance : Ordinary readAll := by
  unfold readAll
  infer_instance

/-- An attribute can be too long to be written. -/
instance (entry : Attribute) : Ordinary entry.written := by
  unfold written
  infer_instance

/-- Attributes cannot be written if they are too many or one of them cannot be. -/
instance (attributes : List Attribute) : Ordinary (writtenAll attributes) := by
  unfold writtenAll
  infer_instance

end Attribute

/-- A member can break off. -/
instance : Ordinary Member.read := by
  unfold Member.read
  infer_instance

/-- A member cannot be written if its attributes cannot. -/
instance (member : Member) : Ordinary member.written := by
  unfold Member.written
  infer_instance

namespace ClassFile

/-- The magic number can be another one. -/
instance : Ordinary readMagic := by
  unfold readMagic
  infer_instance

/-- A class fails as one of its parts does. -/
instance : Ordinary read := by
  unfold read
  infer_instance

section

variable (file : ClassFile)

/-- The name of a class can be missing from its pool. -/
instance : Ordinary file.name := by
  unfold name
  infer_instance

/-- Bytes can be too few or too many for a class. -/
instance (bytes : List UInt8) : Ordinary (parse bytes) := by
  unfold parse
  infer_instance

/-- A class cannot be written if one of its tables cannot. -/
instance : Ordinary file.written := by
  unfold written
  infer_instance

/-- The name of a member can be missing from the pool. -/
instance (member : Member) : Ordinary (file.memberName member) := by
  unfold memberName
  infer_instance

/-- The descriptor of a member can be missing from the pool. -/
instance (member : Member) : Ordinary (file.memberDescriptor member) := by
  unfold memberDescriptor
  infer_instance

end

/-- Adding constants to a class fails as it does for its pool. -/
instance {α : Type} (growth : Pool.Growth α) [Ordinary growth] : Ordinary (growing growth) :=
  .of_results _ fun file => Ordinary.result growth file.pool

/-- Adding a method fails as adding its constants does. -/
instance (access : UInt16) (name descriptor : String) (code : Option (List UInt8)) :
    Ordinary (addMethod access name descriptor code) := by
  unfold addMethod
  cases code <;> infer_instance

/-- Adding an attribute fails as adding its name does. -/
instance (name : String) (contents : List UInt8) : Ordinary (addAttribute name contents) := by
  unfold addAttribute
  infer_instance

end ClassFile

/-! ## Annotations -/

/-- An annotation fails as its values do, or breaks off. -/
instance (value : Reader ElementValue) [Ordinary value] :
    Ordinary (AnnotationTree.readWith value) := by
  unfold AnnotationTree.readWith
  infer_instance

/-- A value can have an unknown tag, break off, or be nested too deeply. The induction is on
the depth. -/
instance (depth : Nat) : Ordinary (ElementValue.read depth) := by
  induction depth with
  | zero =>
    rw [ElementValue.read]
    infer_instance
  | succ depth inductionHypothesis =>
    rw [ElementValue.read]
    infer_instance

namespace AnnotationTree

/-- An annotation fails as it does at a depth. -/
instance (depth : Nat) : Ordinary (read depth) := by
  unfold read
  infer_instance

/-- The types of annotations fail as the annotations do. -/
instance (contents : List UInt8) : Ordinary (types contents) := by
  unfold types
  infer_instance

/-- The types on parameters fail as the annotations on them do. -/
instance (contents : List UInt8) : Ordinary (parameterTypes contents) := by
  unfold parameterTypes
  infer_instance

end AnnotationTree

end NullGuard
