import NullGuard.Proofs.Code.Body

/-!
# The written form of a class

A class is read from its written form and from no other bytes. That is shown
from the inside out, for constants, pools, members and classes: the bytes that
stand for a value are its written form, and what was read can be written. Two
things are not visible in the written form and are asked for separately. The
slots of a pool have to be filled in order, with an empty slot behind each wide
constant and nowhere else, and the name of the class has to resolve.
-/

namespace NullGuard

/-! ## Constants -/

namespace Constant

/-- The bytes of a text can be counted in two bytes. -/
def Fits : Constant → Prop
  | .utf8 bytes => bytes.length < 65536
  | _ => True

/-- What follows the tag of a constant is read without a look behind it. -/
instance (tag : UInt8) : (readContents tag).Local := by
  unfold readContents
  split <;> infer_instance

/-- A constant is read without a look at what follows. -/
instance : read.Local := by
  unfold read
  infer_instance

/-- The bytes taken behind a tag are those that the constant is written with behind it. -/
theorem takes_readContents (tag : UInt8) (contents : List UInt8) (constant : Constant) :
    (readContents tag).Takes contents constant ↔
      constant.written = tag :: contents ∧ constant.Fits := by
  constructor
  · intro taken
    rw [readContents.eq_def] at taken
    split at taken <;>
      simp only [bind_pure_comp, Reader.takes_map, Reader.takes_u16_bind, Reader.takes_u8_bind,
        Reader.takes_u16, Reader.takes_i32, Reader.takes_u32, Reader.takes_i64, Reader.takes_u64,
        Reader.takes_bytes, Reader.takes_fail] at taken
    case h_1 =>
      obtain ⟨length, bytes, rfl, _, ⟨rfl, counted⟩, rfl⟩ := taken
      have bound := length.toNat_lt
      refine ⟨?_, by rw [Fits]; omega⟩
      rw [written, counted, UInt16.ofNat_toNat]
      rfl
    case h_12 =>
      obtain ⟨kind, _, rfl, reference, rfl, rfl⟩ := taken
      exact ⟨rfl, trivial⟩
    case h_8 | h_9 | h_10 | h_11 | h_14 | h_15 =>
      obtain ⟨first, _, rfl, second, rfl, rfl⟩ := taken
      exact ⟨rfl, trivial⟩
    all_goals
      obtain ⟨word, rfl, rfl⟩ := taken
      exact ⟨rfl, trivial⟩
  · rintro ⟨wrote, fits⟩
    cases constant <;> obtain ⟨rfl, rfl⟩ := List.cons.inj wrote
    case utf8 bytes =>
      refine (Reader.takes_u16_bind ..).2 ⟨UInt16.ofNat bytes.length, bytes, rfl, ?_⟩
      simp only [bind_pure_comp, Reader.takes_map, Reader.takes_bytes]
      exact ⟨bytes, ⟨rfl, (UInt16.toNat_ofNat_of_lt' fits).symm⟩, rfl⟩
    all_goals
      simp [readContents, Reader.takes_map, Reader.takes_u16_bind, Reader.takes_u8_bind,
        Written.u16_append_inj]

/-- The bytes taken as a constant are its byte form, if it fits into one. -/
theorem takes_read (front : List UInt8) (constant : Constant) :
    read.Takes front constant ↔ front = constant.written ∧ constant.Fits := by
  rw [read, Reader.takes_u8_bind]
  simp only [takes_readContents]
  constructor
  · rintro ⟨tag, contents, rfl, wrote, fits⟩
    exact ⟨wrote.symm, fits⟩
  · rintro ⟨rfl, fits⟩
    obtain ⟨tag, contents, wrote⟩ : ∃ tag contents, constant.written = tag :: contents := by
      cases constant <;> exact ⟨_, _, rfl⟩
    exact ⟨tag, contents, wrote, wrote, fits⟩

end Constant

/-! ## Pools -/

namespace Pool

/-- Slots that are filled with constants. Behind a wide constant one slot stays empty. -/
inductive Filled : List (Option Constant) → Prop
  | nil : Filled []
  | narrow {constant : Constant} {others : List (Option Constant)}
      (narrow : constant.isWide = false) (fits : constant.Fits) (rest : Filled others) :
      Filled (some constant :: others)
  | wide {constant : Constant} {others : List (Option Constant)}
      (wide : constant.isWide = true) (fits : constant.Fits) (rest : Filled others) :
      Filled (some constant :: none :: others)

/-- The slots are read without a look at what follows. The induction is that of the reader:
a wide constant fills two slots at once. -/
instance (free : Nat) (slots : Array (Option Constant)) : (readSlots free slots).Local := by
  induction free, slots using readSlots.induct with
  | case1 slots =>
    rw [readSlots]
    infer_instance
  | case2 slots =>
    rw [readSlots]
    infer_instance
  | case3 slots free wide narrow =>
    rw [readSlots]
    have (constant : Constant) := wide constant
    have (constant : Constant) := narrow constant
    infer_instance

/-- The bytes taken to fill so many slots are the byte forms of the constants added, and
these fill exactly so many slots. -/
theorem takes_readSlots (free : Nat) (slots filled : Array (Option Constant))
    (front : List UInt8) :
    (readSlots free slots).Takes front filled ↔
      ∃ added, Filled added ∧ added.length = free ∧ filled = slots ++ added.toArray ∧
        front = added.flatMap writtenSlot := by
  induction free, slots using readSlots.induct generalizing front with
  | case1 slots =>
    rw [readSlots, Reader.takes_pure]
    constructor
    · rintro ⟨rfl, rfl⟩
      exact ⟨[], .nil, rfl, by simp, rfl⟩
    · rintro ⟨added, -, none, rfl, rfl⟩
      obtain rfl := List.eq_nil_of_length_eq_zero none
      exact ⟨rfl, by simp⟩
  | case2 slots =>
    rw [readSlots, Reader.takes_bind_of Constant.takes_read]
    constructor
    · rintro ⟨constant, back, fits, rfl, taken⟩
      split at taken
      next => exact (Reader.takes_fail _ _ _ taken).elim
      next narrow =>
        obtain ⟨rfl, rfl⟩ := (Reader.takes_pure ..).1 taken
        exact ⟨[some constant], .narrow (Bool.eq_false_iff.2 narrow) fits .nil, rfl, by simp,
          by simp [writtenSlot]⟩
    · rintro ⟨added, isFilled, one, rfl, rfl⟩
      cases isFilled with
      | nil => cases one
      | @narrow constant others narrow fits rest =>
        obtain rfl := List.eq_nil_of_length_eq_zero (Nat.succ.inj one)
        refine ⟨constant, [], fits, by simp [writtenSlot], ?_⟩
        rw [narrow, if_neg Bool.false_ne_true, Reader.takes_pure]
        exact ⟨rfl, by simp⟩
      | wide => simp at one
  | case3 free slots wide narrow =>
    rw [readSlots, Reader.takes_bind_of Constant.takes_read]
    constructor
    · rintro ⟨constant, back, fits, rfl, taken⟩
      split at taken
      next isWide =>
        obtain ⟨added, isFilled, rfl, rfl, rfl⟩ := (wide constant ..).1 taken
        exact ⟨_, .wide isWide fits isFilled, rfl, by simp, by simp [writtenSlot]⟩
      next isNarrow =>
        obtain ⟨added, isFilled, counted, rfl, rfl⟩ := (narrow constant ..).1 taken
        exact ⟨_, .narrow (Bool.eq_false_iff.2 isNarrow) fits isFilled, by simp [counted],
          by simp, by simp [writtenSlot]⟩
    · rintro ⟨added, isFilled, counted, rfl, rfl⟩
      cases isFilled with
      | nil => cases counted
      | @narrow constant others isNarrow fits rest =>
        refine ⟨constant, others.flatMap writtenSlot, fits, by simp [writtenSlot], ?_⟩
        rw [isNarrow, if_neg Bool.false_ne_true, narrow constant]
        exact ⟨others, rest, Nat.succ.inj counted, by simp, rfl⟩
      | @wide constant others isWide fits rest =>
        refine ⟨constant, others.flatMap writtenSlot, fits, by simp [writtenSlot], ?_⟩
        rw [if_pos isWide, wide constant]
        exact ⟨others, rest, by simpa using counted, by simp, rfl⟩

/-- Slot 0 is empty, the other slots are filled, and they can be counted. -/
structure WellFormed (pool : Pool) : Prop where
  filled : ∃ constants, pool.slots.toList = none :: constants ∧ Filled constants
  bounded : pool.size ≤ maxSize

/-- A pool is read without a look at what follows. -/
instance : read.Local := by
  unfold read
  infer_instance

/-- The number of slots says how many of them are to be filled behind slot 0. -/
theorem takes_read (front : List UInt8) (pool : Pool) :
    read.Takes front pool ↔ front = pool.written ∧ pool.WellFormed := by
  constructor
  · intro taken
    obtain ⟨count, _, slotBytes, rfl, counted, behindCount⟩ := (Reader.takes_bind ..).1 taken
    obtain rfl := (Reader.takes_u16 ..).1 ((Reader.takes_during ..).1 counted)
    have bound := count.toNat_lt
    dsimp only at behindCount
    split at behindCount
    next =>
      obtain ⟨_, _, _, _, failed, -⟩ := (Reader.takes_bind ..).1 behindCount
      exact (Reader.takes_fail _ _ _ failed).elim
    next some =>
      obtain ⟨slots, _, _, rfl, filled, returned⟩ := (Reader.takes_bind ..).1 behindCount
      obtain ⟨rfl, rfl⟩ := (Reader.takes_pure ..).1 returned
      obtain ⟨constants, isFilled, size, rfl, rfl⟩ := (takes_readSlots ..).1 filled
      have positive : count.toNat ≠ 0 := fun zero => some (UInt16.toNat_inj.1 zero)
      have total : (ofSlots (#[none] ++ constants.toArray)).size = count.toNat := by
        simp only [Pool.size, ofSlots, Array.size_append, List.size_toArray, size]
        simp
        omega
      refine ⟨?_, ⟨constants, by simp [ofSlots], isFilled⟩, by rw [total, maxSize]; omega⟩
      rw [written, total, UInt16.ofNat_toNat]
      simp [ofSlots, writtenSlot]
  · rintro ⟨rfl, ⟨constants, slots, isFilled⟩, bounded⟩
    have size : pool.size = constants.length + 1 := by
      rw [Pool.size, ← Array.length_toList, slots, List.length_cons]
    have count : (UInt16.ofNat pool.size).toNat = pool.size := by
      rw [maxSize] at bounded
      exact UInt16.toNat_ofNat_of_lt' (by show _ < 65536; omega)
    refine (Reader.takes_bind ..).2 ⟨UInt16.ofNat pool.size, _, _, rfl,
      (Reader.takes_during ..).2 ((Reader.takes_u16 ..).2 rfl), ?_⟩
    have some : UInt16.ofNat pool.size ≠ 0 := by
      intro zero
      rw [zero, size] at count
      cases count
    dsimp only
    rw [if_neg some, count, slots, Reader.takes_bind]
    refine ⟨pool.slots, constants.flatMap writtenSlot, [], by simp [writtenSlot], ?_, ?_⟩
    · refine (takes_readSlots ..).2 ⟨constants, isFilled, by omega, ?_, rfl⟩
      rw [← Array.toList_inj, slots]
      simp
    · exact (Reader.takes_pure ..).2 ⟨rfl, ext_slots rfl⟩

end Pool

/-! ## Members -/

namespace Member

/-- A member is read without a look at what follows. -/
instance : read.Local := by
  unfold read
  infer_instance

/-- The bytes taken as a member are its byte form. -/
theorem takes_read (front : List UInt8) (member : Member) :
    read.Takes front member ↔ member.written = .ok front := by
  rw [written, Outcome.bind_eq_ok]
  constructor
  · intro taken
    obtain ⟨access, _, rfl, behindAccess⟩ := (Reader.takes_u16_bind ..).1 taken
    obtain ⟨name, _, rfl, behindName⟩ := (Reader.takes_u16_bind ..).1 behindAccess
    obtain ⟨descriptor, _, rfl, behindDescriptor⟩ := (Reader.takes_u16_bind ..).1 behindName
    obtain ⟨entries, attributes, _, rfl, takenAttributes, returned⟩ :=
      (Reader.takes_bind ..).1 behindDescriptor
    obtain ⟨rfl, rfl⟩ := (Reader.takes_pure ..).1 returned
    refine ⟨attributes, (Attribute.takes_readAll ..).1 takenAttributes, ?_⟩
    simp only [List.append_assoc, List.append_nil]
    rfl
  · rintro ⟨attributes, wrote, returned⟩
    obtain rfl := Except.ok.inj returned
    simp only [List.append_assoc]
    refine (Reader.takes_u16_bind ..).2 ⟨member.access, _, rfl, ?_⟩
    refine (Reader.takes_u16_bind ..).2 ⟨member.name, _, rfl, ?_⟩
    refine (Reader.takes_u16_bind ..).2 ⟨member.descriptor, _, rfl, ?_⟩
    refine (Reader.takes_bind ..).2 ⟨member.attributes, attributes, [], ?_, ?_, ?_⟩
    · rw [List.append_nil]
    · exact (Attribute.takes_readAll ..).2 wrote
    · exact (Reader.takes_pure ..).2 ⟨rfl, rfl⟩

end Member

/-! ## Classes -/

namespace ClassFile

/-- The magic number is read without a look at what follows. -/
instance : readMagic.Local := by
  unfold readMagic
  infer_instance

/-- A class is read without a look at what follows. -/
instance : read.Local := by
  unfold read
  infer_instance

/-- The bytes taken as the magic number are that number. -/
theorem takes_readMagic (front : List UInt8) (value : Unit) :
    readMagic.Takes front value ↔ front = Written.u32 magic := by
  rw [readMagic, Reader.takes_bind]
  constructor
  · rintro ⟨word, _, _, rfl, counted, checked⟩
    obtain rfl := (Reader.takes_u32 ..).1 ((Reader.takes_during ..).1 counted)
    split at checked
    next => exact (Reader.takes_fail _ _ _ checked).elim
    next right =>
      obtain ⟨rfl, -⟩ := (Reader.takes_pure ..).1 checked
      rw [not_not.1 right, List.append_nil]
  · rintro rfl
    refine ⟨magic, _, [], (List.append_nil _).symm,
      (Reader.takes_during ..).2 ((Reader.takes_u32 ..).2 rfl), ?_⟩
    exact (Reader.takes_pure ..).2 ⟨rfl, rfl⟩

/-- The indices of interfaces are written one behind the other. -/
theorem takes_interfaces (front : List UInt8) (interfaces : List UInt16) :
    (Reader.table Reader.u16).Takes front interfaces ↔
      Written.table "interfaces" (fun index => .ok (Written.u16 index)) interfaces = .ok front :=
  Reader.takes_table_written
    (fun word index => by rw [Reader.takes_u16, Except.ok.injEq, eq_comm]) ..

/-- The parts of a class are taken from their written forms. -/
theorem takes_read (front : List UInt8) (file : ClassFile) :
    read.Takes front file ↔ file.pool.WellFormed ∧ file.written = .ok front := by
  constructor
  · intro taken
    obtain ⟨_, _, behindMagic, rfl, opened, takenVersion⟩ := (Reader.takes_bind ..).1 taken
    obtain rfl := (takes_readMagic ..).1 opened
    obtain ⟨minor, _, rfl, behindMinor⟩ := (Reader.takes_u16_bind ..).1 takenVersion
    obtain ⟨major, _, rfl, behindMajor⟩ := (Reader.takes_u16_bind ..).1 behindMinor
    obtain ⟨pool, _, _, rfl, takenPool, behindPool⟩ := (Reader.takes_bind ..).1 behindMajor
    obtain ⟨rfl, wellFormed⟩ := (Pool.takes_read ..).1 ((Reader.takes_during ..).1 takenPool)
    obtain ⟨access, _, rfl, behindAccess⟩ := (Reader.takes_u16_bind ..).1 behindPool
    obtain ⟨thisClass, _, rfl, behindThis⟩ := (Reader.takes_u16_bind ..).1 behindAccess
    obtain ⟨superClass, _, rfl, behindSuper⟩ := (Reader.takes_u16_bind ..).1 behindThis
    obtain ⟨interfaces, interfaceBytes, _, rfl, takenInterfaces, behindInterfaces⟩ :=
      (Reader.takes_bind ..).1 behindSuper
    obtain ⟨fields, fieldBytes, _, rfl, takenFields, behindFields⟩ :=
      (Reader.takes_bind ..).1 behindInterfaces
    obtain ⟨methods, methodBytes, _, rfl, takenMethods, behindMethods⟩ :=
      (Reader.takes_bind ..).1 behindFields
    obtain ⟨attributes, attributeBytes, _, rfl, takenAttributes, returned⟩ :=
      (Reader.takes_bind ..).1 behindMethods
    obtain ⟨rfl, rfl⟩ := (Reader.takes_pure ..).1 returned
    refine ⟨wellFormed, ?_⟩
    refine (Outcome.bind_eq_ok ..).2 ⟨_, (takes_interfaces ..).1 takenInterfaces, ?_⟩
    refine (Outcome.bind_eq_ok ..).2 ⟨_, (Reader.takes_table_written Member.takes_read ..).1
      ((Reader.takes_during ..).1 takenFields), ?_⟩
    refine (Outcome.bind_eq_ok ..).2 ⟨_, (Reader.takes_table_written Member.takes_read ..).1
      ((Reader.takes_during ..).1 takenMethods), ?_⟩
    refine (Outcome.bind_eq_ok ..).2 ⟨_, (Attribute.takes_readAll ..).1
      ((Reader.takes_during ..).1 takenAttributes), ?_⟩
    simp only [List.append_assoc, List.append_nil]
    rfl
  · rintro ⟨wellFormed, wrote⟩
    obtain ⟨interfaces, wroteInterfaces, behindInterfaces⟩ := (Outcome.bind_eq_ok ..).1 wrote
    obtain ⟨fields, wroteFields, behindFields⟩ := (Outcome.bind_eq_ok ..).1 behindInterfaces
    obtain ⟨methods, wroteMethods, behindMethods⟩ := (Outcome.bind_eq_ok ..).1 behindFields
    obtain ⟨attributes, wroteAttributes, returned⟩ := (Outcome.bind_eq_ok ..).1 behindMethods
    obtain rfl := Except.ok.inj returned
    simp only [List.append_assoc]
    refine (Reader.takes_bind ..).2 ⟨(), _, _, rfl, (takes_readMagic ..).2 rfl, ?_⟩
    refine (Reader.takes_u16_bind ..).2 ⟨file.minor, _, rfl, ?_⟩
    refine (Reader.takes_u16_bind ..).2 ⟨file.major, _, rfl, ?_⟩
    refine (Reader.takes_bind ..).2 ⟨file.pool, _, _, rfl,
      (Reader.takes_during ..).2 ((Pool.takes_read ..).2 ⟨rfl, wellFormed⟩), ?_⟩
    refine (Reader.takes_u16_bind ..).2 ⟨file.access, _, rfl, ?_⟩
    refine (Reader.takes_u16_bind ..).2 ⟨file.thisClass, _, rfl, ?_⟩
    refine (Reader.takes_u16_bind ..).2 ⟨file.superClass, _, rfl, ?_⟩
    refine (Reader.takes_bind ..).2 ⟨file.interfaces, _, _, rfl,
      (takes_interfaces ..).2 wroteInterfaces, ?_⟩
    refine (Reader.takes_bind ..).2 ⟨file.fields, _, _, rfl, (Reader.takes_during ..).2
      ((Reader.takes_table_written Member.takes_read ..).2 wroteFields), ?_⟩
    refine (Reader.takes_bind ..).2 ⟨file.methods, _, _, rfl, (Reader.takes_during ..).2
      ((Reader.takes_table_written Member.takes_read ..).2 wroteMethods), ?_⟩
    refine (Reader.takes_bind ..).2 ⟨file.attributes, attributes, [], (List.append_nil _).symm,
      (Reader.takes_during ..).2 ((Attribute.takes_readAll ..).2 wroteAttributes), ?_⟩
    exact (Reader.takes_pure ..).2 ⟨rfl, rfl⟩

/-- The constant pool is in order, and the name of the class can be found in it. -/
structure WellFormed (file : ClassFile) : Prop where
  pool : file.pool.WellFormed
  named : ∃ name, file.name = .ok name

/-- Some bytes are read as a class exactly if the class is well formed and written with
these bytes. -/
theorem parse_eq_ok (bytes : List UInt8) (file : ClassFile) :
    parse bytes = .ok file ↔ file.WellFormed ∧ file.written = .ok bytes := by
  rw [parse, Outcome.bind_eq_ok]
  simp only [Reader.whole_eq_ok, takes_read]
  constructor
  · rintro ⟨found, ⟨wellFormed, wrote⟩, settled⟩
    obtain ⟨name, resolved, returned⟩ := (Outcome.bind_eq_ok ..).1 settled
    obtain rfl := Except.ok.inj returned
    exact ⟨⟨wellFormed, name, (Outcome.during_eq_ok ..).1 resolved⟩, wrote⟩
  · rintro ⟨⟨wellFormed, name, resolved⟩, wrote⟩
    refine ⟨file, ⟨wellFormed, wrote⟩, ?_⟩
    exact (Outcome.bind_eq_ok ..).2 ⟨name, (Outcome.during_eq_ok ..).2 resolved, rfl⟩

/-- What is read is exactly what can be written: a class is read from its own written
form and from no other bytes, provided that its constant pool is in order and its
name resolves, and a body is read from its own written form and from no other
bytes, provided that its code has a length that code can have. -/
theorem parse_iff_written (bytes contents : List UInt8) (file : ClassFile) (body : Body) :
    (parse bytes = .ok file ↔ file.WellFormed ∧ file.written = .ok bytes) ∧
      (Body.parse contents = .ok body ↔ body.HasLength ∧ body.written = .ok contents) :=
  ⟨parse_eq_ok bytes file, Body.parse_eq_ok contents body⟩

end ClassFile

end NullGuard
