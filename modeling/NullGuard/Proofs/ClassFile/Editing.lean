import NullGuard.Proofs.Bytes.Reading
import NullGuard.Proofs.ClassFile.Growth

/-!
# Growing classes

A class that was read has a pool of bounded size. Methods and attributes are added
behind the ones that are there, under indices of a pool that has grown.
-/

namespace NullGuard

open Stateful

/-! ## Sizes of pools -/

namespace Pool

/-- Reading fills exactly the slots that were announced. -/
theorem size_readSlots (free : Nat) (slots filled : Array (Option Constant))
    (input rest : List UInt8) (ran : readSlots free slots input = .ok (filled, rest)) :
    filled.size = slots.size + free := by
  induction free, slots using readSlots.induct generalizing input with
  | case1 slots =>
    rw [readSlots] at ran
    cases ran
    rfl
  | case2 slots =>
    obtain ⟨constant, middle, -, filling⟩ := (Reader.bind_eq_ok ..).1 ran
    split at filling
    next => cases filling
    next =>
      cases filling
      rw [Array.size_push]
  | case3 slots free wide narrow =>
    obtain ⟨constant, middle, -, filling⟩ := (Reader.bind_eq_ok ..).1 ran
    split at filling
    next =>
      rw [wide constant middle filling, Array.size_push, Array.size_push]
      omega
    next =>
      rw [narrow constant middle filling, Array.size_push]
      omega

/-- The size of a pool is written as two bytes. -/
theorem size_of_read (pool : Pool) (input rest : List UInt8)
    (ran : read input = .ok (pool, rest)) : pool.size ≤ maxSize := by
  obtain ⟨count, middle, -, checking⟩ := (Reader.bind_eq_ok ..).1 ran
  have bound := count.toNat_lt
  split at checking
  next =>
    obtain ⟨_, _, failed, -⟩ := (Reader.bind_eq_ok ..).1 checking
    cases failed
  next some =>
    obtain ⟨slots, last, filled, returned⟩ := (Reader.bind_eq_ok ..).1 checking
    cases returned
    have size : slots.size = 1 + (count.toNat - 1) := size_readSlots _ _ _ _ _ filled
    show slots.size ≤ 65535
    omega

end Pool

namespace ClassFile

/-- The pool of a class that was read has a size that can be written. -/
theorem size_of_parse (bytes : List UInt8) (file : ClassFile) (parsed : parse bytes = .ok file) :
    file.pool.size ≤ Pool.maxSize := by
  obtain ⟨found, whole, named⟩ := (Outcome.bind_eq_ok ..).1 parsed
  obtain ⟨_, -, returned⟩ := (Outcome.bind_eq_ok ..).1 named
  obtain rfl := Except.ok.inj returned
  have ran := Reader.run_of_whole _ _ _ _ whole
  obtain ⟨_, _, -, ran⟩ := (Reader.bind_eq_ok ..).1 ran
  obtain ⟨minor, _, -, ran⟩ := (Reader.bind_eq_ok ..).1 ran
  obtain ⟨major, _, -, ran⟩ := (Reader.bind_eq_ok ..).1 ran
  obtain ⟨pool, last, pooled, ran⟩ := (Reader.bind_eq_ok ..).1 ran
  obtain ⟨access, _, -, ran⟩ := (Reader.bind_eq_ok ..).1 ran
  obtain ⟨thisClass, _, -, ran⟩ := (Reader.bind_eq_ok ..).1 ran
  obtain ⟨superClass, _, -, ran⟩ := (Reader.bind_eq_ok ..).1 ran
  obtain ⟨interfaces, _, -, ran⟩ := (Reader.bind_eq_ok ..).1 ran
  obtain ⟨fields, _, -, ran⟩ := (Reader.bind_eq_ok ..).1 ran
  obtain ⟨methods, _, -, ran⟩ := (Reader.bind_eq_ok ..).1 ran
  obtain ⟨attributes, _, -, ran⟩ := (Reader.bind_eq_ok ..).1 ran
  cases ran
  exact pool.size_of_read _ _ ((Reader.during_eq_ok ..).1 pooled)

/-! ## Edits -/

/-- Adding constants changes nothing but the pool. -/
theorem runs_growing {α : Type} (growth : Pool.Growth α) (file after : ClassFile) (value : α) :
    Runs (growing growth) file value after ↔
      ∃ pool, Runs growth file.pool value pool ∧ after = { file with pool } := by
  constructor
  · intro ran
    obtain ⟨same, rfl⟩ := Prod.mk.inj ran
    exact ⟨_, Prod.ext same rfl, rfl⟩
  · rintro ⟨pool, ran, rfl⟩
    have unfolded : growing growth file =
        ((growth file.pool).1, { file with pool := (growth file.pool).2 }) := rfl
    rw [Runs, unfolded, ran]

/-- If constants cannot be added to a class, they cannot be added to its pool. -/
theorem fails_growing {α : Type} (growth : Pool.Growth α) (file after : ClassFile)
    (failure : Failure) (failed : Fails (growing growth) file failure after) :
    ∃ pool, Fails growth file.pool failure pool := by
  obtain ⟨same, -⟩ := Prod.mk.inj failed
  exact ⟨_, Prod.ext same rfl⟩

section

variable (file after : ClassFile) (small : file.pool.size ≤ Pool.maxSize)
include small

/-- A text is added to the pool, and the index is that of the text. -/
theorem runs_addUtf8 (text : String) (index : UInt16)
    (ran : Runs (growing (Pool.addUtf8 text)) file index after) :
    ∃ pool, file.pool.GrowsTo pool ∧ pool.utf8Is index text = true ∧
      after = { file with pool } := by
  obtain ⟨pool, added, rfl⟩ := (runs_growing ..).1 ran
  obtain ⟨grows, here⟩ := Pool.runs_addUtf8 _ _ _ _ small added
  exact ⟨pool, grows, here, rfl⟩

/-- A method with code is added behind the others. -/
theorem runs_addMethod (access : UInt16) (name descriptor : String) (contents : List UInt8)
    (ran : Runs (addMethod access name descriptor (some contents)) file () after) :
    ∃ pool nameIndex descriptorIndex codeIndex, file.pool.GrowsTo pool ∧
      pool.utf8Is nameIndex name = true ∧ pool.utf8Is descriptorIndex descriptor = true ∧
      pool.utf8Is codeIndex codeName = true ∧
      after =
        { file with
          pool
          methods := file.methods ++
            [⟨access, nameIndex, descriptorIndex, [⟨codeIndex, contents⟩]⟩] } := by
  obtain ⟨nameIndex, _, ranName, describing⟩ := (runs_bind ..).1 ran
  obtain ⟨first, begun, named, rfl⟩ := runs_addUtf8 file _ small name nameIndex ranName
  obtain ⟨descriptorIndex, _, ranDescriptor, coding⟩ := (runs_bind ..).1 describing
  obtain ⟨second, between, described, rfl⟩ := runs_addUtf8 _ _ (begun.bounded small) descriptor
    descriptorIndex ranDescriptor
  obtain ⟨codeIndex, _, ranCode, attributing⟩ := (runs_bind ..).1 coding
  obtain ⟨third, ended, coded, rfl⟩ := runs_addUtf8 _ _ (between.bounded (begun.bounded small))
    codeName codeIndex ranCode
  obtain ⟨attributes, _, attributed, last⟩ := (runs_bind ..).1 attributing
  obtain ⟨rfl, rfl⟩ := (runs_pure ..).1 attributed
  obtain rfl := (runs_modify ..).1 last
  exact ⟨third, nameIndex, descriptorIndex, codeIndex,
    .trans _ _ _ begun (.trans _ _ _ between ended),
    ended.utf8Is _ _ (between.utf8Is _ _ named), ended.utf8Is _ _ described, coded, rfl⟩

/-- An attribute is added behind the others, under an index of its name. -/
theorem runs_addAttribute (name : String) (contents : List UInt8)
    (ran : Runs (addAttribute name contents) file () after) :
    ∃ pool index, file.pool.GrowsTo pool ∧ pool.utf8Is index name = true ∧
      after = { file with pool, attributes := file.attributes ++ [⟨index, contents⟩] } := by
  obtain ⟨index, _, ranName, appended⟩ := (runs_bind ..).1 ran
  obtain ⟨pool, grows, named, rfl⟩ := runs_addUtf8 file _ small name index ranName
  obtain rfl := (runs_modify ..).1 appended
  exact ⟨pool, index, grows, named, rfl⟩

end

end ClassFile

end NullGuard
