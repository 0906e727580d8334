import Mathlib.Algebra.GroupWithZero.Nat
import NullGuard.Proofs.ClassFile.Editing
import NullGuard.Proofs.ClassFile.Interning

/-!
# Classes that are built

A class comes about by being created or read, and by changes, some of which may have
failed half-way. Whatever was done to it, its constant pool is in order and its name can
be found, because the pool only grows and the class refers to the same name all the time.
So if it can be written it is read again as the same class, and it can be written unless
something is too long to be counted (`reparses`).
-/

namespace NullGuard

open Stateful

/-! ## Tables that can be written -/

namespace Written

/-- A table can be written if its rows can be counted and each of them can be written. -/
theorem exists_table_iff {α : Type} (what : String) (row : α → Except Failure (List UInt8))
    (rows : List α) :
    (∃ bytes, table what row rows = .ok bytes) ↔
      rows.length ≤ 65535 ∧ ∀ item ∈ rows, ∃ bytes, row item = .ok bytes := by
  constructor
  · rintro ⟨bytes, wrote⟩
    obtain ⟨length, counted, rest⟩ := (Outcome.bind_eq_ok ..).1 wrote
    obtain ⟨written, each, -⟩ := (Outcome.bind_eq_ok ..).1 rest
    refine ⟨?_, Outcome.exists_of_mapM row rows written each⟩
    rw [tableLength] at counted
    split at counted
    · omega
    · cases counted
  · rintro ⟨few, each⟩
    obtain ⟨written, wrote⟩ := Outcome.exists_mapM_eq_ok row rows each
    have counted : tableLength what rows.length = .ok (UInt16.ofNat rows.length) :=
      if_pos (by omega)
    exact ⟨_, (Outcome.bind_eq_ok ..).2 ⟨_, counted,
      (Outcome.bind_eq_ok ..).2 ⟨written, wrote, rfl⟩⟩⟩

end Written

/-- An attribute can be written if the length of its contents is a number of four bytes. -/
theorem Attribute.exists_written_iff (entry : Attribute) :
    (∃ bytes, entry.written = .ok bytes) ↔ entry.contents.length < 2 ^ 32 := by
  rw [Attribute.written]
  split
  next short => simpa using short
  next long =>
    constructor
    · rintro ⟨bytes, wrote⟩
      cases wrote
    · intro short
      exact absurd short long

/-- Attributes that can be counted, with contents that can be counted. -/
def Attribute.Countable (attributes : List Attribute) : Prop :=
  attributes.length ≤ 65535 ∧ ∀ entry ∈ attributes, entry.contents.length < 2 ^ 32

/-- A table of attributes can be written if it has not too many rows and none of them is too
long. -/
theorem Attribute.exists_writtenAll_iff (attributes : List Attribute) :
    (∃ bytes, Attribute.writtenAll attributes = .ok bytes) ↔ Attribute.Countable attributes := by
  simp only [writtenAll, Written.exists_table_iff, exists_written_iff, Countable]

/-- A member can be written if its attributes can. -/
theorem Member.exists_written_iff (member : Member) :
    (∃ bytes, member.written = .ok bytes) ↔ Attribute.Countable member.attributes := by
  rw [← Attribute.exists_writtenAll_iff]
  constructor
  · rintro ⟨bytes, wrote⟩
    obtain ⟨attributes, wroteAttributes, -⟩ := (Outcome.bind_eq_ok ..).1 wrote
    exact ⟨attributes, wroteAttributes⟩
  · rintro ⟨attributes, wroteAttributes⟩
    exact ⟨_, (Outcome.bind_eq_ok ..).2 ⟨attributes, wroteAttributes, rfl⟩⟩

namespace ClassFile

/-- Every table of a class has at most 65535 rows, and the contents of every attribute have
less than 2 ^ 32 bytes. -/
structure Countable (file : ClassFile) : Prop where
  interfaces : file.interfaces.length ≤ 65535
  fields : file.fields.length ≤ 65535
  methods : file.methods.length ≤ 65535
  ofMembers : ∀ member ∈ file.fields ++ file.methods, Attribute.Countable member.attributes
  attributes : Attribute.Countable file.attributes

/-- A class can be written if everything in it can be counted. -/
theorem exists_written_iff (file : ClassFile) :
    (∃ bytes, file.written = .ok bytes) ↔ file.Countable := by
  have interfaces := Written.exists_table_iff "interfaces"
    (fun index => .ok (Written.u16 index)) file.interfaces
  have fields := Written.exists_table_iff "fields" Member.written file.fields
  have methods := Written.exists_table_iff "methods" Member.written file.methods
  have attributes := Attribute.exists_writtenAll_iff file.attributes
  simp only [Member.exists_written_iff] at fields methods
  constructor
  · rintro ⟨bytes, wrote⟩
    obtain ⟨first, wroteInterfaces, rest⟩ := (Outcome.bind_eq_ok ..).1 wrote
    obtain ⟨second, wroteFields, rest⟩ := (Outcome.bind_eq_ok ..).1 rest
    obtain ⟨third, wroteMethods, rest⟩ := (Outcome.bind_eq_ok ..).1 rest
    obtain ⟨fourth, wroteAttributes, -⟩ := (Outcome.bind_eq_ok ..).1 rest
    obtain ⟨fewFields, eachField⟩ := fields.1 ⟨_, wroteFields⟩
    obtain ⟨fewMethods, eachMethod⟩ := methods.1 ⟨_, wroteMethods⟩
    exact ⟨(interfaces.1 ⟨_, wroteInterfaces⟩).1, fewFields, fewMethods,
      List.forall_mem_append.2 ⟨eachField, eachMethod⟩, attributes.1 ⟨_, wroteAttributes⟩⟩
  · rintro ⟨fewInterfaces, fewFields, fewMethods, members, countable⟩
    obtain ⟨eachField, eachMethod⟩ := List.forall_mem_append.1 members
    obtain ⟨first, wroteInterfaces⟩ := interfaces.2 ⟨fewInterfaces, fun index _ => ⟨_, rfl⟩⟩
    obtain ⟨second, wroteFields⟩ := fields.2 ⟨fewFields, eachField⟩
    obtain ⟨third, wroteMethods⟩ := methods.2 ⟨fewMethods, eachMethod⟩
    obtain ⟨fourth, wroteAttributes⟩ := attributes.2 countable
    exact ⟨_, (Outcome.bind_eq_ok ..).2 ⟨first, wroteInterfaces, (Outcome.bind_eq_ok ..).2
      ⟨second, wroteFields, (Outcome.bind_eq_ok ..).2 ⟨third, wroteMethods,
        (Outcome.bind_eq_ok ..).2 ⟨fourth, wroteAttributes, rfl⟩⟩⟩⟩⟩

/-! ## Changes -/

/-- What can be done to a class. -/
inductive Change
  | addInterface (name : String)
  | addField (access : UInt16) (name descriptor : String)
  | addMethod (access : UInt16) (name descriptor : String) (code : Option (List UInt8))
  | addAttribute (name : String) (contents : List UInt8)
  | addConstant (request : Pool.Request)

/-- The step that makes a change. -/
def Change.edit : Change → Edit Unit
  | .addInterface name => ClassFile.addInterface name
  | .addField access name descriptor => ClassFile.addField access name descriptor
  | .addMethod access name descriptor code => ClassFile.addMethod access name descriptor code
  | .addAttribute name contents => ClassFile.addAttribute name contents
  | .addConstant request => do let _ ← growing request.add

/-- The class behind a change, however far the change came. -/
def after (file : ClassFile) (change : Change) : ClassFile := (change.edit file).2

/-- The classes that can be built: they are created or read, and then changed. -/
inductive Obtained : ClassFile → Prop
  | create {name superName : String} {access major : UInt16} {file : ClassFile}
    (made : create name superName access major = .ok file) : Obtained file
  | parse {bytes : List UInt8} {file : ClassFile} (parsed : parse bytes = .ok file) :
    Obtained file
  | after {file : ClassFile} (before : Obtained file) (change : Change) :
    Obtained (file.after change)

/-- A class of which no constant is lost, and which refers to its name as before. -/
structure Extends (file extended : ClassFile) : Prop where
  pool : file.pool.GrowsTo extended.pool
  thisClass : extended.thisClass = file.thisClass

namespace Extends

/-- A class extends itself. -/
theorem refl (file : ClassFile) : file.Extends file := ⟨.refl _, rfl⟩

/-- What is built on what has been built extends the first class. -/
theorem trans (first second third : ClassFile) (begun : first.Extends second)
    (ended : second.Extends third) : first.Extends third :=
  ⟨.trans _ _ _ begun.pool ended.pool, ended.thisClass.trans begun.thisClass⟩

end Extends

/-- Adding constants changes nothing but the pool, which grows. -/
theorem keeps_request (request : Pool.Request) : Stateful.Keeps Extends (growing request.add) :=
  fun file => ⟨request.behaves.grows file.pool, rfl⟩

/-- Every change only extends a class, whether or not it succeeds: it asks the pool for
constants and puts something behind the rows of a table. -/
theorem keeps_edit (change : Change) : Stateful.Keeps Extends change.edit := by
  have text (content : String) : Stateful.Keeps Extends (growing (Pool.addUtf8 content)) :=
    keeps_request (.utf8 content)
  cases change with
  | addInterface name =>
    exact .bind Extends.trans (keeps_request (.classEntry name)) fun _ file =>
      ⟨.refl file.pool, rfl⟩
  | addField access name descriptor =>
    exact .bind Extends.trans (text name) fun _ => .bind Extends.trans (text descriptor)
      fun _ file => ⟨.refl file.pool, rfl⟩
  | addMethod access name descriptor code =>
    refine .bind Extends.trans (text name) fun _ => .bind Extends.trans (text descriptor)
      fun _ => ?_
    cases code with
    | none => exact .bind Extends.trans (keeps_pure .refl _) fun _ file => ⟨.refl file.pool, rfl⟩
    | some contents =>
      exact .bind Extends.trans (text codeName) fun _ =>
        .bind Extends.trans (keeps_pure .refl _) fun _ file => ⟨.refl file.pool, rfl⟩
  | addAttribute name contents =>
    exact .bind Extends.trans (text name) fun _ file => ⟨.refl file.pool, rfl⟩
  | addConstant request =>
    exact .bind Extends.trans (keeps_request request) fun _ => keeps_pure .refl _

/-- No change of a class spoils its pool, not even one that fails. -/
instance (change : Change) : Upholds HasPool change.edit := by
  cases change with
  | addInterface name =>
    exact .bind inferInstance fun _ => upholds_modify _ fun _ wellFormed => wellFormed
  | addField access name descriptor =>
    exact .bind inferInstance fun _ => .bind inferInstance fun _ =>
      upholds_modify _ fun _ wellFormed => wellFormed
  | addMethod access name descriptor code =>
    exact inferInstanceAs (Upholds HasPool (addMethod access name descriptor code))
  | addAttribute name contents =>
    exact inferInstanceAs (Upholds HasPool (addAttribute name contents))
  | addConstant request => exact .bind inferInstance fun _ => inferInstance

/-- No change takes away what makes a class readable. -/
theorem WellFormed.after {file : ClassFile} (wellFormed : file.WellFormed) (change : Change) :
    (file.after change).WellFormed := by
  obtain ⟨pool, name, named⟩ := wellFormed
  have upholds : Upholds HasPool change.edit := inferInstance
  obtain ⟨grows, same⟩ := keeps_edit change file
  refine ⟨(upholds_iff change.edit).1 upholds file pool, name, ?_⟩
  show (file.after change).pool.className (file.after change).thisClass = .ok name
  rw [ClassFile.after, same]
  exact grows.className _ _ named

/-- A new class has the constants for its name and for that of the class above it. -/
theorem wellFormed_of_create (name superName : String) (access major : UInt16) (file : ClassFile)
    (made : create name superName access major = .ok file) : file.WellFormed := by
  have empty : Pool.empty.WellFormed := Pool.Obtained.empty.wellFormed
  rw [create] at made
  split at made
  next result pool ran =>
    cases result with
    | error failure => cases made
    | ok indices =>
      obtain rfl := Except.ok.inj made
      replace ran : Runs _ Pool.empty indices pool := ran
      rw [ExceptT.run] at ran
      have wellFormed : pool.WellFormed := Upholds.of_runs inferInstance ran empty
      obtain ⟨thisClass, middle, first, ran⟩ := (runs_bind ..).1 ran
      obtain ⟨superClass, last, second, returned⟩ := (runs_bind ..).1 ran
      obtain ⟨rfl, rfl⟩ := (runs_pure ..).1 returned
      obtain ⟨begun, named⟩ := Pool.runs_addClass _ _ _ _ empty.bounded first
      obtain ⟨ended, -⟩ := Pool.runs_addClass _ _ _ _ (begun.bounded empty.bounded) second
      exact ⟨wellFormed, _, ended.className _ _ named.className⟩

/-- The class that has been obtained is well formed. -/
theorem Obtained.wellFormed {file : ClassFile} (obtained : file.Obtained) : file.WellFormed := by
  induction obtained with
  | create made => exact wellFormed_of_create _ _ _ _ _ made
  | parse parsed => exact ((parse_eq_ok ..).1 parsed).1
  | after _ change wellFormed => exact wellFormed.after change

/-- Whatever was done to build a class, it is read as the same class from what is written of
it; and it can be written exactly if none of its tables has more than 65535 rows and no
attribute has contents of 2 ^ 32 bytes or more. -/
theorem reparses (file : ClassFile) (obtained : file.Obtained) :
    (∀ bytes, file.written = .ok bytes → parse bytes = .ok file) ∧
      ((∃ bytes, file.written = .ok bytes) ↔ file.Countable) :=
  ⟨fun bytes wrote => (parse_eq_ok bytes file).2 ⟨obtained.wellFormed, wrote⟩,
    file.exists_written_iff⟩

/-- A class to which a field and an interface were added is read again with both. -/
theorem reparses_extended : ∃ file bytes, create "A" "B" 0x21 49 = .ok file ∧
    ((file.after (.addField 2 "f" "I")).after (.addInterface "C")).written = .ok bytes ∧
    parse bytes = .ok ((file.after (.addField 2 "f" "I")).after (.addInterface "C")) := by
  obtain ⟨file, made⟩ : ∃ file, create "A" "B" 0x21 49 = .ok file := ⟨_, rfl⟩
  have obtained := ((Obtained.create made).after (.addField 2 "f" "I")).after (.addInterface "C")
  obtain ⟨bytes, wrote⟩ : ∃ bytes,
      ((file.after (.addField 2 "f" "I")).after (.addInterface "C")).written = .ok bytes := by
    obtain rfl := Except.ok.inj made
    exact ⟨_, rfl⟩
  exact ⟨file, bytes, made, wrote, (reparses _ obtained).1 bytes wrote⟩

end ClassFile

end NullGuard
