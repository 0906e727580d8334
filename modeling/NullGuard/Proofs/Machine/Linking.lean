import NullGuard.Guard.Support
import NullGuard.Proofs.ClassFile.Growth

/-!
# Linking

How a machine finds the classes, methods and fields that the constants of a class name.
Names are compared by their bytes: two names that are read as one text are still two names
(`Program.resolve_of_split` needs the very bytes that the class declares). A field is looked
for in the class that a reference names, then in its interfaces and at last in its
superclass, each together with what is above it. A method is looked for in the class that is
named and nowhere else. Whether a member may be used where it is named is not asked.
-/

namespace NullGuard

/-! ## Names in constants -/

namespace Pool

/-- The bytes of the text at an index. -/
def bytes? (pool : Pool) (index : UInt16) : Option (List UInt8) :=
  (pool.utf8Bytes index).toOption

/-- The bytes of the name of the class entry at an index. -/
def classBytes? (pool : Pool) (index : UInt16) : Option (List UInt8) :=
  match pool.get? index with
  | some (.classEntry name) => pool.bytes? name
  | _ => none

/-- The spelling of a reference that is made of two entries. -/
def spelling? (pool : Pool) (owner texts : UInt16) : Option Spelling :=
  match pool.get? texts with
  | some (.nameAndType name descriptor) => do
    return ⟨← pool.classBytes? owner, ← pool.bytes? name, ← pool.bytes? descriptor⟩
  | _ => none

section

variable {pool : Pool} {index : UInt16}

/-- The bytes at an index are those that its slot holds. -/
theorem bytes?_eq_some (bytes : List UInt8) :
    pool.bytes? index = some bytes ↔ pool.holds bytes index = true := by
  rw [← utf8Bytes_eq_ok, bytes?]
  cases pool.utf8Bytes index <;> simp [Except.toOption]

/-- The bytes of a class entry are those that it names a class by. -/
theorem classBytes?_eq_some (bytes : List UInt8) :
    pool.classBytes? index = some bytes ↔ pool.NamesClass index bytes := by
  rw [classBytes?, NamesClass]
  split
  next name here =>
    rw [bytes?_eq_some]
    constructor
    · intro held
      exact ⟨name, here, held⟩
    · rintro ⟨other, there, held⟩
      obtain rfl := Constant.classEntry.inj (Option.some.inj (here.symm.trans there))
      exact held
  next other =>
    constructor
    · intro impossible
      cases impossible
    · rintro ⟨name, here, -⟩
      exact (other name here).elim

/-- A reference that is spelled in a certain way has this spelling. -/
theorem spelling?_of_names {owner texts : UInt16} {spelling : Spelling}
    (ofOwner : pool.NamesClass owner spelling.owner)
    (ofTexts : pool.NamesMember texts spelling.name spelling.descriptor) :
    pool.spelling? owner texts = some spelling := by
  obtain ⟨name, descriptor, here, heldName, heldDescriptor⟩ := ofTexts
  simp only [spelling?, here, (classBytes?_eq_some _).2 ofOwner, (bytes?_eq_some _).2 heldName,
    (bytes?_eq_some _).2 heldDescriptor]
  rfl

end

end Pool

/-! ## Names in classes -/

namespace ClassFile

/-- Whether a class is named by some bytes. -/
def isNamed (file : ClassFile) (name : List UInt8) : Bool :=
  file.pool.classBytes? file.thisClass == some name

/-- The interfaces of a class and its superclass, in the order in which a field is looked for
in them. -/
def above (file : ClassFile) : List (List UInt8) :=
  (file.interfaces ++ [file.superClass]).filterMap file.pool.classBytes?

/-- The fields that a class declares under the name and the descriptor of a reference. A
class that is well-formed declares one such field at most. -/
def fieldsOf (file : ClassFile) (field : Pool.Spelling) : List Member :=
  file.fields.filter fun member =>
    file.pool.holds field.name member.name && file.pool.holds field.descriptor member.descriptor

/-- The method that a class declares under the name and the descriptor of a reference. -/
def methodOf (file : ClassFile) (method : Pool.Spelling) : Option Member :=
  file.methods.find? fun member =>
    file.pool.holds method.name member.name && file.pool.holds method.descriptor member.descriptor

/-- With canonical bytes a method is found by its texts. -/
theorem methodOf_ofMember (file : ClassFile) (method : MemberRef) :
    file.methodOf (.ofMember method) = file.methods.find? fun member =>
      file.pool.utf8Is member.name method.name &&
        file.pool.utf8Is member.descriptor method.descriptor := rfl

/-- A class is named with some bytes if these are the bytes of its own class entry. -/
theorem isNamed_iff (file : ClassFile) (name : List UInt8) :
    file.isNamed name = true ↔ file.pool.NamesClass file.thisClass name := by
  rw [isNamed, beq_iff_eq, Pool.classBytes?_eq_some]

end ClassFile

namespace Machine

/-! ## Fields -/

/-- The classes that are loaded. -/
abbrev Program := List ClassFile

/-- What comes of a reference to a field: the field that is declared, or an error of a
class. -/
inductive Resolution
  | found (field : Pool.Spelling)
  | fails (error : String)
  deriving DecidableEq, Repr

namespace Program

/-- The classes in which a field of a class is looked for, each with its name: the class
itself, then what is above it up to some height. -/
def lineage (program : Program) : Nat → List UInt8 → List (List UInt8 × ClassFile)
  | 0, _ => []
  | height + 1, name =>
    let files := program.filter (·.isNamed name)
    files.map (name, ·) ++
      files.flatMap fun file => file.above.flatMap (program.lineage height)

/-- Resolve a reference to an instance field or a static field. No class stands higher than
there are classes. -/
def resolve (program : Program) (field : Pool.Spelling) (isStatic : Bool) : Resolution :=
  match program.lineage program.length field.owner with
  | [] => .fails "java/lang/NoClassDefFoundError"
  | classes =>
    match classes.find? fun (_, file) => !(file.fieldsOf field).isEmpty with
    | none => .fails "java/lang/NoSuchFieldError"
    | some (owner, file) =>
      if (file.fieldsOf field).any (·.isStatic == isStatic) then .found { field with owner }
      else .fails "java/lang/IncompatibleClassChangeError"

/-- A class that is named is among those in which its fields are looked for, behind the
classes of that name that were loaded earlier. -/
theorem exists_lineage (earlier : Program) (file : ClassFile) (others : Program)
    (name : List UInt8) (named : file.isNamed name = true) (height : Nat) :
    ∃ behind, lineage (earlier ++ file :: others) (height + 1) name =
      (earlier.filter (·.isNamed name)).map (name, ·) ++ (name, file) :: behind := by
  have front : (file :: others).filter (·.isNamed name) =
      file :: others.filter (·.isNamed name) := by
    rw [List.filter_cons, if_pos named]
  refine ⟨(others.filter (·.isNamed name)).map (name, ·) ++
    ((earlier ++ file :: others).filter (·.isNamed name)).flatMap fun named =>
      named.above.flatMap (lineage (earlier ++ file :: others) height), ?_⟩
  rw [lineage, List.filter_append, front, List.map_append, List.map_cons, List.append_assoc]
  rfl

/-- A class that is named and declares a field is where the field is found, unless a class
loaded earlier has fields. -/
theorem resolve_of_split (earlier : Program) (bare : ∀ other ∈ earlier, other.fields = [])
    (file : ClassFile) (others : Program) (field : Pool.Spelling) (isStatic : Bool)
    (named : file.isNamed field.owner = true) (member : Member)
    (declared : member ∈ file.fieldsOf field) (sameKind : member.isStatic = isStatic) :
    resolve (earlier ++ file :: others) field isStatic = .found field := by
  obtain ⟨height, counted⟩ : ∃ height, (earlier ++ file :: others).length = height + 1 :=
    ⟨earlier.length + others.length, by simp; omega⟩
  obtain ⟨behind, split⟩ := exists_lineage earlier file others field.owner named height
  -- What stands in front in the lineage declares nothing, so the search gets to the class.
  have passed : ((earlier.filter (·.isNamed field.owner)).map (field.owner, ·)).find?
      (fun item => !(item.2.fieldsOf field).isEmpty) = none := by
    rw [List.find?_eq_none]
    intro item inside
    obtain ⟨other, kept, rfl⟩ := List.mem_map.1 inside
    simp [ClassFile.fieldsOf, bare other (List.mem_of_mem_filter kept)]
  have present : (file.fieldsOf field).isEmpty = false :=
    List.isEmpty_eq_false_iff.2 (List.ne_nil_of_mem declared)
  have kind : (file.fieldsOf field).any (·.isStatic == isStatic) = true :=
    List.any_eq_true.2 ⟨member, declared, beq_iff_eq.2 sameKind⟩
  rw [resolve, counted]
  split
  next none =>
    rw [split] at none
    simp at none
  next =>
    rw [split, List.find?_append, passed, Option.none_or,
      List.find?_cons_of_pos (by simp [present])]
    exact if_pos kind

/-! ## Methods -/

/-- A method, and the class of that name that declares it. -/
def find? (program : Program) (method : Pool.Spelling) : Option (ClassFile × Member) :=
  program.findSome? fun file =>
    if file.isNamed method.owner then (file.methodOf method).map (file, ·) else none

/-- The search for a method goes on behind a class without it. -/
theorem find?_cons_of_none (file : ClassFile) (others : Program) (method : Pool.Spelling)
    (absent : file.methodOf method = none) :
    find? (file :: others) method = find? others method := by
  simp [find?, absent]

/-- The search for a method ends at a class that has it. -/
theorem find?_cons_of_some (file : ClassFile) (others : Program) (method : Pool.Spelling)
    (member : Member) (named : file.isNamed method.owner = true)
    (declares : file.methodOf method = some member) :
    find? (file :: others) method = some (file, member) := by
  simp [find?, named, declares]

end Program

end Machine

end NullGuard
