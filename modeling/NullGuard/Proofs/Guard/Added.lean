import NullGuard.Proofs.Guard.Frame
import NullGuard.Proofs.Machine.Guards

/-!
# Calls of added methods

A program that holds the helper class and a woven class can read the guarded fields of the
class and call the methods that weaving has added to it, provided that the names in the class
are the canonical bytes of texts. No other method of the class has the name of one that was
added, so the call finds that one, and it makes the checks of its fields.
-/

namespace NullGuard

open Machine Text.ModifiedUtf8

/-! ## Guarded fields -/

/-- A field is guarded where a policy asks for it and an object of a class is in it. -/
theorem GuardedFields.exists_place (model : ClassModel) (policy : Policy) (key : FieldKey)
    (guarded : key ∈ (ofPolicy model policy).keys) :
    ∃ (place : Nat) (field : FieldModel), model.fields[place]? = some field ∧
      policy.fields[place]? = some true ∧ field.isObject = true ∧
      (⟨field.name, field.descriptor⟩ : FieldKey) = key := by
  have kept : key ∈ (((model.fields.zip policy.fields).filter fun pair =>
      pair.2 && pair.1.isObject).map Prod.fst).map
        fun field : FieldModel => (⟨field.name, field.descriptor⟩ : FieldKey) := by
    obtain instances | statics := List.mem_append.1 guarded
    · exact List.map_subset _ (List.filter_subset_self _) instances
    · exact List.map_subset _ (List.filter_subset_self _) statics
  obtain ⟨field, inside, same⟩ := List.mem_map.1 kept
  obtain ⟨⟨_, verdict⟩, asked, rfl⟩ := List.mem_map.1 inside
  obtain ⟨zipped, both⟩ := List.mem_filter.1 asked
  obtain ⟨isTrue, isObject⟩ := (Bool.and_eq_true ..).mp both
  obtain ⟨place, together⟩ := List.mem_iff_getElem?.1 zipped
  obtain ⟨fieldHere, verdictHere⟩ := List.getElem?_zip_eq_some.1 together
  exact ⟨place, _, fieldHere, isTrue ▸ verdictHere, isObject, same⟩

/-- The bytes of a reference are those of texts. -/
structure Pool.Spelling.IsCanonical (spelling : Spelling) : Prop where
  owner : Text.ModifiedUtf8.IsCanonical spelling.owner
  name : Text.ModifiedUtf8.IsCanonical spelling.name
  descriptor : Text.ModifiedUtf8.IsCanonical spelling.descriptor

/-- How a class spells one of its fields. -/
def ClassFile.spelling (file : ClassFile) (field : Member) : Pool.Spelling where
  owner := (file.pool.classBytes? file.thisClass).getD []
  name := (file.pool.bytes? field.name).getD []
  descriptor := (file.pool.bytes? field.descriptor).getD []

/-- How a class spells its guarded instance fields or static fields. -/
def ClassFile.guardedSpellings (file : ClassFile) (policy : Policy) (isStatic : Bool) :
    List Pool.Spelling :=
  (file.guardedFields policy isStatic).map file.spelling

/-- A guarded field is declared, and its descriptor names a class. -/
theorem ClassFile.of_mem_guardedFields {file : ClassFile} {policy : Policy} {isStatic : Bool}
    {member : Member} (guarded : member ∈ file.guardedFields policy isStatic) :
    member ∈ file.fields ∧ member.isObject file.pool = true ∧ member.isStatic = isStatic := by
  obtain ⟨⟨_, verdict⟩, kept, rfl⟩ := List.mem_map.1 guarded
  obtain ⟨paired, asked⟩ := List.mem_filter.1 kept
  simp only [Bool.and_eq_true, beq_iff_eq] at asked
  exact ⟨(List.of_mem_zip paired).1, asked.1.2, asked.2⟩

/-- Weaving leaves the constants, the name and the fields of a class as they are. -/
theorem fields_of_weave (file woven : ClassFile) (model : ClassModel) (policy : Policy)
    (statistics : Statistics) (small : file.pool.size ≤ Pool.maxSize)
    (ran : Stateful.Runs (weave model policy) file (some statistics) woven) :
    file.pool.GrowsTo woven.pool ∧ woven.thisClass = file.thisClass ∧
      woven.fields = file.fields := by
  obtain ⟨results, pool, grown, methods, members, index, -, guarded, -, ended, -, -, -, rfl⟩ :=
    runs_weave file woven model policy statistics small ran
  obtain ⟨begun, -⟩ := Weaving.settled_of_guardMethods file model policy small pool results guarded
  exact ⟨begun.trans _ _ _ ended, rfl, rfl⟩

section

variable {file woven : ClassFile} {model : ClassModel} {member : Member} {key : FieldKey}
variable (named : file.name = .ok model.name) (hasKey : member.HasKey file.pool key)
include named hasKey

/-- The bytes by which a class spells a field are read as the texts of the key of the field. -/
theorem ClassFile.exists_spelling : ∃ own name descriptor,
    file.spelling member = ⟨own, name, descriptor⟩ ∧ file.pool.NamesClass file.thisClass own ∧
      file.pool.holds name member.name = true ∧
      file.pool.holds descriptor member.descriptor = true ∧
      decode own = model.name ∧ decode name = key.name ∧ decode descriptor = key.descriptor := by
  obtain ⟨own, names, readsOwn⟩ := Pool.namesClass_of_className named
  obtain ⟨name, heldName, readsName⟩ := file.pool.holds_of_utf8 _ _ hasKey.1
  obtain ⟨descriptor, heldDescriptor, readsDescriptor⟩ := file.pool.holds_of_utf8 _ _ hasKey.2
  refine ⟨own, name, descriptor, ?_, names, heldName, heldDescriptor, readsOwn, readsName,
    readsDescriptor⟩
  rw [ClassFile.spelling, (Pool.classBytes?_eq_some own).2 names,
    (Pool.bytes?_eq_some name).2 heldName, (Pool.bytes?_eq_some descriptor).2 heldDescriptor]
  rfl

variable (canonical : (file.spelling member).IsCanonical)
include canonical

/-- With canonical bytes a guard spells the field as the class does. -/
theorem FieldKey.spelling_eq : key.spelling model.name = file.spelling member := by
  obtain ⟨own, name, descriptor, spelled, -, -, -, readsOwn, readsName, readsDescriptor⟩ :=
    ClassFile.exists_spelling named hasKey
  rw [spelled] at canonical ⊢
  rw [FieldKey.spelling, Pool.Spelling.ofMember, ← readsOwn, ← readsName, ← readsDescriptor,
    (encode_decode_iff own).2 canonical.owner, (encode_decode_iff name).2 canonical.name,
    (encode_decode_iff descriptor).2 canonical.descriptor]

/-- With canonical bytes a guarded field can be read in the woven class, unless a class loaded
earlier has fields. -/
theorem readable_of_spelling (earlier : Program) (bare : ∀ other ∈ earlier, other.fields = [])
    (others : Program) (grows : file.pool.GrowsTo woven.pool)
    (thisClass : woven.thisClass = file.thisClass) (fields : woven.fields = file.fields)
    (declared : member ∈ file.fields) (objects : member.isObject file.pool = true) :
    Readable (earlier ++ woven :: others) (.ofField member.isStatic) (file.spelling member) := by
  obtain ⟨own, name, descriptor, spelled, names, heldName, heldDescriptor, -, -, -⟩ :=
    ClassFile.exists_spelling named hasKey
  rw [spelled] at canonical ⊢
  have kind : (CheckKind.ofField member.isStatic != .constructorField) = member.isStatic := by
    cases member.isStatic <;> rfl
  refine ⟨?_, ?_⟩
  · rw [kind]
    refine Program.resolve_of_split earlier bare woven others _ _ ?_ member ?_ rfl
    · rw [ClassFile.isNamed_iff, thisClass]
      exact names.grow grows
    · rw [ClassFile.fieldsOf, List.mem_filter, Bool.and_eq_true, fields]
      exact ⟨declared, grows.holds _ heldName, grows.holds _ heldDescriptor⟩
  · rw [Member.isObject, file.pool.utf8_of_holds _ _ heldDescriptor] at objects
    rw [← (encode_decode_iff descriptor).2 canonical.descriptor]
    exact Value.isReference_initial (decode descriptor) objects

end

section

variable {file : ClassFile} {model : ClassModel} {policy : Policy} {isStatic : Bool}
variable (models : model.Models file)
variable (canonical : ∀ field ∈ file.guardedSpellings policy isStatic, field.IsCanonical)
include models canonical

/-- With canonical bytes guards spell the guarded fields as the class does. -/
theorem AddedMethod.map_spelling :
    (ofFields (.ofPolicy model policy) isStatic).keys.map (·.spelling model.name) =
      file.guardedSpellings policy isStatic := by
  have each := (List.forall₂_and_left ..).2 ⟨fun member (guarded : member ∈ _) =>
    canonical _ (List.mem_map_of_mem guarded), hasKey_ofFields file model models policy isStatic⟩
  refine Outcome.map_eq_of_forall₂ _ _ ?_ each
  rintro member key ⟨texts, hasKey⟩
  exact FieldKey.spelling_eq models.name hasKey texts

/-- A class with a guarded field is named by canonical bytes if the field is spelled with
them. -/
theorem ClassFile.namesClass_of_canonical
    (guarded : file.guardedSpellings policy isStatic ≠ []) :
    file.pool.NamesClass file.thisClass (encode model.name) := by
  obtain ⟨field, inside⟩ := List.exists_mem_of_ne_nil _ guarded
  obtain ⟨member, present, rfl⟩ := List.mem_map.1 inside
  obtain ⟨key, -, hasKey⟩ := Outcome.exists_of_forall₂
    (AddedMethod.hasKey_ofFields file model models policy isStatic).flip member present
  obtain ⟨own, name, descriptor, spelled, names, -, -, readsOwn, -⟩ :=
    ClassFile.exists_spelling models.name hasKey
  have texts := (canonical _ inside).owner
  rw [spelled] at texts
  rw [← readsOwn, (encode_decode_iff own).2 texts]
  exact names

end

/-! ## Finding methods -/

/-- Two texts at one index are the same. -/
theorem Pool.eq_of_utf8Is (pool : Pool) (index : UInt16) (first second : String)
    (one : pool.utf8Is index first = true) (other : pool.utf8Is index second = true) :
    first = second :=
  Except.ok.inj ((pool.utf8_of_utf8Is index first one).symm.trans
    (pool.utf8_of_utf8Is index second other))

/-- A text that resolves stays what it is. -/
theorem Pool.GrowsTo.utf8Is_eq {pool grown : Pool} (grows : pool.GrowsTo grown) (index : UInt16)
    (held : String) (here : pool.utf8 index = .ok held) (text : String) :
    grown.utf8Is index text = pool.utf8Is index text := by
  obtain ⟨bytes, holds, -⟩ := pool.holds_of_utf8 index held here
  have stands := (pool.holds_iff bytes index).1 holds
  simp only [Pool.utf8Is, Pool.holds, stands, grows.get? index _ stands]

/-- A class that has no method of a name has none of that name and some descriptor. -/
theorem methodOf_of_hasMethod (file : ClassFile) (className name descriptor : String)
    (absent : file.hasMethod name = false) :
    file.methodOf (.ofMember ⟨className, name, descriptor⟩) = none := by
  rw [ClassFile.hasMethod, List.any_eq_false] at absent
  rw [ClassFile.methodOf_ofMember, List.find?_eq_none]
  intro member inside
  rw [Bool.and_eq_true]
  exact fun both => absent member inside both.1

namespace AddedMethod

/-- The added methods of a class have different names. -/
theorem nodup_all (guarded : GuardedFields) (isInterface : Bool) :
    ((all guarded isInterface).map AddedMethod.name).Nodup := by
  rw [all]
  split <;> split <;> simp [ofInstances, ofStatics]
  decide

/-- The methods that weaving adds have one of two names. -/
theorem name_of_mem_all (guarded : GuardedFields) (isInterface : Bool) (added : AddedMethod)
    (present : added ∈ all guarded isInterface) :
    added.name = instanceCheckMethod ∨ added.name = staticCheckMethod := by
  obtain instances | statics := List.mem_append.1 present
  · split at instances
    · obtain rfl := List.mem_singleton.1 instances
      exact .inl rfl
    · cases instances
  · split at statics
    · obtain rfl := List.mem_singleton.1 statics
      exact .inr rfl
    · cases statics

/-- Each of some methods is found by its name. -/
theorem find?_of_isMember (pool : Pool) (className : String) (methods : List AddedMethod)
    (members : List Member) (each : List.Forall₂ (IsMember pool className) methods members)
    (distinct : (methods.map AddedMethod.name).Nodup) (added : AddedMethod)
    (present : added ∈ methods) :
    ∃ member, added.IsMember pool className member ∧ members.find? (fun other =>
      pool.utf8Is other.name added.name &&
        pool.utf8Is other.descriptor checkMethodDescriptor) = some member := by
  induction each with
  | nil => cases present
  | @cons first member methods members isMember _ inductionHypothesis =>
    rw [List.map_cons, List.nodup_cons] at distinct
    by_cases same : first = added
    · subst same
      refine ⟨member, isMember, List.find?_cons_of_pos ?_⟩
      rw [isMember.named, isMember.described]
      rfl
    · have behind : added ∈ methods := (List.mem_cons.1 present).resolve_left (Ne.symm same)
      obtain ⟨found, isFound, here⟩ := inductionHypothesis distinct.2 behind
      refine ⟨found, isFound, ?_⟩
      rw [List.find?_cons_of_neg, here]
      rw [Bool.and_eq_true]
      rintro ⟨named, -⟩
      have equal := pool.eq_of_utf8Is _ _ _ isMember.named named
      exact distinct.1 (equal ▸ List.mem_map_of_mem behind)

end AddedMethod

/-- A program has an added method: it is the one that a call by its name finds in the
classes of a name. -/
def Machine.Program.Has (program : Program) (className : String) (added : AddedMethod) : Prop :=
  ∃ file member, program.find? (.ofMember ⟨className, added.name, checkMethodDescriptor⟩) =
    some (file, member) ∧ added.IsMember file.pool className member

/-- A method that is woven keeps its name. -/
theorem Member.Recoded.name_eq {pool : Pool} {member newMember : Member}
    (recoded : Member.Recoded pool member newMember) : newMember.name = member.name := by
  cases recoded <;> rfl

/-- The methods of a class keep their names when they are woven, and no constant added later
gives another one to them. -/
theorem ClassFile.hasMethod_recoded (file : ClassFile) (model : ClassModel)
    (modelled : ClassModel.ofClass file = .ok model) (grown : Pool)
    (grows : file.pool.GrowsTo grown) (methods : List Member)
    (recoded : List.Forall₂ (Member.Recoded file.pool) file.methods methods) (name : String) :
    hasMethod { file with pool := grown, methods } name = file.hasMethod name := by
  have resolved : ∀ member ∈ file.methods, ∃ text, file.pool.utf8 member.name = .ok text := by
    intro member inside
    obtain ⟨method, -, ofMember⟩ := Outcome.exists_of_forall₂
      (model.models_of_ofClass file modelled).methods.flip member inside
    exact ⟨_, (MethodModel.of_ofMember file member method ofMember).1⟩
  have same : (methods.map fun member => grown.utf8Is member.name name) =
      file.methods.map fun member => file.pool.utf8Is member.name name := by
    refine Outcome.map_eq_of_forall₂ _ _ ?_ ((List.forall₂_and_left ..).2 ⟨resolved, recoded⟩)
    rintro member newMember ⟨⟨text, named⟩, becomes⟩
    rw [becomes.name_eq, grows.utf8Is_eq _ text named]
  have anySame := congrArg (List.any · id) same
  simp only [List.any_map] at anySame
  exact anySame

/-- A program has the methods that weaving has added to one of its classes, unless a class
loaded earlier has methods of their names. The name of the class has to be canonical. -/
theorem has_of_weave (file woven : ClassFile) (model : ClassModel) (policy : Policy)
    (statistics : Statistics) (small : file.pool.size ≤ Pool.maxSize)
    (modelled : ClassModel.ofClass file = .ok model)
    (ran : Stateful.Runs (weave model policy) file (some statistics) woven)
    (own : file.pool.NamesClass file.thisClass (encode model.name))
    (earlier : ClassFile) (others : Program) (added : AddedMethod)
    (absent : earlier.hasMethod added.name = false)
    (present : added ∈ AddedMethod.all (GuardedFields.ofPolicy model policy) model.isInterface) :
    Program.Has (earlier :: woven :: others) model.name added := by
  obtain ⟨results, pool, grown, methods, members, index, aligned, guarded, replaced, ended,
    areMembers, unnamed, -, same⟩ := runs_weave file woven model policy statistics small ran
  obtain ⟨begun, -⟩ := Weaving.settled_of_guardMethods file model policy small pool results guarded
  have recoded := recoded_of_replaceMethods file model policy modelled aligned small pool methods
    results guarded replaced
  -- No method that was there before has the name, also not by a constant added later.
  have before : methods.find? (fun other => grown.utf8Is other.name added.name &&
      grown.utf8Is other.descriptor checkMethodDescriptor) = none := by
    have unheld := unnamed added present
    rw [file.hasMethod_recoded model modelled pool begun methods recoded,
      ← file.hasMethod_recoded model modelled grown (begun.trans _ _ _ ended) methods recoded,
      ClassFile.hasMethod, List.any_eq_false] at unheld
    rw [List.find?_eq_none]
    intro method inside both
    exact unheld method inside ((Bool.and_eq_true ..).mp both).1
  obtain ⟨member, isMember, found⟩ := AddedMethod.find?_of_isMember grown model.name _ members
    areMembers (AddedMethod.nodup_all _ _) added present
  have pools : woven.pool = grown := congrArg ClassFile.pool same
  have lists : woven.methods = methods ++ members := congrArg ClassFile.methods same
  have thisClass : woven.thisClass = file.thisClass := by rw [same]
  let method : Pool.Spelling := .ofMember ⟨model.name, added.name, checkMethodDescriptor⟩
  have named : woven.isNamed method.owner = true := by
    rw [ClassFile.isNamed_iff, pools, thisClass]
    exact own.grow (begun.trans _ _ _ ended)
  have declares : woven.methodOf method = some member := by
    rw [ClassFile.methodOf_ofMember, pools, lists, List.find?_append, before, Option.none_or]
    exact found
  refine ⟨woven, member, ?_, pools ▸ isMember⟩
  exact (Program.find?_cons_of_none earlier (woven :: others) method
    (methodOf_of_hasMethod earlier model.name added.name checkMethodDescriptor absent)).trans
      (Program.find?_cons_of_some woven others method member named declares)

namespace Machine

/-! ## Calls -/

/-- The methods that weaving adds take no arguments. -/
theorem arity_checkMethod (className name : String) :
    arity (Pool.Spelling.ofMember ⟨className, name, checkMethodDescriptor⟩).descriptor =
      some 0 := by
  simp only [Pool.Spelling.descriptor_ofMember]
  decide +kernel

/-- The method for the instance fields is called on an object. -/
theorem isStatic_ofInstances (guarded : GuardedFields) :
    Access.has (AddedMethod.ofInstances guarded).access Access.staticFlag = false := by
  show Access.has (Access.privateFlag ||| Access.syntheticFlag) Access.staticFlag = false
  decide

/-- The method for the static fields is called without an object. -/
theorem isStatic_ofStatics (guarded : GuardedFields) :
    Access.has (AddedMethod.ofStatics guarded).access Access.staticFlag = true := by
  show Access.has (Access.privateFlag ||| Access.staticFlag ||| Access.syntheticFlag)
    Access.staticFlag = true
  decide

/-- The method that checks the instance fields is no constructor. -/
theorem instanceCheckMethod_ne (className : String) :
    (Pool.Spelling.ofMember ⟨className, instanceCheckMethod, checkMethodDescriptor⟩).name ≠
      encode SupportClass.constructorName := by
  simp only [Pool.Spelling.name_ofMember]
  decide

section

variable (program : Program) (callers : List Frame) (heap : Heap) (frame : Frame)
variable (className : String) (supported : Supported program)
include supported

/-- An added method that is called checks its fields and returns. -/
theorem makes_added (added : AddedMethod) (has : program.Has className added)
    (told : added.kind.detail = .fieldName)
    (readable : ∀ key ∈ added.keys, Readable program added.kind (key.spelling className))
    (isStatic : Bool)
    (static : Access.has added.access Access.staticFlag = isStatic) (arguments : List Value)
    (room : arguments.length ≤ added.maxLocals.toNat)
    (single : arguments.flatMap Value.cells = arguments)
    (receives : Receives heap arguments added.kind) :
    ∃ callee count, program.enter (.ofMember ⟨className, added.name, checkMethodDescriptor⟩)
        isStatic arguments = some callee ∧
      callee.handlers = [] ∧ callee.actionAt (callee.position + count) = some .finish ∧
      Makes program callers heap callee count [] ((added.keys.map (·.spelling className)).map
        (.ofField heap (arguments.getD 0 .null) added.kind)) := by
  obtain ⟨file, member, found, isMember⟩ := has
  obtain ⟨body, stream, group, holds, checks, instructions, maxStack, maxLocals, handlers⟩ :=
    isMember.checks
  have declared : member.isStatic = isStatic := by
    rw [Member.isStatic, isMember.access, static]
  have entered := enter_eq_some program _ _ arguments file member body stream found declared holds
    (by rw [single, maxLocals]; exact room)
  rw [single, instructions, maxStack, handlers] at entered
  refine ⟨_, group.length, entered, rfl, ?_, ?_⟩
  · show ((group ++ [.plain Opcode.vreturn])[0 + group.length]?).bind _ = _
    rw [Nat.zero_add, List.getElem?_concat_length]
    rfl
  · exact makes_fields program callers heap
      ⟨file.pool, group ++ [.plain Opcode.vreturn], [], guardStack.toNat, 0, arguments, []⟩
      supported (Nat.le_refl 2) className added.kind told receives added.keys readable group
      (List.prefix_append _ _) checks

variable (guarded : GuardedFields)

/-- The call of the method that checks the instance fields of an object. -/
theorem makes_instanceCheck (has : program.Has className (.ofInstances guarded))
    (readable : ∀ key ∈ guarded.instances,
      Readable program .constructorField (key.spelling className))
    (address : Address) (object : Object) (there : heap.objects[address]? = some object)
    (rest : List Value)
    (here : frame.stack = .object address :: rest)
    (does : frame.actionAt frame.position =
      some (.callSpecial (.ofMember ⟨className, instanceCheckMethod, checkMethodDescriptor⟩))) :
    Makes program callers heap frame 1 rest ((guarded.instances.map (·.spelling className)).map
      (.ofField heap (.object address) .constructorField)) := by
  obtain ⟨callee, count, entered, unhandled, finishes, makes⟩ := makes_added program
    (frame.goto frame.position rest :: callers) heap className supported (.ofInstances guarded) has
    rfl readable false (isStatic_ofInstances guarded) [.object address] (Nat.le_refl 1) rfl
    fun _ => ⟨address, object, rfl, there⟩
  have called := step_callSpecial program callers heap frame _ 0 address rest callee does
    (instanceCheckMethod_ne className) (arity_checkMethod _ _) here entered
  exact makes_of_call callee rest [] count _ called unhandled makes finishes

/-- The call of the method that checks the static fields. -/
theorem makes_staticCheck (has : program.Has className (.ofStatics guarded))
    (readable : ∀ key ∈ guarded.statics,
      Readable program .staticInitializerField (key.spelling className))
    (does : frame.actionAt frame.position =
      some (.callStatic (.ofMember ⟨className, staticCheckMethod, checkMethodDescriptor⟩))) :
    Makes program callers heap frame 1 frame.stack
      ((guarded.statics.map (·.spelling className)).map
        (.ofField heap .null .staticInitializerField)) := by
  obtain ⟨callee, count, entered, unhandled, finishes, makes⟩ := makes_added program
    (frame.goto frame.position frame.stack :: callers) heap className supported
    (.ofStatics guarded) has rfl readable true (isStatic_ofStatics guarded) [] (Nat.le_refl 0) rfl
    fun impossible => by cases impossible
  have called := step_callStatic program callers heap frame _ 0 callee does
    (arity_checkMethod _ _) (Nat.zero_le _) entered
  exact makes_of_call callee frame.stack [] count _ called unhandled makes finishes

end

end Machine

end NullGuard
