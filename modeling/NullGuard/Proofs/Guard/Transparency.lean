import NullGuard.Proofs.Guard.Added

/-!
# Guards at run time

A guard leaves no trace if all references that it checks are there, and throws for the
first one that is null otherwise (`transparent_of_weave`). That holds for every guard in a
woven class, whatever the heap, the local variables and the operand stack are, as long as
they are such that a verifier lets a method get there. Two slots more than the operand stack
takes are enough.

A guard for fields names the class and its fields by what their names are read as, so it
needs names that are canonical bytes. Otherwise it asks for a field that the class does not
declare, and fails although the field holds a reference
(`fails_of_weave_halfSurrogate`).
-/

namespace NullGuard

open Machine Text.ModifiedUtf8

/-- What guards of a kind need of the names in a class, which are told by the spellings of its
guarded fields: a guard for fields needs canonical bytes. -/
def CheckKind.NamesTexts (kind : CheckKind) (fields : Bool → List Pool.Spelling) : Prop :=
  match kind with
  | .constructorField => ∀ field ∈ fields false, field.IsCanonical
  | .staticInitializerField => ∀ field ∈ fields true, field.IsCanonical
  | _ => True

namespace MethodPlan

/-- The checks that the guard of a kind makes where it stands, in their order. A guard for
arguments checks local variables, one for fields checks what the heap holds in the guarded
fields, which are told by their spellings in the class, and any other guard checks what is on
top of the operand stack. -/
def checks (plan : MethodPlan) (fields : Bool → List Pool.Spelling) (heap : Heap)
    (locals stack : List Value) : CheckKind → List Check
  | .argument => plan.guardedParameters.map fun parameter =>
    ⟨.argument, locals.getD parameter.slot.toNat .null, [.int parameter.index]⟩
  | .constructorField =>
    (fields false).map (.ofField heap (locals.getD 0 .null) .constructorField)
  | .staticInitializerField =>
    (fields true).map (.ofField heap (locals.getD 0 .null) .staticInitializerField)
  | kind => [⟨kind, stack.headD .null, []⟩]

/-- What holds of a method that gets to a guard: references are where the guard looks for
references. The positions of guarded parameters have to be numbers of two bytes. -/
def Ready (plan : MethodPlan) (heap : Heap) (locals stack : List Value) : CheckKind → Prop
  | .argument => ∀ parameter ∈ plan.guardedParameters, parameter.index ≤ 32767 ∧
    ∃ value, locals[parameter.slot.toNat]? = some value ∧ value.isReference = true
  | .constructorField => ∃ address object, locals[0]? = some (.object address) ∧
    heap.objects[address]? = some object
  | .staticInitializerField => True
  | _ => ∃ value rest, stack = value :: rest ∧ value.isReference = true

end MethodPlan

/-! ## Single guards -/

namespace Machine

/-- A program has what the guards for the static or the instance fields of a class need: the
fields, spelled as the guards spell them, and the method that weaving adds for them. -/
structure ServesFields (program : Program) (plan : MethodPlan) (isStatic : Bool)
    (fields : List Pool.Spelling) : Prop where
  spelled : (AddedMethod.ofFields plan.guarded isStatic).keys.map (·.spelling plan.className) =
    fields
  readable : ∀ field ∈ fields, Readable program (.ofField isStatic) field
  added : fields ≠ [] → (isStatic = true → plan.isInterface = false) →
    program.Has plan.className (.ofFields plan.guarded isStatic)

/-- Each guarded field can be read, spelled as the guards spell it. -/
theorem ServesFields.readable_key {program : Program} {plan : MethodPlan} {isStatic : Bool}
    {fields : List Pool.Spelling} (serves : ServesFields program plan isStatic fields) :
    ∀ key ∈ (AddedMethod.ofFields plan.guarded isStatic).keys,
      Readable program (.ofField isStatic) (key.spelling plan.className) := by
  intro key inside
  exact serves.readable _ (serves.spelled ▸ List.mem_map_of_mem inside)

/-- If fields are guarded, the guards spell some. -/
theorem ServesFields.ne_nil {program : Program} {plan : MethodPlan} {isStatic : Bool}
    {fields : List Pool.Spelling} (serves : ServesFields program plan isStatic fields)
    (guarded : (AddedMethod.ofFields plan.guarded isStatic).keys ≠ []) : fields ≠ [] := by
  rw [← serves.spelled]
  exact mt List.map_eq_nil_iff.1 guarded

/-- A program has what the guards of a plan need: the checks, and what the guards for fields
need if the names in the class are canonical bytes. -/
structure Serves (program : Program) (plan : MethodPlan) (fields : Bool → List Pool.Spelling) :
    Prop where
  supported : Supported program
  fields : ∀ isStatic, (∀ field ∈ fields isStatic, field.IsCanonical) →
    ServesFields program plan isStatic (fields isStatic)

section

variable (plan : MethodPlan) (fields : Bool → List Pool.Spelling) (program : Program)
variable (callers : List Frame) (heap : Heap)
variable (frame : Frame) (serves : Serves program plan fields)
variable (room : depth frame.stack + 2 ≤ frame.limit)
variable (group : List (Instruction Label)) (stands : group <+: frame.code.drop frame.position)
include serves room stands

/-- The guard for arguments checks the variables of the parameters in their order. -/
theorem makes_argumentGuard (guard : plan.IsGuard frame.pool group .argument)
    (ready : plan.Ready heap frame.locals frame.stack .argument) :
    Makes program callers heap frame group.length frame.stack
      (plan.checks fields heap frame.locals frame.stack .argument) := by
  obtain ⟨groups, rfl, each⟩ := guard
  refine makes_flatten program callers heap frame _ _ _ groups each ?_ frame.position stands
  intro parameter guarded position group stands checks
  obtain ⟨positive, value, here, reference⟩ := ready parameter guarded
  rw [List.getD_eq_getElem?_getD, here, Option.getD_some]
  exact makes_parameter program callers heap (frame.goto position frame.stack) serves.supported
    room group stands parameter positive checks value here reference

/-- A guard for the top of the operand stack checks it. -/
theorem makes_topGuard (kind : CheckKind) (untold : kind.detail = .none)
    (guard : ChecksTop frame.pool kind group)
    (ready : ∃ value rest, frame.stack = value :: rest ∧ value.isReference = true) :
    Makes program callers heap frame group.length frame.stack
      [⟨kind, frame.stack.headD .null, []⟩] := by
  obtain ⟨value, rest, here, reference⟩ := ready
  have top : frame.stack.headD .null = value := by
    rw [here]
    rfl
  rw [top]
  exact makes_top program callers heap frame serves.supported room group stands kind untold guard
    value rest here reference

/-- The guard of a constructor hands the receiver to the method that checks its fields. -/
theorem makes_constructorGuard (guarded : plan.guarded.instances ≠ [])
    (names : CheckKind.constructorField.NamesTexts fields)
    (guard : plan.IsGuard frame.pool group .constructorField)
    (ready : plan.Ready heap frame.locals frame.stack .constructorField) :
    Makes program callers heap frame group.length frame.stack
      (plan.checks fields heap frame.locals frame.stack .constructorField) := by
  obtain ⟨check, rfl, method⟩ := guard
  obtain ⟨address, object, first, there⟩ := ready
  have served := serves.fields false names
  have performs := frame.performs_of_code _
    [.loadReference 0,
      .callSpecial (.ofMember ⟨plan.className, instanceCheckMethod, checkMethodDescriptor⟩)]
    stands (by
      rw [List.map_cons, List.map_cons, Action.ofInstruction_invokespecial _ _ _ method]
      rfl)
  have loads := makes_loadReference program callers heap frame 0 (.object address)
    (performs 0 _ rfl) first rfl (by rw [depth_cons, Value.width_object]; omega)
  have added := served.added (served.ne_nil guarded) fun impossible => by cases impossible
  have calls := makes_instanceCheck program callers heap
    (frame.next (.object address :: frame.stack)) plan.className serves.supported plan.guarded
    added served.readable_key address object there frame.stack rfl (performs 1 _ rfl)
  have receiver : frame.locals.getD 0 .null = .object address := by
    rw [List.getD_eq_getElem?_getD, first, Option.getD_some]
  rw [MethodPlan.checks, receiver, ← served.spelled]
  exact loads.append calls

/-- The guard of a static initializer checks the fields in place, or has them checked by the
method that was added for them. -/
theorem makes_initializerGuard (guarded : plan.guarded.statics ≠ [])
    (names : CheckKind.staticInitializerField.NamesTexts fields)
    (guard : plan.IsGuard frame.pool group .staticInitializerField) :
    Makes program callers heap frame group.length frame.stack
      (plan.checks fields heap frame.locals frame.stack .staticInitializerField) := by
  have served := serves.fields true names
  rw [MethodPlan.IsGuard] at guard
  rw [MethodPlan.checks, ← served.spelled]
  split at guard
  next inPlace =>
    exact makes_fields program callers heap frame serves.supported room plan.className
      .staticInitializerField rfl (fun impossible => by cases impossible) _ served.readable_key
      group
      stands guard
  next byCall =>
    obtain ⟨check, rfl, method⟩ := guard
    have performs := frame.performs_of_code _
      [.callStatic (.ofMember ⟨plan.className, staticCheckMethod, checkMethodDescriptor⟩)] stands
      (by
        rw [List.map_cons, Action.ofInstruction_invokestatic _ _ _ method]
        rfl)
    have added := served.added (served.ne_nil guarded) fun _ => Bool.eq_false_iff.2 byCall
    exact makes_staticCheck program callers heap frame plan.className serves.supported plan.guarded
      added served.readable_key (performs 0 _ rfl)

/-- A guard makes the checks of its kind. -/
theorem makes_guard (kind : CheckKind) (accessed : Prop)
    (wanted : kind = .argument ∨ plan.Wants accessed kind) (names : kind.NamesTexts fields)
    (guard : plan.IsGuard frame.pool group kind)
    (ready : plan.Ready heap frame.locals frame.stack kind) :
    Makes program callers heap frame group.length frame.stack
      (plan.checks fields heap frame.locals frame.stack kind) := by
  cases kind with
  | argument =>
    exact makes_argumentGuard plan fields program callers heap frame serves room group stands guard
      ready
  | result =>
    exact makes_topGuard plan fields program callers heap frame serves room group stands _ rfl
      guard ready
  | putField =>
    exact makes_topGuard plan fields program callers heap frame serves room group stands _ rfl
      guard ready
  | getField =>
    exact makes_topGuard plan fields program callers heap frame serves room group stands _ rfl
      guard ready
  | constructorField =>
    have guarded := (wanted.resolve_left CheckKind.noConfusion).2
    exact makes_constructorGuard plan fields program callers heap frame serves room group stands
      guarded names guard ready
  | staticInitializerField =>
    have guarded := (wanted.resolve_left CheckKind.noConfusion).2
    exact makes_initializerGuard plan fields program callers heap frame serves room group stands
      guarded names guard

end

end Machine

/-! ## Where guards stand -/

namespace Stream

/-- The block of a label begins at its position. -/
theorem all_prefix_drop (stream : Stream) (label : Nat) (slot : Slot)
    (here : stream.slots[label]? = some slot) :
    slot.all <+: stream.flat.drop (stream.landing label) := by
  obtain ⟨inside, same⟩ := List.getElem?_eq_some_iff.1 here
  rw [drop_landing, List.drop_eq_getElem_cons inside, same, List.flatMap_cons]
  exact List.prefix_append _ _

/-- A group of independent instructions stands in the code as it was put into the stream. -/
theorem prefix_drop_instructions (stream again : Stream)
    (instructions : again.instructions = stream.flat.map (Instruction.map stream.landing))
    (group : List (Instruction Label))
    (independent : ∀ instruction ∈ group, instruction.isIndependent = true) (position : Nat)
    (stands : group <+: stream.flat.drop position) :
    group <+: again.instructions.drop position := by
  have same : group.map (Instruction.map stream.landing) = group :=
    (List.map_congr_left fun instruction member =>
      instruction.map_of_isIndependent _ (independent instruction member)).trans (List.map_id _)
  obtain ⟨back, split⟩ := stands
  rw [instructions, ← List.map_drop, ← split, List.map_append, same]
  exact List.prefix_append _ _

/-- A stream in which a group stands differs from what it was decoded from. -/
theorem isModified_of_entry (stream : Stream) (present : stream.entry ≠ []) :
    stream.isModified = true := by
  simp [isModified, present]

/-- A stream with a group at an instruction differs from what it was decoded from. -/
theorem isModified_of_slot (stream : Stream) (slot : Slot) (inside : slot ∈ stream.slots)
    (present : slot.before ≠ [] ∨ slot.after ≠ []) : stream.isModified = true := by
  have notBare : stream.slots.all Slot.isBare = false := by
    rw [List.all_eq_false]
    refine ⟨slot, inside, ?_⟩
    rw [Slot.isBare, Bool.and_eq_true, List.isEmpty_iff, List.isEmpty_iff]
    exact fun bare => present.elim (· bare.1) (· bare.2)
  simp [isModified, notBare]

end Stream

/-! ## Guards in a woven class -/

/-- The operand stack has room for a guard: it can take two slots more, or it takes no more
than the method could have before it was woven. -/
def HasRoom (body newBody : Body) (limit : Nat) (stack : List Value) : Prop :=
  depth stack + 2 ≤ limit ∨
    body.maxStack.toNat ≤ 65533 ∧ depth stack ≤ body.maxStack.toNat ∧
      limit = newBody.maxStack.toNat

/-- The operand stack that a woven method may use leaves the room. -/
theorem HasRoom.room {body newBody : Body} {limit : Nat} {stack : List Value}
    (hasRoom : HasRoom body newBody limit stack)
    (raised : newBody.maxStack = Body.raisedStack body.maxStack guardStack) :
    depth stack + 2 ≤ limit := by
  obtain room | ⟨small, within, rfl⟩ := hasRoom
  · exact room
  · have added : guardStack.toNat = 2 := rfl
    rw [raised, Body.raisedStack, if_pos (by omega), UInt16.toNat_add, added]
    omega

namespace MethodPlan

/-- A group at a position in a woven method makes the checks of a guard. -/
def Passes (plan : MethodPlan) (fields : Bool → List Pool.Spelling) (program : Program)
    (pool : Pool) (body newBody : Body) (again : Stream) (position : Nat)
    (group : List (Instruction Label)) (kind : CheckKind) : Prop :=
  ∀ callers heap locals stack limit, kind.NamesTexts fields →
    plan.Ready heap locals stack kind → HasRoom body newBody limit stack →
    Makes program callers heap
      { pool, code := again.instructions, handlers := newBody.handlers, limit, position, locals,
        stack }
      group.length stack (plan.checks fields heap locals stack kind)

/-- All groups in a woven method make the checks of guards that belong there. -/
structure IsTransparent (plan : MethodPlan) (fields : Bool → List Pool.Spelling)
    (program : Program) (pool : Pool) (body newBody : Body) (stream again : Stream) : Prop where
  entry : plan.Passes fields program pool body newBody again 0 stream.entry .argument
  before : ∀ label slot, stream.slots[label]? = some slot → slot.before ≠ [] →
    ∃ accessed kind, plan.Demands slot.instruction.opcode accessed kind ∧ kind ≠ .getField ∧
      plan.Passes fields program pool body newBody again (stream.landing label) slot.before kind
  after : ∀ label slot, stream.slots[label]? = some slot → slot.after ≠ [] →
    slot.instruction.opcode ∈ CheckKind.getField.opcodes ∧
      plan.Passes fields program pool body newBody again
        (stream.landing label + (slot.before.length + 1)) slot.after .getField

/-- A guard that stands in the code of a woven method passes. -/
theorem passes_of_guard (plan : MethodPlan) (fields : Bool → List Pool.Spelling)
    (program : Program) (serves : Serves program plan fields)
    (pool : Pool) (body newBody : Body) (stream again : Stream)
    (instructions : again.instructions = stream.flat.map (Instruction.map stream.landing))
    (raised : newBody.maxStack = Body.raisedStack body.maxStack guardStack)
    (group : List (Instruction Label)) (kind : CheckKind) (accessed : Prop)
    (wanted : kind = .argument ∨ plan.Wants accessed kind) (guard : plan.IsGuard pool group kind)
    (position : Nat) (stands : group <+: stream.flat.drop position) :
    plan.Passes fields program pool body newBody again position group kind := by
  intro callers heap locals stack limit names ready hasRoom
  have inCode := stream.prefix_drop_instructions again instructions group
    (fun instruction member => (guard.passable instruction member).1) position stands
  exact makes_guard plan fields program callers heap
    { pool, code := again.instructions, handlers := newBody.handlers, limit, position, locals,
      stack }
    serves (hasRoom.room raised) group inCode kind accessed wanted names guard ready

/-- An empty guard for arguments makes no checks, and it makes all that are to be made. -/
theorem passes_of_nil (plan : MethodPlan) (fields : Bool → List Pool.Spelling)
    (program : Program) (pool : Pool) (body newBody : Body) (again : Stream)
    (guard : plan.IsGuard pool [] .argument) (position : Nat) :
    plan.Passes fields program pool body newBody again position [] .argument := by
  obtain ⟨groups, empty, each⟩ := guard
  have none : plan.guardedParameters = [] := by
    cases parameters : plan.guardedParameters with
    | nil => rfl
    | cons parameter others =>
      rw [parameters] at each
      obtain ⟨group, groups, ⟨-, call, -, rfl⟩, -, rfl⟩ := List.forall₂_cons_left_iff.1 each
      cases empty
  intro callers heap locals stack limit _ _ _
  rw [checks, none]
  exact makes_nothing program callers heap _

/-- A method that was woven by a plan is transparent. -/
theorem Weaves.isTransparent {plan : MethodPlan} {pool wovenPool : Pool}
    {member newMember : Member} {body newBody : Body} {original stream again : Stream}
    (weaves : plan.Weaves pool wovenPool member newMember body newBody original stream again)
    (fields : Bool → List Pool.Spelling) (program : Program)
    (serves : Serves program plan fields) :
    plan.IsTransparent fields program wovenPool body newBody stream again where
  entry := by
    have guard := weaves.fills.entry
    by_cases absent : stream.entry = []
    · rw [absent] at guard ⊢
      exact plan.passes_of_nil fields program wovenPool body newBody again guard 0
    · have raised := weaves.maxStack (stream.isModified_of_entry absent)
      exact plan.passes_of_guard fields program serves wovenPool body newBody stream again
        weaves.instructions raised _ _ False (.inl rfl) guard 0 (List.prefix_append _ _)
  before label slot here present := by
    have inside := List.mem_of_getElem? here
    have raised := weaves.maxStack (stream.isModified_of_slot slot inside (.inl present))
    obtain ⟨accessed, -, guards⟩ := weaves.fills.slots slot inside
    obtain ⟨kind, demanded, ahead, guard⟩ := guards.exists_before present
    refine ⟨accessed, kind, demanded, ahead, ?_⟩
    exact plan.passes_of_guard fields program serves wovenPool body newBody stream again
      weaves.instructions raised _ _ accessed (.inr demanded.2) guard _
      ((List.prefix_append _ _).trans (stream.all_prefix_drop label slot here))
  after label slot here present := by
    have inside := List.mem_of_getElem? here
    have raised := weaves.maxStack (stream.isModified_of_slot slot inside (.inr present))
    obtain ⟨accessed, -, guards⟩ := weaves.fills.slots slot inside
    have demanded := guards.demanded_after present
    refine ⟨demanded.1, ?_⟩
    -- Behind the guard in front there is one more instruction: the one that is guarded.
    have behind : slot.after <+:
        stream.flat.drop (stream.landing label + (slot.before.length + 1)) := by
      obtain ⟨back, split⟩ := stream.all_prefix_drop label slot here
      rw [← List.drop_drop, ← split, Slot.all, List.append_cons, List.append_assoc,
        List.drop_left' (by simp)]
      exact List.prefix_append _ _
    exact plan.passes_of_guard fields program serves wovenPool body newBody stream again
      weaves.instructions raised _ _ accessed (.inr demanded.2) (guards.after demanded) _ behind

end MethodPlan

section

variable (bytes : List UInt8) (file woven helper : ClassFile) (model : ClassModel)
variable (policy : Policy) (statistics : Statistics)

/-- A program of the helper class and a woven class serves the guards of the class. -/
theorem serves_of_weave (small : file.pool.size ≤ Pool.maxSize)
    (modelled : ClassModel.ofClass file = .ok model)
    (ran : Stateful.Runs (weave model policy) file (some statistics) woven)
    (loaded : helperFile = .ok helper) (others : Program) (method : MethodModel)
    (verdicts : MethodVerdicts) :
    Serves (helper :: woven :: others) (model.planOf policy method verdicts)
      (file.guardedSpellings policy) where
  supported := supported_of_helper helper (woven :: others) loaded
  fields isStatic canonical := by
    obtain ⟨instances, statics, bare⟩ := hasMethod_of_helper helper loaded
    have models := model.models_of_ofClass file modelled
    refine ⟨AddedMethod.map_spelling models canonical, fun field inside => ?_,
      fun guarded needed => ?_⟩
    · obtain ⟨member, guarded, rfl⟩ := List.mem_map.1 inside
      obtain ⟨declared, objects, rfl⟩ := ClassFile.of_mem_guardedFields guarded
      obtain ⟨key, -, hasKey⟩ := Outcome.exists_of_forall₂
        (AddedMethod.hasKey_ofFields file model models policy _).flip member guarded
      obtain ⟨grows, thisClass, fields⟩ :=
        fields_of_weave file woven model policy statistics small ran
      exact readable_of_spelling models.name hasKey (canonical _ inside) [helper]
        (List.forall_mem_singleton.2 bare) others grows thisClass fields declared objects
    · have keyed : (AddedMethod.ofFields (.ofPolicy model policy) isStatic).keys ≠ [] := by
        intro none
        have spelled := AddedMethod.map_spelling models canonical
        rw [none] at spelled
        exact guarded spelled.symm
      have present := AddedMethod.ofFields_mem_all _ _ _ ⟨keyed, needed⟩
      have absent : helper.hasMethod
          (AddedMethod.ofFields (.ofPolicy model policy) isStatic).name = false := by
        obtain named | named := AddedMethod.name_of_mem_all _ _ _ present
        · rw [named]
          exact instances
        · rw [named]
          exact statics
      exact has_of_weave file woven model policy statistics small modelled ran
        (ClassFile.namesClass_of_canonical models canonical guarded) helper others _ absent present

/-- Every guard in a woven class is transparent while the references that it checks are
there, and throws for the first one that is null, as far as the fields that it checks and
their class are named by canonical bytes. The program holds the helper class, the woven class
and any other classes; the heap, the callers, the local variables and the operand stack are
arbitrary as far as a method can get to the guard with them. -/
theorem transparent_of_weave (parsed : ClassFile.parse bytes = .ok file)
    (modelled : ClassModel.ofClass file = .ok model)
    (ran : (weave model policy).run file = (.ok (some statistics), woven)) (place : Nat)
    (member : Member) (method : MethodModel) (verdicts : MethodVerdicts)
    (here : file.methods[place]? = some member) (methodHere : model.methods[place]? = some method)
    (verdictsHere : policy.methods[place]? = some verdicts) (coded : method.hasCode = true)
    (loaded : helperFile = .ok helper) (others : Program) :
    ∃ (newMember : Member) (body newBody : Body) (original stream again : Stream),
      woven.methods[place]? = some newMember ∧ member.HasBody file.pool body original ∧
        newMember.HasBody woven.pool newBody again ∧
        stream.instructions = original.instructions ∧
        again.instructions = stream.flat.map (Instruction.map stream.landing) ∧
        (model.planOf policy method verdicts).IsTransparent (file.guardedSpellings policy)
          (helper :: woven :: others) woven.pool body newBody stream again := by
  have small := file.size_of_parse bytes parsed
  obtain ⟨newMember, body, newBody, original, stream, again, newHere, weaves⟩ :=
    weaves_of_weave file woven model policy statistics small modelled ran place member method
      verdicts here methodHere verdictsHere coded
  have serves := serves_of_weave file woven helper model policy statistics small modelled ran
    loaded others method verdicts
  exact ⟨newMember, body, newBody, original, stream, again, newHere, weaves.before, weaves.after,
    weaves.fills.instructions, weaves.instructions, weaves.isTransparent _ _ serves⟩

/-- The method of the class with one method has one parameter, behind the receiver. -/
theorem parameters_holder (parsed : ClassFile.parse holderBytes = .ok file)
    (modelled : ClassModel.ofClass file = .ok model) (method : MethodModel)
    (here : model.methods[0]? = some method) :
    method.parameters = [⟨0, 1, true, Markers.none⟩] := by
  have known : ((ClassFile.parse holderBytes >>= ClassModel.ofClass).toOption.bind fun model =>
      model.methods[0]?.map MethodModel.parameters) = some [⟨0, 1, true, Markers.none⟩] := by
    decide +kernel
  rw [parsed] at known
  have known : (ClassModel.ofClass file).toOption.bind _ = _ := known
  rw [modelled] at known
  have known : model.methods[0]?.map MethodModel.parameters = _ := known
  rw [here] at known
  exact Option.some.inj known

/-- The guard of the class with one method throws if the argument is null. -/
theorem transparent_of_weave_holder : ∃ (file woven helper : ClassFile) (model : ClassModel)
    (statistics : Statistics) (member newMember : Member) (method : MethodModel)
    (body newBody : Body) (original stream again : Stream),
    ClassFile.parse holderBytes = .ok file ∧ ClassModel.ofClass file = .ok model ∧
      (weave model holderPolicy).run file = (.ok (some statistics), woven) ∧
      helperFile = .ok helper ∧
      woven.methods[0]? = some newMember ∧ member.HasBody file.pool body original ∧
      newMember.HasBody woven.pool newBody again ∧
      stream.instructions = original.instructions ∧
      again.instructions = stream.flat.map (Instruction.map stream.landing) ∧
      (model.planOf holderPolicy method ⟨[true], true⟩).IsTransparent
        (file.guardedSpellings holderPolicy) [helper, woven] woven.pool body newBody stream again ∧
      ∀ callers heap, ∃ position left, position < stream.entry.length ∧
        let frame : Machine.Frame :=
          ⟨woven.pool, again.instructions, newBody.handlers, 2, 0, [.text [], .null], []⟩
        Reaches [helper, woven] ⟨frame :: callers, heap, none⟩
          ⟨frame.goto position left :: callers,
            heap.add ⟨encode CheckKind.argument.exceptionClass,
              some ⟨encode "(I)V", [.int 0]⟩, .initial⟩,
            some heap.fresh⟩ := by
  obtain ⟨file, woven, model, statistics, member, -, method, parsed, modelled, ran, here,
    methodHere, -, coded, -, -⟩ := weave_holder
  obtain ⟨helper, loaded⟩ := exists_helperFile
  obtain ⟨newMember, body, newBody, original, stream, again, newHere, before, after, same, flat,
    transparent⟩ := transparent_of_weave holderBytes file woven helper model holderPolicy statistics
      parsed modelled ran 0 member method ⟨[true], true⟩ here methodHere rfl coded loaded []
  refine ⟨file, woven, helper, model, statistics, member, newMember, method, body, newBody,
    original, stream, again, parsed, modelled, ran, loaded, newHere, before, after, same, flat,
    transparent, fun callers heap => ?_⟩
  have guarded : (model.planOf holderPolicy method ⟨[true], true⟩).guardedParameters =
      [⟨0, 1, true, Markers.none⟩] := by
    show ((method.parameters.zip [true]).filter _).map Prod.fst = _
    rw [parameters_holder file model parsed modelled method methodHere]
    rfl
  have makes := transparent.entry callers heap [.text [], .null] [] 2 trivial
    (by
      intro parameter inside
      rw [guarded] at inside
      obtain rfl := List.mem_singleton.1 inside
      exact ⟨by decide, .null, rfl, rfl⟩)
    (.inl (Nat.le_refl 2))
  have made : (model.planOf holderPolicy method ⟨[true], true⟩).checks
      (file.guardedSpellings holderPolicy) heap [.text [], .null] [] .argument =
        [⟨.argument, .null, [.int 0]⟩] := by
    rw [MethodPlan.checks, guarded]
    rfl
  rw [made] at makes
  obtain ⟨position, left, -, ahead, reaches⟩ := makes
  exact ⟨position, left, by simpa using ahead, reaches⟩

end

/-! ## Half of a surrogate pair -/

namespace Machine

/-- Fields all of which hold the empty text. -/
def Fields.filled : Fields where
  value _ := .text []
  typed _ _ := rfl

/-- The state after a number of steps. -/
def runFor (program : Program) : Nat → State → Option State
  | 0, state => some state
  | count + 1, state => (step program state).bind (runFor program count)

/-- A state that is there after so many steps is reached. -/
theorem reaches_of_runFor (program : Program) (count : Nat) (state after : State)
    (ran : runFor program count state = some after) : Reaches program state after := by
  induction count generalizing state with
  | zero =>
    obtain rfl := Option.some.inj ran
    exact Relation.ReflTransGen.refl
  | succ count inductionHypothesis =>
    obtain ⟨next, one, more⟩ := Option.bind_eq_some_iff.1 ran
    exact Reaches.head one (inductionHypothesis next more)

end Machine

/-- A class with a constructor whose only field is named by half of a surrogate pair. -/
def constructedBytes : List UInt8 :=
  Written.u32 ClassFile.magic ++ [0, 0, 0, 49, 0, 12] ++
    holderText "A" ++ [7, 0, 1] ++ holderText "java/lang/Object" ++ [7, 0, 3] ++
    [1, 0, 3] ++ encodeUnit 0xd800 ++ holderText "Ljava/lang/Object;" ++
    holderText SupportClass.constructorName ++ holderText "()V" ++ [12, 0, 7, 0, 8] ++
    [10, 0, 4, 0, 9] ++ holderText ClassFile.codeName ++
    [0, 0x21, 0, 2, 0, 4, 0, 0] ++ [0, 1, 0, 0, 0, 5, 0, 6, 0, 0] ++
    [0, 1, 0, 1, 0, 7, 0, 8, 0, 1] ++
    [0, 11, 0, 0, 0, 17, 0, 1, 0, 1, 0, 0, 0, 5, 0x2a, 0xb7, 0, 10, 0xb1, 0, 0, 0, 0] ++ [0, 0]

/-- The field must not be null. -/
def constructedPolicy : Policy := ⟨true, [true], [⟨[], true⟩]⟩

/-- The guard stands in front of the return of the constructor. -/
def constructedInstructions : List (Instruction Label) :=
  [.plain Opcode.aload0, .withWord Opcode.invokespecial 10, .plain Opcode.aload0,
    .withWord Opcode.invokespecial 14, .plain Opcode.vreturn]

/-- An object of the class whose field holds a text. -/
def constructedHeap : Heap := ⟨[⟨encode "A", none, .filled⟩], .filled⟩

/-- The constructor gets to the guard. -/
def constructedFrame (woven : ClassFile) : Machine.Frame :=
  ⟨woven.pool, constructedInstructions, [], 3, 2, [.object 0], []⟩

/-- The guard of the woven class fails in the method that it calls. -/
def isConstructedLost (woven : ClassFile) : Bool :=
  woven.methods[0]?.bind (·.instructions? woven.pool) == some constructedInstructions &&
    helperFile.toOption.any fun helper =>
      (runFor [helper, woven] 4 ⟨[constructedFrame woven], constructedHeap, none⟩).any
        fun after => after.thrown == some 1 && (after.heap.objects[1]?.any fun error =>
          error.className == encode "java/lang/NoSuchFieldError")

/-- No reference that the guard of the constructor checks is null, and yet it does not get to
its end: an error is thrown, as the field that it reads is none of the class. -/
theorem fails_of_weave_halfSurrogate : ∃ (file woven helper : ClassFile) (model : ClassModel)
    (statistics : Statistics) (newMember : Member) (after : State) (error : Object),
    ClassFile.parse constructedBytes = .ok file ∧ ClassModel.ofClass file = .ok model ∧
      (weave model constructedPolicy).run file = (.ok (some statistics), woven) ∧
      helperFile = .ok helper ∧ woven.methods[0]? = some newMember ∧
      newMember.instructions? woven.pool = some constructedInstructions ∧
      (∀ method verdicts, ∀ check ∈ (model.planOf constructedPolicy method verdicts).checks
        (file.guardedSpellings constructedPolicy) constructedHeap [.object 0] []
        .constructorField, check.fails = false) ∧
      Reaches [helper, woven] ⟨[constructedFrame woven], constructedHeap, none⟩ after ∧
      after.thrown = some 1 ∧ after.heap.objects[1]? = some error ∧
      error.className = encode "java/lang/NoSuchFieldError" := by
  obtain ⟨file, woven, model, statistics, parsed, modelled, ran, lost⟩ :=
    exists_of_rewritesTo constructedBytes constructedPolicy
      (fun _ _ woven => isConstructedLost woven) (by decide +kernel)
  obtain ⟨helper, loaded⟩ := exists_helperFile
  simp only [isConstructedLost, loaded, Except.toOption, Option.any_some, Bool.and_eq_true,
    beq_iff_eq, Option.any_eq_true, Option.bind_eq_some_iff] at lost
  obtain ⟨⟨newMember, here, decoded⟩, after, steps, thrown, error, made, named⟩ := lost
  refine ⟨file, woven, helper, model, statistics, newMember, after, error, parsed, modelled, ran,
    loaded, here, decoded, fun method verdicts check inside => ?_,
    reaches_of_runFor _ 4 _ _ steps, thrown, made, named⟩
  obtain ⟨field, -, rfl⟩ := List.mem_map.1 inside
  rfl

end NullGuard
