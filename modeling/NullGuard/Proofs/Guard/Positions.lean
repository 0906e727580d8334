import NullGuard.Proofs.ClassFile.RoundTrip
import NullGuard.Proofs.Guard.Transparency
import NullGuard.Proofs.Nullness.Layout

/-!
# The position that a check is told

In front of the check of an argument a method loads the argument and pushes the position of the
parameter. The local variable is the one in which the frame of a call holds the argument. The
position is pushed as a number of two bytes with a sign, so it arrives as it is up to 32767;
from there on the check is told a negative number (`tells_position`).
-/

namespace NullGuard

open Machine Stateful Text.ModifiedUtf8

/-! ## Arguments in local variables -/

namespace Machine

/-- The local variables of a frame begin with the receiver, if there is one, and the arguments
of a call, each with the width of its type. -/
def Frame.HoldsArguments (frame : Frame) (isStatic : Bool) (types : List FieldType)
    (arguments : List Value) : Prop :=
  ∃ receiver others, receiver.length = MethodShape.receiver isStatic ∧
    frame.locals = receiver ++ arguments.flatMap Value.cells ++ others ∧
    arguments.map Value.width = types.map FieldType.slotCount

/-- Arguments fill as many local variables as they are wide. -/
theorem length_flatMap_cells (arguments : List Value) :
    (arguments.flatMap Value.cells).length = (arguments.map Value.width).sum := by
  rw [List.length_flatMap]
  exact congrArg List.sum (List.map_congr_left fun value _ => List.length_replicate)

/-- An argument is in the variable behind the receiver and the arguments before it. -/
theorem Frame.HoldsArguments.getElem?_locals {frame : Frame} {isStatic : Bool}
    {types : List FieldType} {arguments : List Value}
    (holds : frame.HoldsArguments isStatic types arguments) (position : Nat) (value : Value)
    (here : arguments[position]? = some value) :
    frame.locals[MethodShape.receiver isStatic + FieldType.frameSize (types.take position)]? =
      some value := by
  obtain ⟨receiver, others, received, locals, widths⟩ := holds
  obtain ⟨inside, same⟩ := List.getElem?_eq_some_iff.1 here
  have before : FieldType.frameSize (types.take position) =
      ((arguments.take position).flatMap Value.cells).length := by
    rw [length_flatMap_cells, FieldType.frameSize, List.map_take, List.map_take, widths]
  have split : arguments.flatMap Value.cells = (arguments.take position).flatMap Value.cells ++
      (value.cells ++ (arguments.drop (position + 1)).flatMap Value.cells) := by
    rw [← List.flatMap_cons, ← same, ← List.drop_eq_getElem_cons inside, ← List.flatMap_append,
      List.take_append_drop]
  have positive : 0 < value.width := by cases value <;> exact Nat.zero_lt_succ _
  have first : value.cells[0]? = some value := by
    rw [Value.cells, List.getElem?_replicate, if_pos positive]
  have some : 0 < value.cells.length := by
    rw [Value.cells, List.length_replicate]
    exact positive
  rw [locals, before, ← received, List.append_assoc,
    List.getElem?_append_right (Nat.le_add_right ..), Nat.add_sub_cancel_left, split,
    List.append_assoc, List.getElem?_append_right (Nat.le_refl _), Nat.sub_self,
    List.append_assoc, List.getElem?_append_left some]
  exact first

/-! ## Pushed numbers -/

/-- The number that arrives when a position is pushed as a number of two bytes. -/
def pushedPosition (position : Nat) : Int :=
  if position < 32768 then position else position - 65536

/-- Every form of pushing a number pushes it as a number of two bytes with a sign. -/
theorem Action.ofInstruction_pushNumber_signed (pool : Pool) (position : Nat)
    (small : position < 65536) :
    ofInstruction pool (.pushNumber (UInt16.ofNat position)) =
      some (.push (.int (pushedPosition position))) := by
  have number : (UInt16.ofNat position).toNat = position := UInt16.toNat_ofNat_of_lt' small
  rw [pushedPosition]
  split
  next positive =>
    rw [ofInstruction_pushNumber pool _ (by rw [number]; exact Nat.le_of_lt_succ positive), number]
  next negative =>
    have large (bound : UInt16) (below : bound.toNat < 32768) :
        ¬ UInt16.ofNat position ≤ bound := by
      rw [UInt16.le_iff_toNat_le, number]
      omega
    have signed : (UInt16.ofNat position).toInt16.toInt = (position : Int) - 65536 := by
      have word : (UInt16.ofNat position).toBitVec.toNat = position := number
      show (UInt16.ofNat position).toBitVec.toInt = _
      rw [BitVec.toInt_eq_toNat_cond, word]
      split <;> omega
    rw [Instruction.pushNumber, if_neg (large 5 (by decide)), if_neg (large 127 (by decide)),
      ofInstruction_withWord]
    show some (push (.int (UInt16.ofNat position).toInt16.toInt)) = _
    rw [signed]

section

variable (program : Program) (callers : List Frame) (heap : Heap) (frame : Frame)

/-- Loading a reference pushes what is in the local variable, if there is room. -/
theorem step_loadReference (slot : Nat) (value : Value)
    (does : frame.actionAt frame.position = some (.loadReference slot))
    (here : frame.locals[slot]? = some value) (reference : value.isReference = true)
    (room : depth (value :: frame.stack) ≤ frame.limit) :
    step program ⟨frame :: callers, heap, none⟩ =
      some ⟨frame.next (value :: frame.stack) :: callers, heap, none⟩ := by
  rw [step_of_action program callers heap frame _ does]
  simp [perform, here, reference, push_eq_some frame value frame.stack room]

/-- Pushing a value takes one step, if there is room. -/
theorem step_push (value : Value) (does : frame.actionAt frame.position = some (.push value))
    (room : depth (value :: frame.stack) ≤ frame.limit) :
    step program ⟨frame :: callers, heap, none⟩ =
      some ⟨frame.next (value :: frame.stack) :: callers, heap, none⟩ := by
  rw [step_of_action program callers heap frame _ does]
  simp [perform, push_eq_some frame value frame.stack room]

end

end Machine

/-! ## Groups -/

/-- A group calls the check of an argument, and what stands in front of the call loads the
argument of a position and pushes the number for this position. -/
structure TellsPosition (pool : Pool) (isStatic : Bool) (types : List FieldType) (position : Nat)
    (group : List (Instruction Label)) : Prop where
  calls : ∃ load push call, group = [load, push, call] ∧ IsCheckCall pool .argument call
  runs : ∀ (program : Program) (callers : List Machine.Frame) (heap : Heap)
    (frame : Machine.Frame) (arguments : List Value) (value : Value), frame.pool = pool →
    group <+: frame.code.drop frame.position → depth frame.stack + 2 ≤ frame.limit →
    frame.HoldsArguments isStatic types arguments → arguments[position]? = some value →
    value.isReference = true →
    step program ⟨frame :: callers, heap, none⟩ =
        some ⟨frame.next (value :: frame.stack) :: callers, heap, none⟩ ∧
      step program ⟨frame.next (value :: frame.stack) :: callers, heap, none⟩ =
        some ⟨frame.goto (frame.position + 2)
          (.int (pushedPosition position) :: value :: frame.stack) :: callers, heap, none⟩

/-- The group for a parameter tells the position that the parameter has in the descriptor,
up to what fits into a signed word. -/
theorem ChecksParameter.tellsPosition {pool : Pool} {parameter : ParameterModel}
    {group : List (Instruction Label)} (checks : ChecksParameter pool parameter group)
    (isStatic : Bool) (types : List FieldType)
    (slot : parameter.slot.toNat =
      MethodShape.receiver isStatic + FieldType.frameSize (types.take parameter.index)) :
    TellsPosition pool isStatic types parameter.index group := by
  obtain ⟨bound, call, isCall, rfl⟩ := checks
  refine ⟨⟨_, _, call, rfl, isCall⟩, ?_⟩
  rintro program callers heap frame arguments value rfl stands room holds here reference
  have single := value.width_of_isReference reference
  have does : ([.loadLocal parameter.slot, .pushNumber (UInt16.ofNat parameter.index), call] :
      List (Instruction Label)).map (Action.ofInstruction frame.pool) =
        ([.loadReference parameter.slot.toNat, .push (.int (pushedPosition parameter.index)),
          .callStatic CheckKind.argument.method] : List Action).map some := by
    rw [List.map_cons, List.map_cons, List.map_cons, isCall.ofInstruction,
      Action.ofInstruction_loadLocal, Action.ofInstruction_pushNumber_signed _ _ bound]
    rfl
  have performs := frame.performs_of_code _ _ stands does
  have there := holds.getElem?_locals parameter.index value here
  rw [← slot] at there
  have loaded : depth (value :: frame.stack) ≤ frame.limit := by
    rw [depth_cons, single]
    omega
  have told : depth (.int (pushedPosition parameter.index) :: value :: frame.stack) ≤
      frame.limit := by
    rw [depth_cons, depth_cons, single, Value.width_int]
    omega
  exact ⟨step_loadReference program callers heap frame _ value (performs 0 _ rfl) there reference
      loaded,
    step_push program callers heap (frame.next (value :: frame.stack)) _ (performs 1 _ rfl) told⟩

/-! ## Parameters of a method -/

/-- How many parameters in front of a position are checked. -/
def guardedBefore (types : List FieldType) (verdicts : List Bool) (position : Nat) : Nat :=
  ((types.zip verdicts).take position).countP fun (type, verdict) => verdict && type.isObject

/-- What passes a filter stands behind everything before it that passes. -/
theorem getElem?_filter_countP {α : Type} (passes : α → Bool) (items : List α) (place : Nat)
    (item : α) (here : items[place]? = some item) (goes : passes item = true) :
    (items.filter passes)[(items.take place).countP passes]? = some item := by
  induction items generalizing place with
  | nil => cases here
  | cons first others inductionHypothesis =>
    cases place with
    | zero =>
      obtain rfl := Option.some.inj here
      rw [List.filter_cons_of_pos goes]
      rfl
    | succ place =>
      have behind := inductionHypothesis place here
      rw [List.take_succ_cons, List.countP_cons, List.filter_cons]
      split
      · exact behind
      · exact behind

/-- Where all groups are of one length each begins at a multiple of it. -/
theorem prefix_drop_flatten {α : Type} (width : Nat) (groups : List (List α))
    (each : ∀ group ∈ groups, group.length = width) (place : Nat) (group : List α)
    (here : groups[place]? = some group) : group <+: groups.flatten.drop (width * place) := by
  induction groups generalizing place with
  | nil => cases here
  | cons first others inductionHypothesis =>
    obtain ⟨width, behind⟩ := List.forall_mem_cons.1 each
    rw [List.flatten_cons]
    cases place with
    | zero =>
      obtain rfl := Option.some.inj here
      exact List.prefix_append _ _
    | succ place =>
      rw [Nat.mul_succ, Nat.add_comm, ← List.drop_drop, ← width, List.drop_left, width]
      exact inductionHypothesis behind place here

namespace MethodPlan

section

variable (plan : MethodPlan) (types : List FieldType)
variable (counted : plan.method.parameters.length = types.length)
variable (objects : ∀ (place : Nat) (parameter : ParameterModel) (type : FieldType),
  plan.method.parameters[place]? = some parameter → types[place]? = some type →
    parameter.isObject = type.isObject)
include counted objects

/-- The parameters in front of a position that are checked, counted in the model. -/
theorem guardedBefore_eq (position : Nat) :
    guardedBefore types plan.verdicts.parameters position =
      ((plan.method.parameters.zip plan.verdicts.parameters).take position).countP
        fun (parameter, verdict) => verdict && parameter.isObject := by
  have same : plan.method.parameters.map ParameterModel.isObject =
      types.map FieldType.isObject := by
    refine List.ext_getElem (by simpa using counted) fun place inside _ => ?_
    rw [List.length_map] at inside
    rw [List.getElem_map, List.getElem_map]
    exact objects place _ _ (List.getElem?_eq_getElem inside)
      (List.getElem?_eq_getElem (counted ▸ inside))
  have flags := congrArg (fun flags => ((flags.zip plan.verdicts.parameters).take position).countP
    fun (isObject, verdict) => verdict && isObject) same
  simp only [List.zip_map_left, ← List.map_take, List.countP_map] at flags
  exact flags.symm

/-- A parameter that is checked has its place among those that are. -/
theorem getElem?_guardedParameters (position : Nat) (parameter : ParameterModel)
    (name : List Char) (here : plan.method.parameters[position]? = some parameter)
    (typed : types[position]? = some (.object name))
    (forbidden : plan.verdicts.parameters[position]? = some true) :
    plan.guardedParameters[guardedBefore types plan.verdicts.parameters position]? =
      some parameter := by
  have together : (plan.method.parameters.zip plan.verdicts.parameters)[position]? =
      some (parameter, true) :=
    List.getElem?_zip_eq_some.2 ⟨here, forbidden⟩
  rw [guardedParameters, List.getElem?_map, plan.guardedBefore_eq types counted objects,
    getElem?_filter_countP _ _ position _ together (objects position parameter _ here typed)]
  rfl

/-- As many parameters are guarded as have a type and a verdict that ask for it. -/
theorem length_guardedParameters : plan.guardedParameters.length =
    guardedBefore types plan.verdicts.parameters types.length := by
  have all : (plan.method.parameters.zip plan.verdicts.parameters).length ≤ types.length := by
    rw [List.length_zip, counted]
    exact Nat.min_le_left ..
  rw [guardedParameters, List.length_map, plan.guardedBefore_eq types counted objects,
    List.take_of_length_le all, List.countP_eq_length_filter]

end

end MethodPlan

/-- In a method that was woven by a plan the group of each guarded parameter stands behind the
groups of the guarded parameters before it. -/
theorem MethodPlan.Weaves.tellsPosition {plan : MethodPlan} {file woven : ClassFile}
    {member newMember : Member} {body newBody : Body} {original stream again : Stream}
    (weaves : plan.Weaves file.pool woven.pool member newMember body newBody original stream again)
    (types : List FieldType) (counted : plan.method.parameters.length = types.length)
    (mirrors : ∀ (place : Nat) (parameter : ParameterModel),
      plan.method.parameters[place]? = some parameter →
        parameter.Mirrors file.pool member types place)
    (position : Nat) (name : List Char) (typed : types[position]? = some (.object name))
    (forbidden : plan.verdicts.parameters[position]? = some true) :
    ∃ group, 3 * guardedBefore types plan.verdicts.parameters position + 3 ≤ stream.entry.length ∧
      group <+: again.instructions.drop
        (3 * guardedBefore types plan.verdicts.parameters position) ∧
      TellsPosition woven.pool member.isStatic types position group := by
  obtain ⟨groups, entry, each⟩ := weaves.fills.entry
  obtain ⟨parameter, here⟩ : ∃ parameter, plan.method.parameters[position]? = some parameter :=
    ⟨_, List.getElem?_eq_getElem (counted ▸ (List.getElem?_eq_some_iff.1 typed).1)⟩
  have guarded := plan.getElem?_guardedParameters types counted
    (fun place parameter type here typed => by
      obtain ⟨known, knownHere, same⟩ := (mirrors place parameter here).isObject
      rw [same, Option.some.inj (knownHere.symm.trans typed)])
    position parameter name here typed forbidden
  obtain ⟨group, groupHere, checks⟩ := Outcome.getElem?_of_forall₂ each _ parameter guarded
  have lengths : ∀ group ∈ groups, group.length = 3 := by
    intro group inside
    obtain ⟨parameter, -, -, call, -, rfl⟩ := Outcome.exists_of_forall₂ each group inside
    rfl
  have stands := prefix_drop_flatten 3 groups lengths _ group groupHere
  rw [← entry] at stands
  have within := stands.length_le
  rw [lengths group (List.mem_of_getElem? groupHere), List.length_drop] at within
  refine ⟨group, by omega, ?_, ?_⟩
  · refine stream.prefix_drop_instructions again weaves.instructions group
      (fun instruction member => (checks.passable instruction member).1) _ ?_
    rw [Stream.flat, List.drop_append_of_le_length (by omega)]
    exact stands.trans (List.prefix_append _ _)
  · have slot := (mirrors position parameter here).slot
    have index := (mirrors position parameter here).index
    rw [← FieldType.frameSize_eq, ← index] at slot
    have tells := checks.tellsPosition member.isStatic types slot
    rw [index] at tells
    exact tells

/-! ## Positions in a woven class -/

/-- The code of a woven method begins with one group for each parameter that is checked, in
their order. The instructions in front of the call of the check load the argument of that
parameter, whatever the frame, and push its position as a number of two bytes with a sign. -/
theorem tells_position (bytes : List UInt8) (file woven : ClassFile) (model : ClassModel)
    (policy : Policy) (statistics : Statistics) (parsed : ClassFile.parse bytes = .ok file)
    (modelled : ClassModel.ofClass file = .ok model)
    (ran : (weave model policy).run file = (.ok (some statistics), woven)) (place : Nat)
    (member : Member) (method : MethodModel) (verdicts : MethodVerdicts)
    (here : file.methods[place]? = some member) (methodHere : model.methods[place]? = some method)
    (verdictsHere : policy.methods[place]? = some verdicts) (coded : method.hasCode = true) :
    ∃ (newMember : Member) (body newBody : Body) (original stream again : Stream)
      (types : List FieldType) (result : FieldType),
      woven.methods[place]? = some newMember ∧ member.HasBody file.pool body original ∧
        newMember.HasBody woven.pool newBody again ∧
        stream.instructions = original.instructions ∧
        again.instructions = stream.flat.map (Instruction.map stream.landing) ∧
        Descriptor.read method.descriptor.toList = .ok (types, result) ∧
        ∀ position name, types[position]? = some (.object name) →
          verdicts.parameters[position]? = some true → ∃ group,
            3 * guardedBefore types verdicts.parameters position + 3 ≤ stream.entry.length ∧
            group <+: again.instructions.drop
              (3 * guardedBefore types verdicts.parameters position) ∧
            TellsPosition woven.pool member.isStatic types position group := by
  obtain ⟨newMember, body, newBody, original, stream, again, newHere, weaves⟩ :=
    weaves_of_weave file woven model policy statistics (file.size_of_parse bytes parsed) modelled
      ran place member method verdicts here methodHere verdictsHere coded
  obtain ⟨_, sameMethod, mirrors⟩ := Outcome.getElem?_of_forall₂
    (ClassModel.mirrors_of_ofClass file model modelled).methods place member here
  obtain rfl := Option.some.inj (methodHere.symm.trans sameMethod)
  obtain ⟨types, result, read, -, counted, parameters⟩ := mirrors.signature
  exact ⟨newMember, body, newBody, original, stream, again, types, result, newHere, weaves.before,
    weaves.after, weaves.fills.instructions, weaves.instructions, read,
    weaves.tellsPosition types counted parameters⟩

/-- The one parameter of the class with one method has position 0. -/
theorem tells_position_holder : ∃ (file woven : ClassFile) (model : ClassModel)
    (statistics : Statistics) (newMember : Member) (newBody : Body) (again : Stream)
    (group : List (Instruction Label)),
    ClassFile.parse holderBytes = .ok file ∧ ClassModel.ofClass file = .ok model ∧
      (weave model holderPolicy).run file = (.ok (some statistics), woven) ∧
      woven.methods[0]? = some newMember ∧ newMember.HasBody woven.pool newBody again ∧
      group <+: again.instructions ∧
      TellsPosition woven.pool false [.object "java/lang/Object".toList] 0 group := by
  obtain ⟨file, woven, model, statistics, member, -, method, parsed, modelled, ran, here,
    methodHere, -, coded, -, -⟩ := weave_holder
  have instanceMethod : (ClassFile.parse holderBytes).toOption.bind (fun file =>
      file.methods[0]?.map Member.isStatic) = some false := by
    decide +kernel
  rw [parsed] at instanceMethod
  have instanceMethod : file.methods[0]?.map Member.isStatic = some false := instanceMethod
  rw [here] at instanceMethod
  have described : (ClassFile.parse holderBytes >>= ClassModel.ofClass).toOption.bind (fun model =>
      model.methods[0]?.map fun method => Descriptor.read method.descriptor.toList) =
        some (.ok ([.object "java/lang/Object".toList], .object "java/lang/Object".toList)) := by
    decide +kernel
  rw [parsed] at described
  have described : (ClassModel.ofClass file).toOption.bind _ = _ := described
  rw [modelled] at described
  have described : model.methods[0]?.map _ = _ := described
  rw [methodHere] at described
  obtain ⟨newMember, -, newBody, -, stream, again, types, result, newHere, -, after, -, -, read,
      tells⟩ :=
    tells_position holderBytes file woven model holderPolicy statistics parsed modelled ran 0
      member method ⟨[true], true⟩ here methodHere rfl coded
  obtain ⟨rfl, -⟩ := Prod.mk.inj (Except.ok.inj (read.symm.trans (Option.some.inj described)))
  obtain ⟨group, -, stands, told⟩ := tells 0 _ rfl rfl
  rw [Option.some.inj instanceMethod] at told
  exact ⟨file, woven, model, statistics, newMember, newBody, again, group, parsed, modelled, ran,
    newHere, after, stands, told⟩

/-! ## Room for constants -/

namespace Pool

/-- A step that adds constants hands out an index if the pool has room for some more. -/
def Accommodates (step : Growth UInt16) (count : Nat) : Prop :=
  ∀ pool : Pool, pool.size + count ≤ maxSize →
    ∃ index grown, Runs step pool index grown ∧ grown.size ≤ pool.size + count

/-- A constant needs room for one. -/
theorem accommodates_intern (constant : Constant) : Accommodates (intern constant) 1 := by
  intro pool room
  have interned : (intern constant).run pool = pool.interned constant := rfl
  rw [Pool.interned] at interned
  split at interned
  next index _ => exact ⟨_, pool, interned, by omega⟩
  next =>
    rw [if_pos (by omega)] at interned
    exact ⟨_, _, interned, by simp [size, push]⟩

/-- Steps in a row need room for what each of them adds. -/
theorem Accommodates.bind {first : Growth UInt16} {next : UInt16 → Growth UInt16}
    {count more : Nat} (begun : Accommodates first count)
    (ended : ∀ index, Accommodates (next index) more) :
    Accommodates (first >>= next) (count + more) := by
  intro pool room
  obtain ⟨index, middle, ran, grown⟩ := begun pool (by omega)
  obtain ⟨found, last, ranOn, grownOn⟩ := ended index middle (by omega)
  exact ⟨found, last, (runs_bind ..).2 ⟨index, middle, ran, ranOn⟩, by omega⟩

/-- A text needs room for one constant. -/
theorem accommodates_addUtf8 (text : String) (short : (encode text).length < 65536) :
    Accommodates (addUtf8 text) 1 := by
  rw [addUtf8, if_pos short]
  exact accommodates_intern _

/-- A method reference needs room for six constants at most. -/
theorem accommodates_addMethodRef (owner name descriptor : String)
    (ownerShort : (encode owner).length < 65536) (nameShort : (encode name).length < 65536)
    (descriptorShort : (encode descriptor).length < 65536) :
    Accommodates (addMethodRef owner name descriptor) 6 := by
  have classes : Accommodates (addClass owner) 2 :=
    (accommodates_addUtf8 owner ownerShort).bind fun _ => accommodates_intern _
  have texts : Accommodates (addNameAndType name descriptor) 3 :=
    (accommodates_addUtf8 name nameShort).bind fun _ =>
      (accommodates_addUtf8 descriptor descriptorShort).bind fun _ => accommodates_intern _
  exact classes.bind fun _ => texts.bind fun _ => accommodates_intern _

end Pool

/-- There is a call of a check if the pool has room for it. -/
theorem exists_runs_checkCall (kind : CheckKind) (pool : Pool)
    (room : pool.size + 6 ≤ Pool.maxSize) :
    ∃ index grown, Runs (checkCall kind) pool (.withWord Opcode.invokestatic index) grown ∧
      grown.size ≤ pool.size + 6 := by
  have short (kind : CheckKind) : (encode kind.methodName).length < 65536 ∧
      (encode kind.methodDescriptor).length < 65536 := by
    cases kind <;> decide +kernel
  obtain ⟨index, grown, added, bounded⟩ := Pool.accommodates_addMethodRef helperClass
    kind.methodName kind.methodDescriptor (by decide +kernel) (short kind).1 (short kind).2 pool
    room
  exact ⟨index, grown, (runs_bind_pure ..).2 ⟨index, added, rfl⟩, bounded⟩

/-! ## A method with too many parameters to be told apart

The class has one method, which is static and only returns. What it does not depend on is its
descriptor, so that stays open until the end.
-/

/-- The code of a method that only returns. -/
def returningCode : Attribute := ⟨7, [0, 0, 0x80, 1, 0, 0, 0, 1, 0xb1, 0, 0, 0, 0]⟩

/-- The method, with its name and its descriptor. -/
def returningMember : Member := ⟨9, 5, 6, [returningCode]⟩

/-- A class with the method and nothing else. -/
def returningClass (descriptor : String) : ClassFile where
  minor := 0
  major := 49
  pool := .ofSlots #[none, some (.utf8 (encode "A")), some (.classEntry 1),
    some (.utf8 (encode "java/lang/Object")), some (.classEntry 3), some (.utf8 (encode "m")),
    some (.utf8 (encode descriptor)), some (.utf8 (encode "Code"))]
  access := 0x21
  thisClass := 2
  superClass := 4
  interfaces := []
  fields := []
  methods := [returningMember]
  attributes := []

/-- The method as it is modelled. -/
def returningMethod (descriptor : String) (shape : MethodShape) : MethodModel :=
  ⟨"m", descriptor, true, MethodModel.unmarked shape, shape.returnKind, .none⟩

/-- The class as it is modelled. -/
def returningModel (descriptor : String) (shape : MethodShape) : ClassModel :=
  ⟨"A", false, .none, [], [returningMethod descriptor shape]⟩

/-- The stream of the method with a group in front of it. -/
def returningStream (entry : List (Instruction Label)) : Stream where
  entry
  slots := [.bare (.plain Opcode.vreturn)]
  landmarks := Stream.landmarksOf [1]
  composed := false

/-- The class has bytes that are read as it, if the descriptor is not too long. -/
theorem exists_parse_returning (descriptor : String) (short : (encode descriptor).length < 65536) :
    ∃ bytes, ClassFile.parse bytes = .ok (returningClass descriptor) := by
  have brief : ∀ text ∈ ["A", "java/lang/Object", "m", "Code"], (encode text).length < 65536 := by
    decide +kernel
  simp only [List.forall_mem_cons] at brief
  obtain ⟨own, parent, method, code, -⟩ := brief
  have filled : Pool.Filled ((returningClass descriptor).pool.slots.toList.drop 1) :=
    .narrow rfl own (.narrow rfl trivial (.narrow rfl parent (.narrow rfl trivial
      (.narrow rfl method (.narrow rfl short (.narrow rfl code .nil))))))
  obtain ⟨bytes, wrote⟩ : ∃ bytes, (returningClass descriptor).written = .ok bytes := ⟨_, rfl⟩
  exact ⟨bytes, (ClassFile.parse_eq_ok ..).2
    ⟨⟨⟨⟨_, rfl, filled⟩, by show 8 ≤ 65535; decide⟩, "A", rfl⟩, wrote⟩⟩

/-- The method is modelled with the shape of its descriptor. -/
theorem ofMember_returning (descriptor : String) (shape : MethodShape)
    (shaped : MethodShape.ofDescriptor descriptor true = .ok shape) :
    MethodModel.ofMember (returningClass descriptor) returningMember =
      .ok (returningMethod descriptor shape) := by
  have named : (returningClass descriptor).memberName returningMember = .ok "m" :=
    Pool.utf8_of_utf8Is _ _ _ rfl
  have described : (returningClass descriptor).memberDescriptor returningMember =
      .ok descriptor :=
    Pool.utf8_of_utf8Is _ _ _ (beq_self_eq_true (encode descriptor))
  have isStatic : returningMember.isStatic = true := by decide
  have unmarked : Markers.ofAttributes (returningClass descriptor).pool
      returningMember.attributes = .ok .none := rfl
  have noTables : Markers.named (returningClass descriptor).pool Markers.parameterAttributes
      returningMember.attributes = [] := rfl
  have coded : (returningClass descriptor).pool.findAttribute ClassFile.codeName
      returningMember.attributes = some returningCode := rfl
  simp only [MethodModel.ofMember, named, described, isStatic, shaped, unmarked, noTables, coded,
    bind, Except.bind, List.foldlM_nil]
  rfl

/-- The class is modelled with that one method. -/
theorem ofClass_returning (descriptor : String) (shape : MethodShape)
    (shaped : MethodShape.ofDescriptor descriptor true = .ok shape) :
    ClassModel.ofClass (returningClass descriptor) = .ok (returningModel descriptor shape) := by
  have unmarked : Markers.ofAttributes (returningClass descriptor).pool
      (returningClass descriptor).attributes = .ok .none := rfl
  have noInterface : (returningClass descriptor).isInterface = false := by
    show Access.has 0x21 Access.interfaceFlag = false
    decide
  refine (Outcome.bind_eq_ok ..).2 ⟨"A", rfl, ?_⟩
  refine (Outcome.bind_eq_ok ..).2 ⟨.none, (Outcome.during_eq_ok ..).2 unmarked, ?_⟩
  refine (Outcome.bind_eq_ok ..).2 ⟨[], rfl, ?_⟩
  refine (Outcome.bind_eq_ok ..).2 ⟨[returningMethod descriptor shape],
    (Outcome.mapM_eq_ok ..).2 (.cons (ofMember_returning descriptor shape shaped) .nil), ?_⟩
  rw [noInterface]
  rfl

/-- Going through a list with one item is doing the step for the item. -/
theorem runs_mapM_singleton {σ α β : Type} (step : α → ExceptT Failure (StateM σ) β) (item : α)
    (before after : σ) (results : List β) :
    Runs ([item].mapM step) before results after ↔
      ∃ result, Runs (step item) before result after ∧ results = [result] := by
  rw [List.mapM_cons, List.mapM_nil]
  exact runs_bind_pure (fun result => [result]) ..

section

variable (plan : MethodPlan) (parameter : ParameterModel)
variable (only : plan.guardedParameters = [parameter])
variable (plain : plan.method.isConstructor = false ∧ plan.method.isStaticInitializer = false)
variable (pool : Pool) (room : pool.size + 6 ≤ Pool.maxSize)
include only plain room

/-- The only parameter that is guarded gets the only guard. -/
theorem exists_runs_guardStream_returning (bounded : parameter.index < 65536) :
    ∃ index kinds grown, Runs (plan.guardStream (returningStream [])) pool
      (returningStream [.loadLocal parameter.slot, .pushNumber (UInt16.ofNat parameter.index),
        .withWord Opcode.invokestatic index], kinds) grown ∧ grown.size ≤ pool.size + 6 := by
  obtain ⟨index, grown, called, small⟩ := exists_runs_checkCall .argument pool room
  have checked : Runs (MethodPlan.parameterCheck parameter) pool
      [.loadLocal parameter.slot, .pushNumber (UInt16.ofNat parameter.index),
        .withWord Opcode.invokestatic index] grown := by
    rw [MethodPlan.parameterCheck, if_neg (by omega)]
    exact (runs_bind_pure ..).2 ⟨_, called, rfl⟩
  have nothing : RunsWith (plan.insertionAt (.plain Opcode.vreturn)) (∅, grown) .nothing
      (∅, grown) := by
    rw [MethodPlan.insertionAt]
    simp only [plain.1, plain.2, Bool.false_and]
    rfl
  have walked : RunsWith ([Instruction.plain Opcode.vreturn].mapM plan.insertionAt) (∅, grown)
      [.nothing] (∅, grown) := by
    rw [List.mapM_cons, List.mapM_nil]
    exact (runsWith_bind ..).2 ⟨_, _, nothing, rfl⟩
  refine ⟨index, [.argument], grown, ?_, small⟩
  rw [MethodPlan.guardStream, only]
  refine (runs_bind ..).2 ⟨_, grown, (runs_mapM_singleton ..).2 ⟨_, checked, rfl⟩, ?_⟩
  exact (runs_bind ..).2 ⟨[.nothing], grown, (runs_map ..).2 ⟨([.nothing], ∅), walked, rfl⟩, rfl⟩

/-- The method gets a guard for the parameter at position 32768, if six more constants fit
into the pool. -/
theorem exists_runs_guardCode_returning (index : parameter.index = 32768)
    (slot : parameter.slot = 32768)
    (found : pool.findAttribute ClassFile.codeName returningMember.attributes =
      some returningCode) :
    ∃ result grown, Runs (plan.guardCode returningMember) pool (some result) grown ∧
      grown.size ≤ pool.size + 6 := by
  obtain ⟨call, kinds, grown, guarded, small⟩ :=
    exists_runs_guardStream_returning plan parameter only plain pool room (by omega)
  rw [index, slot] at guarded
  -- However the call is numbered, the group has the same length and the code can be written.
  obtain ⟨body, contents, rearranged, wrote⟩ : ∃ body contents,
      Body.rearranged ⟨0, 0x8001, [0xb1], [], []⟩ (returningStream [.loadLocal 32768,
        .pushNumber (UInt16.ofNat 32768), .withWord Opcode.invokestatic call]) grown guardStack =
        .ok body ∧ body.written = .ok contents :=
    ⟨_, _, rfl, rfl⟩
  refine ⟨(contents, .ofKinds kinds), grown, (runs_get_bind ..).2 ?_, small⟩
  rw [found]
  refine (runs_settle_bind ..).2 ⟨⟨0, 0x8001, [0xb1], [], []⟩, rfl, ?_⟩
  refine (runs_settle_bind ..).2 ⟨returningStream [], rfl, ?_⟩
  refine (runs_bind ..).2 ⟨_, grown, guarded, (runs_get_bind ..).2 ?_⟩
  exact (runs_settle_bind ..).2 ⟨body, rearranged,
    (runs_settle_bind ..).2 ⟨contents, wrote, rfl⟩⟩

end

/-- The class is woven if one parameter of its method is guarded, the one behind 32768 others. -/
theorem exists_runs_weave_returning (descriptor : String) (shape : MethodShape)
    (verdicts : MethodVerdicts) (parameter : ParameterModel)
    (aligned : (returningMethod descriptor shape).parameters.length = verdicts.parameters.length)
    (only : ((returningModel descriptor shape).planOf ⟨true, [], [verdicts]⟩
      (returningMethod descriptor shape) verdicts).guardedParameters = [parameter])
    (index : parameter.index = 32768) (slot : parameter.slot = 32768) :
    ∃ statistics woven, Runs (weave (returningModel descriptor shape) ⟨true, [], [verdicts]⟩)
      (returningClass descriptor) (some statistics) woven := by
  have size : (returningClass descriptor).pool.size = 8 := rfl
  have most : Pool.maxSize = 65535 := rfl
  obtain ⟨⟨contents, counts⟩, pool, guarded, small⟩ := exists_runs_guardCode_returning _ parameter
    only ⟨rfl, rfl⟩ (returningClass descriptor).pool (by omega) index slot rfl
  have grows := (MethodPlan.rewrites_of_guardCode _ _ _ _ _ (by omega) guarded).1
  have found : pool.utf8Is returningCode.name ClassFile.codeName = true := grows.utf8Is _ _ rfl
  let newMember : Member :=
    { returningMember with attributes := [{ returningCode with contents }] }
  have recoded : Weaving.replaceCode pool 0 returningMember (some (contents, counts)) =
      .ok newMember := by
    simp [Weaving.replaceCode, Weaving.replaceContents, returningMember, newMember, found]
  have replaced : Weaving.replaceMethods { returningClass descriptor with pool }
      [some (contents, counts)] =
        .ok { returningClass descriptor with pool, methods := [newMember] } :=
    (Outcome.bind_eq_ok ..).2 ⟨_, (Outcome.mapM_eq_ok ..).2 (.cons recoded .nil), rfl⟩
  obtain ⟨place, grown, named, -⟩ :=
    Pool.accommodates_addUtf8 wovenAttribute (by decide +kernel) pool (by omega)
  refine ⟨{ Statistics.sum [counts] with rewrittenMethods := 1, synthesizedMethods := 0 },
    { returningClass descriptor with
      pool := grown, methods := [newMember], attributes := [⟨place, []⟩] }, ?_⟩
  refine (runs_get_bind ..).2 ((runs_settle_bind ..).2 ⟨(), ?_, ?_⟩)
  · exact (Weaving.checkAlignment_eq_ok ..).2
      ⟨rfl, rfl, rfl, rfl, List.forall_mem_singleton.2 aligned⟩
  refine (runs_bind ..).2 ⟨[some (contents, counts)], _, (ClassFile.runs_growing ..).2
    ⟨pool, (runs_mapM_singleton ..).2 ⟨_, (runs_during ..).2 guarded, rfl⟩, rfl⟩, ?_⟩
  refine (runs_get_bind ..).2 ((runs_settle_bind ..).2 ⟨_, replaced, ?_⟩)
  refine (runs_bind ..).2 ⟨(), _, (runs_set ..).2 rfl, ?_⟩
  refine (runs_bind ..).2 ⟨(), _, ?_, rfl⟩
  exact (runs_bind ..).2 ⟨place, _, (ClassFile.runs_growing ..).2 ⟨grown, named, rfl⟩, rfl⟩

/-! The descriptor. -/

/-- A class as the last of many parameters. -/
def manyTypes (count : Nat) : List FieldType := List.replicate count .int ++ [.object ['a']]

/-- Plain letters are written in a byte each. -/
theorem length_encode_plain (letters : List Char)
    (plain : ∀ letter ∈ letters, 0 < letter.toNat ∧ letter.toNat < 0x80) :
    (encode (.ofList letters)).length = letters.length := by
  rw [encode, String.toList_ofList]
  induction letters with
  | nil => rfl
  | cons letter others inductionHypothesis =>
    obtain ⟨⟨positive, small⟩, behind⟩ := List.forall_mem_cons.1 plain
    have unit : (UInt16.ofNat letter.toNat).toNat = letter.toNat :=
      UInt16.toNat_ofNat_of_lt' (Nat.lt_trans small (by decide))
    have one : (encodeUnit (UInt16.ofNat letter.toNat)).length = 1 := by
      simp [encodeUnit, unit, positive, small]
    rw [List.flatMap_cons, List.flatMap_append, List.length_append, inductionHypothesis behind,
      Text.unitsOfChar, if_pos (Nat.lt_trans small (by decide)), List.flatMap_singleton, one,
      List.length_cons, Nat.add_comm]

section

variable (count : Nat)

/-- The descriptor has a byte for each number and six more. -/
theorem length_encode_manyTypes :
    (encode (.ofList (Descriptor.written (manyTypes count) .void))).length = count + 6 := by
  have same : Descriptor.written (manyTypes count) .void =
      ['('] ++ List.replicate count 'I' ++ ['L', 'a', ';', ')', 'V'] := by
    simp [Descriptor.written, manyTypes, FieldType.written, List.flatMap_replicate]
  rw [length_encode_plain]
  · rw [same, List.length_append, List.length_append, List.length_replicate]
    show 1 + count + 5 = _
    omega
  · intro letter member
    rw [same, List.mem_append, List.mem_append] at member
    rcases member with (opening | parameter) | closing
    · obtain rfl := List.mem_singleton.1 opening
      decide
    · obtain rfl := List.eq_of_mem_replicate parameter
      decide
    · simp only [List.mem_cons, List.not_mem_nil, or_false] at closing
      rcases closing with rfl | rfl | rfl | rfl | rfl <;> decide

/-- All parameters have types that parameters can have. -/
theorem isField_of_mem_manyTypes : ∀ type ∈ manyTypes count, type.IsField := by
  intro type member
  obtain member | member := List.mem_append.1 member
  · rw [List.eq_of_mem_replicate member]
    trivial
  · rw [List.mem_singleton.1 member]
    simp [FieldType.IsField, FieldType.IsElement]

/-- Each parameter takes one slot. -/
theorem frameSize_manyTypes : FieldType.frameSize (manyTypes count) = count + 1 := by
  simp [FieldType.frameSize, manyTypes, FieldType.slotCount]

/-- Only the class is guarded. -/
theorem guardedBefore_manyTypes :
    guardedBefore (manyTypes count) (List.replicate (count + 1) true) count = 0 ∧
      guardedBefore (manyTypes count) (List.replicate (count + 1) true) (count + 1) = 1 := by
  have paired : (manyTypes count).zip (List.replicate (count + 1) true) =
      List.replicate count (.int, true) ++ [(.object ['a'], true)] := by
    rw [manyTypes, List.replicate_succ', List.zip_append (by simp), List.zip_replicate',
      List.zip_cons_cons, List.zip_nil_left]
  have front : (List.replicate count (FieldType.int, true)).length = count :=
    List.length_replicate
  rw [guardedBefore, guardedBefore, paired]
  constructor
  · rw [List.take_left' front, List.countP_replicate]
    rfl
  · rw [List.take_of_length_le (by simp), List.countP_append, List.countP_replicate]
    rfl

/-- The last parameter is the only one that is guarded. -/
theorem exists_only_manyTypes (plan : MethodPlan)
    (verdicts : plan.verdicts.parameters = List.replicate (count + 1) true)
    (counted : plan.method.parameters.length = (manyTypes count).length)
    (objects : ∀ (place : Nat) (parameter : ParameterModel) (type : FieldType),
      plan.method.parameters[place]? = some parameter →
        (manyTypes count)[place]? = some type → parameter.isObject = type.isObject) :
    ∃ parameter, plan.method.parameters[count]? = some parameter ∧
      plan.guardedParameters = [parameter] := by
  obtain ⟨none, one⟩ := guardedBefore_manyTypes count
  have length : (manyTypes count).length = count + 1 := by simp [manyTypes]
  obtain ⟨parameter, here⟩ : ∃ parameter, plan.method.parameters[count]? = some parameter :=
    ⟨_, List.getElem?_eq_getElem (by rw [counted, length]; exact Nat.lt_succ_self count)⟩
  have single := plan.length_guardedParameters (manyTypes count) counted objects
  have first := plan.getElem?_guardedParameters (manyTypes count) counted objects count parameter
    ['a'] here (by simp [manyTypes]) (by simp [verdicts])
  rw [verdicts, length, one] at single
  rw [verdicts, none] at first
  obtain ⟨other, same⟩ := List.length_eq_one_iff.1 single
  rw [same] at first ⊢
  exact ⟨parameter, here, congrArg (fun parameter => [parameter]) (Option.some.inj first)⟩

end

/-- A method of 32769 parameters, the last of which is a class, is woven although the position
of that parameter is out of reach: the check is told a negative number. -/
theorem tells_negative_position : ∃ (bytes : List UInt8) (file woven : ClassFile)
    (model : ClassModel) (statistics : Statistics) (member newMember : Member)
    (method : MethodModel) (verdicts : MethodVerdicts) (newBody : Body) (again : Stream)
    (types : List FieldType) (group : List (Instruction Label)),
    ClassFile.parse bytes = .ok file ∧ ClassModel.ofClass file = .ok model ∧
      (weave model ⟨true, [], [verdicts]⟩).run file = (.ok (some statistics), woven) ∧
      file.methods = [member] ∧ model.methods = [method] ∧ woven.methods[0]? = some newMember ∧
      newMember.HasBody woven.pool newBody again ∧
      Descriptor.read method.descriptor.toList = .ok (types, .void) ∧
      types[32768]? = some (.object ['a']) ∧ verdicts.parameters[32768]? = some true ∧
      group <+: again.instructions ∧
      TellsPosition woven.pool true types 32768 group ∧
      pushedPosition 32768 = -32768 := by
  -- As a variable the number of parameters before the last is not counted out.
  obtain ⟨count, crowded⟩ : ∃ count : Nat, count = 32768 := ⟨_, rfl⟩
  let descriptor := String.ofList (Descriptor.written (manyTypes count) .void)
  let verdicts : MethodVerdicts := ⟨List.replicate (count + 1) true, true⟩
  have fields := isField_of_mem_manyTypes count
  have last : (manyTypes count)[count]? = some (.object ['a']) := by simp [manyTypes]
  have forbidden : verdicts.parameters[count]? = some true := by simp [verdicts]
  have read : Descriptor.read descriptor.toList = .ok (manyTypes count, .void) := by
    rw [String.toList_ofList]
    exact Descriptor.read_written (manyTypes count) .void fields (.inl rfl)
  obtain ⟨shape, shaped⟩ : ∃ shape, MethodShape.ofDescriptor descriptor true = .ok shape := by
    refine (MethodShape.exists_ofDescriptor_iff (manyTypes count) .void true fields (.inl rfl)).2 ?_
    rw [frameSize_manyTypes, crowded]
    decide
  let method := returningMethod descriptor shape
  let plan := (returningModel descriptor shape).planOf ⟨true, [], [verdicts]⟩ method verdicts
  have modelled := ofClass_returning descriptor shape shaped
  have mirrors := MethodModel.mirrors_of_ofMember _ _ _ (ofMember_returning descriptor shape shaped)
  obtain ⟨types, result, readAgain, -, counted, parameters⟩ := mirrors.signature
  obtain ⟨rfl, rfl⟩ := Prod.mk.inj (Except.ok.inj (read.symm.trans readAgain))
  obtain ⟨parameter, here, only⟩ := exists_only_manyTypes count plan rfl counted
    (fun place parameter type here typed => by
      obtain ⟨known, knownHere, same⟩ := (parameters place parameter here).isObject
      rw [same, Option.some.inj (knownHere.symm.trans typed)])
  have index : parameter.index = 32768 := (parameters count parameter here).index.trans crowded
  have slot : parameter.slot = 32768 := by
    have place := (parameters count parameter here).slot
    have front : (manyTypes count).take count = List.replicate count .int := by simp [manyTypes]
    have isStatic : returningMember.isStatic = true := by decide
    have size : FieldType.frameSize (List.replicate count .int) = count := by
      simp [FieldType.frameSize, FieldType.slotCount]
    rw [← FieldType.frameSize_eq, front, isStatic, if_pos rfl, Nat.zero_add, size, crowded] at place
    exact UInt16.toNat_inj.1 place
  have aligned : method.parameters.length = verdicts.parameters.length := by
    rw [counted]
    simp [manyTypes, verdicts]
  obtain ⟨bytes, parsed⟩ := exists_parse_returning descriptor (by
    rw [length_encode_manyTypes, crowded]
    decide)
  obtain ⟨statistics, woven, ran⟩ := exists_runs_weave_returning descriptor shape verdicts
    parameter aligned only index slot
  obtain ⟨newMember, body, newBody, original, stream, again, newHere, weaves⟩ :=
    weaves_of_weave (returningClass descriptor) woven (returningModel descriptor shape)
      ⟨true, [], [verdicts]⟩ statistics (ClassFile.size_of_parse bytes _ parsed) modelled ran 0
      returningMember method verdicts rfl rfl rfl rfl
  obtain ⟨group, -, stands, told⟩ := weaves.tellsPosition (manyTypes count) counted parameters count
    ['a'] last forbidden
  have none : guardedBefore (manyTypes count) verdicts.parameters count = 0 :=
    (guardedBefore_manyTypes count).1
  have stands : group <+: again.instructions.drop
    (3 * guardedBefore (manyTypes count) verdicts.parameters count) := stands
  rw [none] at stands
  have last : (manyTypes count)[32768]? = some (.object ['a']) := by
    rw [← crowded]
    exact last
  have forbidden : verdicts.parameters[32768]? = some true := by
    rw [← crowded]
    exact forbidden
  have told : TellsPosition woven.pool true (manyTypes count) 32768 group := by
    rw [← crowded]
    exact told
  exact ⟨bytes, returningClass descriptor, woven, returningModel descriptor shape, statistics,
    returningMember, newMember, method, verdicts, newBody, again, manyTypes count, group, parsed,
    modelled, ran, rfl, rfl, newHere, weaves.after, read, last, forbidden, stands, told, rfl⟩

end NullGuard
