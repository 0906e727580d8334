import NullGuard.Proofs.Guard.Added

/-!
# How references are spelled

A reference that weaving puts into a class for one of its fields or for a method that it
adds is spelled with the texts that the names in the class are read as. So it has the bytes
that are in the class if those are the bytes of a text (`spells_of_weave`). Half of a
surrogate pair in a name is lost on this way, and the reference is for a field that the class
does not have (`spells_of_weave_halfSurrogate`).
-/

namespace NullGuard

open Stateful Text.ModifiedUtf8

/-- A policy asks to guard a field of a class that has these bytes as its name and
descriptor. -/
def ClassFile.GuardsField (file : ClassFile) (policy : Policy) (name descriptor : List UInt8) :
    Prop :=
  ∃ (place : Nat) (member : Member), file.fields[place]? = some member ∧
    policy.fields[place]? = some true ∧ file.pool.holds name member.name = true ∧
    file.pool.holds descriptor member.descriptor = true ∧
    isObjectField (decode descriptor) = true

/-- How the reference of an instruction is spelled that was put into a class. The name of
the class has the bytes `own`. -/
structure SpelledOut (file woven : ClassFile) (policy : Policy) (own : List UInt8)
    (instruction : Instruction Label) : Prop where
  field : instruction.opcode ∈ Opcode.fieldAccesses → ∃ index name descriptor,
    instruction = .withWord instruction.opcode index ∧ file.GuardsField policy name descriptor ∧
    woven.pool.Spells .fieldRef index
      ⟨encode (decode own), encode (decode name), encode (decode descriptor)⟩ ∧
    (woven.pool.Spells .fieldRef index ⟨own, name, descriptor⟩ ↔
      IsCanonical own ∧ IsCanonical name ∧ IsCanonical descriptor)
  call : instruction.opcode ∈ Opcode.calls → ∃ index,
    instruction = .withWord instruction.opcode index ∧
    ((∃ kind : CheckKind, woven.pool.Spells .methodRef index
        (.ofMember ⟨helperClass, kind.methodName, kind.methodDescriptor⟩)) ∨
      ∃ name, (name = instanceCheckMethod ∨ name = staticCheckMethod) ∧
        woven.pool.Spells .methodRef index
          ⟨encode (decode own), encode name, encode checkMethodDescriptor⟩ ∧
        (woven.pool.Spells .methodRef index ⟨own, encode name, encode checkMethodDescriptor⟩ ↔
          IsCanonical own))

/-- A guarded field of a model is a field of the class. -/
theorem ClassFile.guardsField_of_keys (file : ClassFile) (model : ClassModel)
    (modelled : ClassModel.ofClass file = .ok model) (policy : Policy) (key : FieldKey)
    (guarded : key ∈ (GuardedFields.ofPolicy model policy).keys) :
    ∃ name descriptor, file.GuardsField policy name descriptor ∧ decode name = key.name ∧
      decode descriptor = key.descriptor := by
  obtain ⟨place, field, fieldHere, asked, isObject, rfl⟩ :=
    GuardedFields.exists_place model policy key guarded
  obtain ⟨member, here, ofMember⟩ := Outcome.getElem?_of_forall₂
    (model.models_of_ofClass file modelled).fields.flip place field fieldHere
  obtain ⟨named, described, objects⟩ := FieldModel.of_ofMember file member field ofMember
  obtain ⟨name, holdsName, readsName⟩ := file.pool.holds_of_utf8 _ _ named
  obtain ⟨descriptor, holdsDescriptor, readsDescriptor⟩ := file.pool.holds_of_utf8 _ _ described
  refine ⟨name, descriptor, ⟨place, member, here, asked, holdsName, holdsDescriptor, ?_⟩,
    readsName, readsDescriptor⟩
  rw [readsDescriptor, ← objects]
  exact isObject

/-- What mentions guarded fields, checks and added methods only is spelled out. -/
theorem Mentions.spelledOut {file woven : ClassFile} {model : ClassModel} {policy : Policy}
    {own : List UInt8} {instruction : Instruction Label}
    (modelled : ClassModel.ofClass file = .ok model) (named : decode own = model.name)
    (mentions : Mentions woven.pool model.name (GuardedFields.ofPolicy model policy).keys
      instruction) : SpelledOut file woven policy own instruction := by
  have apart : ∀ opcode ∈ Opcode.fieldAccesses, opcode ∉ Opcode.calls := by
    simp only [Opcode.fieldAccesses, List.forall_mem_cons, List.not_mem_nil, false_imp_iff,
      implies_true, and_true]
    decide
  cases mentions with
  | nothing memberless =>
    exact ⟨fun access => (memberless.1 access).elim, fun call => (memberless.2 call).elim⟩
  | @field opcode index key access guarded spells =>
    refine ⟨fun _ => ?_, fun call => (apart opcode access call).elim⟩
    obtain ⟨name, descriptor, guards, readsName, readsDescriptor⟩ :=
      file.guardsField_of_keys model modelled policy key guarded
    rw [Pool.Spelling.ofMember, ← named, ← readsName, ← readsDescriptor] at spells
    refine ⟨index, name, descriptor, rfl, guards, spells, ?_⟩
    rw [spells.iff (.inl rfl), encode_decode_iff, encode_decode_iff, encode_decode_iff]
  | @check index kind spells =>
    exact ⟨fun access => (apart _ access (by decide : Opcode.invokestatic ∈ Opcode.calls)).elim,
      fun _ => ⟨index, rfl, .inl ⟨kind, spells⟩⟩⟩
  | @added opcode index name call known spells =>
    refine ⟨fun access => (apart opcode access call).elim, fun _ => ?_⟩
    rw [Pool.Spelling.ofMember, ← named] at spells
    refine ⟨index, rfl, .inr ⟨name, known, spells, ?_⟩⟩
    rw [spells.iff (.inr rfl), encode_decode_iff]
    exact ⟨fun same => same.1, fun canonical => ⟨canonical, rfl, rfl⟩⟩

section

variable (bytes : List UInt8) (file woven : ClassFile) (model : ClassModel) (policy : Policy)
variable (statistics : Statistics)

/-- Weaving spells out the references that it puts into the methods of a class and into the
methods that it adds. -/
theorem spells_of_weave (parsed : ClassFile.parse bytes = .ok file)
    (modelled : ClassModel.ofClass file = .ok model)
    (ran : (weave model policy).run file = (.ok (some statistics), woven)) :
    ∃ own, file.pool.NamesClass file.thisClass own ∧
      (∀ (place : Nat) (member : Member), file.methods[place]? = some member →
        (file.pool.findAttribute ClassFile.codeName member.attributes).isSome = true →
        ∃ (newMember : Member) (body newBody : Body) (original stream again : Stream),
          woven.methods[place]? = some newMember ∧ member.HasBody file.pool body original ∧
          newMember.HasBody woven.pool newBody again ∧
          stream.instructions = original.instructions ∧
          again.instructions = stream.flat.map (Instruction.map stream.landing) ∧
          ∀ instruction ∈ stream.inserted, SpelledOut file woven policy own instruction) ∧
      ∃ kept members, woven.methods = kept ++ members ∧ kept.length = file.methods.length ∧
        ∀ member ∈ members, ∃ (body : Body) (stream : Stream),
          member.HasBody woven.pool body stream ∧
          ∀ instruction ∈ stream.instructions, SpelledOut file woven policy own instruction := by
  have small := file.size_of_parse bytes parsed
  have models := model.models_of_ofClass file modelled
  obtain ⟨own, names, named⟩ := Pool.namesClass_of_className models.name
  obtain ⟨results, pool, grown, methods, members, index, aligned, guarded, replaced, -,
    areMembers, -, -, same⟩ := runs_weave file woven model policy statistics small ran
  have recoded := recoded_of_replaceMethods file model policy modelled aligned small pool methods
    results guarded replaced
  have pools : woven.pool = grown := congrArg ClassFile.pool same
  have lists : woven.methods = methods ++ members := congrArg ClassFile.methods same
  refine ⟨own, names, ?_, methods, members, lists, recoded.length_eq.symm, ?_⟩
  · intro place member here coded
    obtain ⟨method, methodHere, ofMember⟩ := Outcome.getElem?_of_forall₂ models.methods place
      member here
    have bound : place < policy.methods.length := by
      rw [aligned.methodVerdicts]
      exact (List.getElem?_eq_some_iff.1 methodHere).1
    have hasCode : method.hasCode = true :=
      (MethodModel.of_ofMember file member method ofMember).2.trans coded
    obtain ⟨newMember, body, newBody, original, stream, again, newHere, weaves⟩ :=
      weaves_of_weave file woven model policy statistics small modelled ran place member method _
        here methodHere (List.getElem?_eq_getElem bound) hasCode
    exact ⟨newMember, body, newBody, original, stream, again, newHere, weaves.before, weaves.after,
      weaves.fills.instructions, weaves.instructions, fun instruction inside =>
        Mentions.spelledOut modelled named (weaves.fills.mentions instruction inside)⟩
  · intro member inside
    obtain ⟨added, present, isMember⟩ := Outcome.exists_of_forall₂ areMembers member inside
    obtain ⟨body, stream, holds, mentions⟩ :=
      isMember.mentions (AddedMethod.keys_of_mem_all _ _ added present)
    rw [← pools] at holds mentions
    exact ⟨body, stream, holds, fun instruction here =>
      Mentions.spelledOut modelled named (mentions instruction here)⟩

/-- The name and the descriptor of the field are spelled out as they stand in the class, as
is the name of the class. -/
theorem spells_of_weave_holder : ∃ (file woven : ClassFile) (own : List UInt8),
    ClassFile.parse holderBytes = .ok file ∧ file.pool.NamesClass file.thisClass own ∧
      ∃ kept members, woven.methods = kept ++ members ∧ kept.length = file.methods.length ∧
        ∀ member ∈ members, ∃ (body : Body) (stream : Stream),
          member.HasBody woven.pool body stream ∧ ∀ instruction ∈ stream.instructions,
            SpelledOut file woven holderPolicy own instruction := by
  obtain ⟨file, woven, model, statistics, -, -, -, parsed, modelled, ran, -⟩ := weave_holder
  obtain ⟨own, names, -, added⟩ :=
    spells_of_weave holderBytes file woven model holderPolicy statistics parsed modelled ran
  exact ⟨file, woven, own, parsed, names, added⟩

/-! ## Half of a surrogate pair -/

/-- Half of a surrogate pair, written on its own. -/
def halfSurrogate : List UInt8 := encodeUnit 0xd800

/-- A class whose only field is named by half of a surrogate pair. -/
def halfNamedBytes : List UInt8 :=
  Written.u32 ClassFile.magic ++ [0, 0, 0, 49, 0, 7] ++
    holderText "A" ++ [7, 0, 1] ++ holderText "java/lang/Object" ++ [7, 0, 3] ++
    [1, 0, 3] ++ halfSurrogate ++ holderText "Ljava/lang/Object;" ++
    [0, 0x21, 0, 2, 0, 4, 0, 0] ++ [0, 1, 0, 0, 0, 5, 0, 6, 0, 0] ++ [0, 0, 0, 0]

/-- The field must not be null. -/
def halfNamedPolicy : Policy := ⟨true, [true], []⟩

/-- The woven class reads a field by a name that its field does not have. -/
def isHalfNamedLost (file woven : ClassFile) : Bool :=
  match file.fields, woven.methods with
  | [field], [added] =>
    file.pool.holds halfSurrogate field.name &&
      !file.pool.holds (encode (decode halfSurrogate)) field.name &&
      (added.instructions? woven.pool).any (fun instructions =>
        instructions.contains (.withWord Opcode.getfield 9)) &&
      woven.pool.get? 9 == some (.fieldRef 2 8) &&
      woven.pool.get? 2 == some (.classEntry 1) && woven.pool.utf8Is 1 "A" &&
      woven.pool.get? 8 == some (.nameAndType 7 6) &&
      woven.pool.holds (encode (decode halfSurrogate)) 7 &&
      woven.pool.utf8Is 6 "Ljava/lang/Object;"
  | _, _ => false

/-- A field that is named by half of a surrogate pair is guarded, and what the method that
is added for it reads is no field of the class. -/
theorem spells_of_weave_halfSurrogate : ∃ (file woven : ClassFile) (model : ClassModel)
    (statistics : Statistics) (field added : Member) (instructions : List (Instruction Label))
    (index : UInt16) (spelling : Pool.Spelling),
    ClassFile.parse halfNamedBytes = .ok file ∧ ClassModel.ofClass file = .ok model ∧
      (weave model halfNamedPolicy).run file = (.ok (some statistics), woven) ∧
      file.fields = [field] ∧ file.pool.holds halfSurrogate field.name = true ∧
      woven.methods = [added] ∧ added.instructions? woven.pool = some instructions ∧
      .withWord Opcode.getfield index ∈ instructions ∧
      woven.pool.Spells .fieldRef index spelling ∧
      file.pool.holds spelling.name field.name = false := by
  obtain ⟨file, woven, model, statistics, parsed, modelled, ran, lost⟩ :=
    exists_of_rewritesTo halfNamedBytes halfNamedPolicy
      (fun file _ woven => isHalfNamedLost file woven) (by decide +kernel)
  rw [isHalfNamedLost] at lost
  split at lost
  next field added fields methods =>
    simp only [Bool.and_eq_true, beq_iff_eq, Bool.not_eq_true', Option.any_eq_true,
      List.contains_iff_mem] at lost
    obtain ⟨⟨⟨⟨⟨⟨⟨⟨named, unnamed⟩, instructions, decoded, reads⟩, here⟩, owner⟩, ownerHeld⟩,
      texts⟩, nameHeld⟩, descriptorHeld⟩ := lost
    exact ⟨file, woven, model, statistics, field, added, instructions, 9,
      ⟨encode "A", encode (decode halfSurrogate), encode "Ljava/lang/Object;"⟩, parsed, modelled,
      ran, fields, named, methods, decoded, reads,
      ⟨2, 8, here, ⟨1, owner, ownerHeld⟩, 7, 6, texts, nameHeld, descriptorHeld⟩, unnamed⟩
  next => cases lost

end

end NullGuard
