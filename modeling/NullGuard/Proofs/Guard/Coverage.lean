import NullGuard.Proofs.Guard.Spelling

/-!
# Coverage of guarded fields

A class gets a method that checks its guarded instance fields and a method that checks its
guarded static fields, each if there are such fields. The method checks every one of them
once, in the order of declaration (`covers_of_weave`). It reads the fields by names that have
been read as texts: two fields that are named by different halves of surrogate pairs are read
by one name, which neither of them has (`covers_of_weave_halves`).
-/

namespace NullGuard

open Stateful Text.ModifiedUtf8

/-! ## What added methods consist of -/

/-- A class has to get a method that checks its static or its instance fields. The static
fields of an interface are checked in place. -/
def ClassFile.NeedsCheck (file : ClassFile) (policy : Policy) (isStatic : Bool) : Prop :=
  file.guardedFields policy isStatic ≠ [] ∧ (isStatic = true → file.isInterface = false)

/-- The constants by which a field is read and handed to its check. They have the bytes of the
texts that the class, the field and its descriptor are named by, and these are the bytes in the
class if those are canonical. -/
structure NamesField (woven : Pool) (own name descriptor : List UInt8) (isStatic : Bool)
    (field text call : UInt16) : Prop where
  spellsField : woven.Spells .fieldRef field
    ⟨encode (decode own), encode (decode name), encode (decode descriptor)⟩
  isField : woven.Spells .fieldRef field ⟨own, name, descriptor⟩ ↔
    IsCanonical own ∧ IsCanonical name ∧ IsCanonical descriptor
  spellsText : woven.SpellsString text (encode (decode name))
  isName : woven.SpellsString text name ↔ IsCanonical name
  isCheck : woven.Spells .methodRef call (.ofMember ⟨helperClass,
    (CheckKind.ofField isStatic).methodName, (CheckKind.ofField isStatic).methodDescriptor⟩)

/-- Some instructions read a field of a class and hand it to its check together with its name.
The name of the class has the bytes `own`. -/
def CoversField (file : ClassFile) (woven : Pool) (own : List UInt8) (isStatic : Bool)
    (member : Member) (group : List (Instruction Label)) : Prop :=
  ∃ name descriptor field text call, file.pool.holds name member.name = true ∧
    file.pool.holds descriptor member.descriptor = true ∧
    NamesField woven own name descriptor isStatic field text call ∧
    group =
      (if isStatic then [.withWord Opcode.getstatic field]
        else [.plain Opcode.aload0, .withWord Opcode.getfield field]) ++
      [if text ≤ 255 then .withByte Opcode.ldc text.toUInt8 else .withWord Opcode.ldcWide text,
        .withWord Opcode.invokestatic call]

/-- A method checks the guarded fields of a class, one after the other, and returns. -/
structure CoversFields (file woven : ClassFile) (policy : Policy) (own : List UInt8)
    (isStatic : Bool) (member : Member) : Prop where
  access : member.access =
    if isStatic then Access.privateFlag ||| Access.staticFlag ||| Access.syntheticFlag
    else Access.privateFlag ||| Access.syntheticFlag
  described : woven.pool.utf8Is member.descriptor "()V" = true
  code : ∃ groups,
    List.Forall₂ (CoversField file woven.pool own isStatic) (file.guardedFields policy isStatic)
      groups ∧
    member.instructions? woven.pool = some (groups.flatten ++ [.plain Opcode.vreturn])

/-- A group that checks the key of a field covers the field. -/
theorem ChecksField.covers {file : ClassFile} {woven : Pool} {own : List UInt8}
    {className : String} (named : decode own = className) {isStatic : Bool} {member : Member}
    {key : FieldKey} (hasKey : member.HasKey file.pool key) {group : List (Instruction Label)}
    (checks : ChecksField woven className (.ofField isStatic) key group) :
    CoversField file woven own isStatic member group := by
  obtain ⟨name, heldName, readsName⟩ := file.pool.holds_of_utf8 _ _ hasKey.1
  obtain ⟨descriptor, heldDescriptor, readsDescriptor⟩ := file.pool.holds_of_utf8 _ _ hasKey.2
  obtain ⟨field, text, _, ofField, ofText, ⟨call, rfl, ofCall⟩, rfl⟩ := checks
  rw [Pool.Spelling.ofMember, ← named, ← readsName, ← readsDescriptor] at ofField
  rw [← readsName] at ofText
  refine ⟨name, descriptor, field, text, call, heldName, heldDescriptor,
    ⟨ofField, ?_, ofText, ?_, ofCall⟩, ?_⟩
  · rw [ofField.iff (.inl rfl), encode_decode_iff, encode_decode_iff, encode_decode_iff]
  · rw [ofText.iff, encode_decode_iff]
  · cases isStatic <;> rfl

namespace AddedMethod

/-- A method that checks the keys covers the fields. -/
theorem covers {file woven : ClassFile} {model : ClassModel} {policy : Policy}
    (models : model.Models file) {own : List UInt8} (named : decode own = model.name)
    {isStatic : Bool} {member : Member}
    (isMember :
      (ofFields (.ofPolicy model policy) isStatic).IsMember woven.pool model.name member) :
    CoversFields file woven policy own isStatic member := by
  obtain ⟨body, stream, group, holds, ⟨groups, checks, rfl⟩, instructions, -⟩ := isMember.checks
  rw [kind_ofFields] at checks
  exact
    { access := isMember.access.trans (access_ofFields ..)
      described := isMember.described
      code := ⟨groups,
        Outcome.forall₂_trans (fun _ _ _ hasKey checks => checks.covers named hasKey)
          (hasKey_ofFields file model models policy isStatic) checks,
        instructions ▸ holds.instructions_eq⟩ }

/-- Those of some methods that have a name are those that are found by the name. -/
theorem rel_filter_name (pool : Pool) (className : String) (methods : List AddedMethod)
    (members : List Member)
    (each : List.Forall₂ (IsMember pool className) methods members) (name : String) :
    List.Forall₂ (IsMember pool className) (methods.filter fun method => method.name == name)
      (members.filter fun member => pool.utf8Is member.name name) := by
  refine List.rel_filter (fun method member made => ?_) each
  dsimp only
  rw [beq_iff_eq]
  constructor
  · rintro rfl
    exact made.named
  · exact pool.eq_of_utf8Is _ _ _ made.named

end AddedMethod

/-! ## Woven classes -/

/-- A class needs a method just if the method has keys to check. -/
theorem ClassFile.needsCheck_iff (file : ClassFile) (model : ClassModel)
    (modelled : ClassModel.ofClass file = .ok model) (policy : Policy) (isStatic : Bool) :
    file.NeedsCheck policy isStatic ↔
      (AddedMethod.ofFields (.ofPolicy model policy) isStatic).keys ≠ [] ∧
        (isStatic = true → model.isInterface = false) := by
  have keys := AddedMethod.hasKey_ofFields file model (model.models_of_ofClass file modelled) policy
    isStatic
  rw [NeedsCheck, (model.mirrors_of_ofClass file modelled).isInterface,
    Outcome.ne_nil_iff_of_forall₂ keys]

/-- A woven class has one method of the name that an added method has, if such a method is
needed, and no other method was added under that name. No method had the name before. -/
theorem methods_of_weave (file woven : ClassFile) (model : ClassModel) (policy : Policy)
    (statistics : Statistics) (small : file.pool.size ≤ Pool.maxSize)
    (modelled : ClassModel.ofClass file = .ok model)
    (ran : Runs (weave model policy) file (some statistics) woven) :
    ∃ kept added, woven.methods = kept ++ added ∧
      kept.map Member.name = file.methods.map Member.name ∧
      ∀ isStatic,
        (file.NeedsCheck policy isStatic →
          file.hasMethod (checkMethodName isStatic) = false ∧
          kept.filter (fun member =>
            woven.pool.utf8Is member.name (checkMethodName isStatic)) = [] ∧
          ∃ member, added.filter (fun member =>
              woven.pool.utf8Is member.name (checkMethodName isStatic)) = [member] ∧
            (AddedMethod.ofFields (.ofPolicy model policy) isStatic).IsMember woven.pool
              model.name member) ∧
        (¬ file.NeedsCheck policy isStatic → added.filter (fun member =>
          woven.pool.utf8Is member.name (checkMethodName isStatic)) = []) := by
  obtain ⟨results, pool, grown, methods, members, index, aligned, guarded, replaced, ended,
    areMembers, unnamed, -, same⟩ := runs_weave file woven model policy statistics small ran
  obtain ⟨begun, -⟩ := Weaving.settled_of_guardMethods file model policy small pool results guarded
  have recoded := recoded_of_replaceMethods file model policy modelled aligned small pool methods
    results guarded replaced
  have pools : woven.pool = grown := congrArg ClassFile.pool same
  have lists : woven.methods = methods ++ members := congrArg ClassFile.methods same
  refine ⟨methods, members, lists,
    Outcome.map_eq_of_forall₂ _ _ (fun _ _ becomes => becomes.name_eq) recoded, fun isStatic => ?_⟩
  rw [file.needsCheck_iff model modelled policy isStatic, pools]
  have made := AddedMethod.rel_filter_name grown model.name _ members areMembers
    (checkMethodName isStatic)
  rw [AddedMethod.filter_all] at made
  constructor
  · intro needed
    have absent := unnamed _ (AddedMethod.ofFields_mem_all _ _ _ needed)
    rw [AddedMethod.name_ofFields, file.hasMethod_recoded model modelled pool begun methods recoded]
      at absent
    rw [if_pos needed] at made
    obtain ⟨member, _, added, none, only⟩ := List.forall₂_cons_left_iff.1 made
    obtain rfl := List.forall₂_nil_left_iff.1 none
    refine ⟨absent, ?_, member, only, added⟩
    rw [← file.hasMethod_recoded model modelled grown (begun.trans _ _ _ ended) methods recoded,
      ClassFile.hasMethod, List.any_eq_false] at absent
    exact List.filter_eq_nil_iff.2 absent
  · intro unneeded
    rw [if_neg unneeded] at made
    exact List.forall₂_nil_left_iff.1 made

/-- A class that needs a method but has one of its name cannot be woven. -/
theorem fails_of_hasMethod (file : ClassFile) (model : ClassModel) (policy : Policy)
    (small : file.pool.size ≤ Pool.maxSize) (modelled : ClassModel.ofClass file = .ok model)
    (isStatic : Bool) (needed : file.NeedsCheck policy isStatic)
    (declared : file.hasMethod (checkMethodName isStatic) = true) :
    ∃ failure left, (weave model policy).run file = (.error failure, left) := by
  match outcome : (weave model policy).run file with
  | (.error failure, left) => exact ⟨failure, left, rfl⟩
  | (.ok none, left) =>
    obtain ⟨-, _, _, -, ⟨-, nothing, -⟩ | ⟨_, impossible, -⟩⟩ :=
      Weaving.steps_of_weave file left model policy none outcome
    · have keyed := ((file.needsCheck_iff model modelled policy isStatic).1 needed).1
      exact (keyed (AddedMethod.keys_ofFields_of_isEmpty _ _ nothing)).elim
    · cases impossible
  | (.ok (some statistics), left) =>
    obtain ⟨_, _, -, -, each⟩ :=
      methods_of_weave file left model policy statistics small modelled outcome
    have absent := ((each isStatic).1 needed).1
    rw [declared] at absent
    cases absent

section

variable (bytes : List UInt8) (file : ClassFile) (model : ClassModel) (policy : Policy)

/-- A woven class has one method for its guarded instance fields and one for its guarded static
fields, if there are such fields, and that method checks each of them once. A class that has a
method of that name already cannot be woven. -/
theorem covers_of_weave (parsed : ClassFile.parse bytes = .ok file)
    (modelled : ClassModel.ofClass file = .ok model) :
    (∀ (statistics : Statistics) (woven : ClassFile),
      (weave model policy).run file = (.ok (some statistics), woven) →
      ∃ (own : List UInt8) (kept added : List Member),
        file.pool.NamesClass file.thisClass own ∧ woven.methods = kept ++ added ∧
        kept.map Member.name = file.methods.map Member.name ∧
        ∀ isStatic,
          (file.NeedsCheck policy isStatic → ∃ member ∈ added,
            woven.methods.filter (fun other =>
              woven.pool.utf8Is other.name (checkMethodName isStatic)) = [member] ∧
            CoversFields file woven policy own isStatic member) ∧
          (¬ file.NeedsCheck policy isStatic → ∀ member ∈ added,
            woven.pool.utf8Is member.name (checkMethodName isStatic) = false)) ∧
    ∀ isStatic, file.NeedsCheck policy isStatic →
      file.hasMethod (checkMethodName isStatic) = true →
      ∃ failure left, (weave model policy).run file = (.error failure, left) := by
  have small := file.size_of_parse bytes parsed
  have models := model.models_of_ofClass file modelled
  obtain ⟨own, names, named⟩ := Pool.namesClass_of_className models.name
  refine ⟨?_, fails_of_hasMethod file model policy small modelled⟩
  intro statistics woven ran
  obtain ⟨kept, added, lists, sameNames, each⟩ :=
    methods_of_weave file woven model policy statistics small modelled ran
  refine ⟨own, kept, added, names, lists, sameNames, fun isStatic => ⟨?_, ?_⟩⟩
  · intro needed
    obtain ⟨-, before, member, only, isMember⟩ := (each isStatic).1 needed
    have inside : member ∈ added := (List.mem_filter.1 (only ▸ List.mem_singleton_self member)).1
    refine ⟨member, inside, ?_, AddedMethod.covers models named isMember⟩
    rw [lists, List.filter_append, before, only]
    rfl
  · intro unneeded member inside
    exact Bool.eq_false_iff.2 (List.filter_eq_nil_iff.1 ((each isStatic).2 unneeded) member inside)

end

/-- A class that declares the method that weaving would have to add for its field. -/
def declaringBytes : List UInt8 :=
  Written.u32 ClassFile.magic ++ [0, 0, 0, 49, 0, 9] ++
    holderText "A" ++ [7, 0, 1] ++ holderText "java/lang/Object" ++ [7, 0, 3] ++
    holderText "f" ++ holderText "Ljava/lang/Object;" ++ holderText instanceCheckMethod ++
    holderText "()V" ++
    [0, 0x21, 0, 2, 0, 4, 0, 0] ++ [0, 1, 0, 0, 0, 5, 0, 6, 0, 0] ++
    [0, 1, 4, 1, 0, 7, 0, 8, 0, 0] ++ [0, 0]

/-- The field must not be null. -/
def declaringPolicy : Policy := ⟨true, [true], [⟨[], false⟩]⟩

/-- Whether the instance fields of a class have to be checked by a method, and whether the
class has a method of its name. -/
def instanceCheck? (bytes : List UInt8) (policy : Policy) : Option (Bool × Bool) :=
  match ClassFile.parse bytes with
  | .error _ => none
  | .ok file =>
    match ClassModel.ofClass file with
    | .error _ => none
    | .ok _ =>
      some (!(file.guardedFields policy false).isEmpty, file.hasMethod instanceCheckMethod)

/-- A class whose instance fields have to be checked by a method. -/
theorem needsCheck_of_instanceCheck? (bytes : List UInt8) (policy : Policy) (declares : Bool)
    (known : instanceCheck? bytes policy = some (true, declares)) :
    ∃ file model, ClassFile.parse bytes = .ok file ∧ ClassModel.ofClass file = .ok model ∧
      file.NeedsCheck policy false ∧ file.hasMethod instanceCheckMethod = declares := by
  rw [instanceCheck?] at known
  split at known
  next => cases known
  next file parsed =>
    split at known
    next => cases known
    next model modelled =>
      obtain ⟨some, declared⟩ := Prod.mk.inj (Option.some.inj known)
      refine ⟨file, model, parsed, modelled, ⟨?_, fun impossible => by cases impossible⟩, declared⟩
      intro none
      rw [none] at some
      cases some

/-- The class with one method gets a method that checks its field, and a class that has such a
method cannot be woven. -/
theorem covers_of_weave_holder :
    (∃ (file woven : ClassFile) (own : List UInt8) (member : Member),
      ClassFile.parse holderBytes = .ok file ∧ file.NeedsCheck holderPolicy false ∧
        woven.methods.filter (fun other =>
          woven.pool.utf8Is other.name (checkMethodName false)) = [member] ∧
        CoversFields file woven holderPolicy own false member) ∧
    ∃ (file left : ClassFile) (model : ClassModel) (failure : Failure),
      ClassFile.parse declaringBytes = .ok file ∧ ClassModel.ofClass file = .ok model ∧
        file.NeedsCheck declaringPolicy false ∧ file.hasMethod (checkMethodName false) = true ∧
        (weave model declaringPolicy).run file = (.error failure, left) := by
  constructor
  · obtain ⟨file, woven, model, statistics, -, -, -, parsed, modelled, ran, -⟩ := weave_holder
    obtain ⟨_, _, parsedToo, -, needed, -⟩ :=
      needsCheck_of_instanceCheck? holderBytes holderPolicy false (by decide +kernel)
    obtain rfl := Except.ok.inj (parsed.symm.trans parsedToo)
    obtain ⟨own, _, _, -, -, -, each⟩ :=
      (covers_of_weave holderBytes file model holderPolicy parsed modelled).1 statistics woven ran
    obtain ⟨member, -, only, covers⟩ := (each false).1 needed
    exact ⟨file, woven, own, member, parsed, needed, only, covers⟩
  · obtain ⟨file, model, parsed, modelled, needed, declared⟩ :=
      needsCheck_of_instanceCheck? declaringBytes declaringPolicy true (by decide +kernel)
    obtain ⟨failure, left, failed⟩ :=
      (covers_of_weave declaringBytes file model declaringPolicy parsed modelled).2 false needed
        declared
    exact ⟨file, left, model, failure, parsed, modelled, needed, declared, failed⟩

/-! ## Halves of surrogate pairs -/

/-- A class with two fields that are named by different halves of surrogate pairs. -/
def halvesBytes : List UInt8 :=
  Written.u32 ClassFile.magic ++ [0, 0, 0, 49, 0, 8] ++
    holderText "A" ++ [7, 0, 1] ++ holderText "java/lang/Object" ++ [7, 0, 3] ++
    [1, 0, 3] ++ encodeUnit 0xd800 ++ holderText "Ljava/lang/Object;" ++
    [1, 0, 3] ++ encodeUnit 0xd801 ++
    [0, 0x21, 0, 2, 0, 4, 0, 0] ++
    [0, 2, 0, 0, 0, 5, 0, 6, 0, 0, 0, 0, 0, 7, 0, 6, 0, 0] ++ [0, 0, 0, 0]

/-- Neither field must be null. -/
def halvesPolicy : Policy := ⟨true, [true, true], []⟩

/-- The method that is added reads a third field twice. -/
def halvesInstructions : List (Instruction Label) :=
  [.plain Opcode.aload0, .withWord Opcode.getfield 10, .withByte Opcode.ldc 11,
    .withWord Opcode.invokestatic 17, .plain Opcode.aload0, .withWord Opcode.getfield 10,
    .withByte Opcode.ldc 11, .withWord Opcode.invokestatic 17, .plain Opcode.vreturn]

/-- The woven class reads both fields by a name that neither of them has. -/
def isHalvesLost (file woven : ClassFile) : Bool :=
  match file.guardedFields halvesPolicy false, woven.methods with
  | [first, second], [added] =>
    file.pool.holds (encodeUnit 0xd800) first.name &&
      file.pool.holds (encodeUnit 0xd801) second.name &&
      woven.pool.utf8Is added.name instanceCheckMethod &&
      added.instructions? woven.pool == some halvesInstructions &&
      woven.pool.get? 10 == some (.fieldRef 2 9) &&
      woven.pool.get? 2 == some (.classEntry 1) && woven.pool.utf8Is 1 "A" &&
      woven.pool.get? 9 == some (.nameAndType 8 6) &&
      woven.pool.holds (encode (decode (encodeUnit 0xd800))) 8 &&
      woven.pool.utf8Is 6 "Ljava/lang/Object;" &&
      !file.pool.holds (encode (decode (encodeUnit 0xd800))) first.name &&
      !file.pool.holds (encode (decode (encodeUnit 0xd800))) second.name
  | _, _ => false

/-- Both fields are guarded, and what the added method reads for either is no field of the
class. -/
theorem covers_of_weave_halves : ∃ (file woven : ClassFile) (model : ClassModel)
    (statistics : Statistics) (first second added : Member) (spelling : Pool.Spelling),
    ClassFile.parse halvesBytes = .ok file ∧ ClassModel.ofClass file = .ok model ∧
      (weave model halvesPolicy).run file = (.ok (some statistics), woven) ∧
      file.guardedFields halvesPolicy false = [first, second] ∧
      file.pool.holds (encodeUnit 0xd800) first.name = true ∧
      file.pool.holds (encodeUnit 0xd801) second.name = true ∧
      woven.methods = [added] ∧ woven.pool.utf8Is added.name instanceCheckMethod = true ∧
      added.instructions? woven.pool = some halvesInstructions ∧
      woven.pool.Spells .fieldRef 10 spelling ∧
      file.pool.holds spelling.name first.name = false ∧
      file.pool.holds spelling.name second.name = false := by
  obtain ⟨file, woven, model, statistics, parsed, modelled, ran, lost⟩ :=
    exists_of_rewritesTo halvesBytes halvesPolicy (fun file _ woven => isHalvesLost file woven)
      (by decide +kernel)
  rw [isHalvesLost] at lost
  split at lost
  next first second added fields methods =>
    simp only [Bool.and_eq_true, beq_iff_eq, Bool.not_eq_true'] at lost
    obtain ⟨⟨⟨⟨⟨⟨⟨⟨⟨⟨⟨firstHeld, secondHeld⟩, named⟩, instructions⟩, here⟩, owner⟩, ownerHeld⟩,
      texts⟩, nameHeld⟩, descriptorHeld⟩, notFirst⟩, notSecond⟩ := lost
    exact ⟨file, woven, model, statistics, first, second, added,
      ⟨encode "A", encode (decode (encodeUnit 0xd800)), encode "Ljava/lang/Object;"⟩, parsed,
      modelled, ran, fields, firstHeld, secondHeld, methods, named, instructions,
      ⟨2, 9, here, ⟨1, owner, ownerHeld⟩, 8, 6, texts, nameHeld, descriptorHeld⟩, notFirst,
      notSecond⟩
  next => cases lost

end NullGuard
