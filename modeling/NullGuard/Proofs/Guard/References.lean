import NullGuard.Proofs.Code.References
import NullGuard.Proofs.Guard.Weave

/-!
# References in a woven class

Jumps to an instruction must pass the guard in front of it, so offsets move to where
that guard begins. Frames and type annotations that name the instruction itself
move in the same way. They are right all the same wherever no guard stands in
front, and guards stand in front of returns and of writes to fields only. So in a
woven class a value is still said to be created by its `new` instruction
(`references_of_weave`).
-/

namespace NullGuard

open Stateful

/-! ## Guards in front of instructions -/

/-- The opcodes of instructions that are guarded in front. -/
def Opcode.guardedInFront : List UInt8 := [areturn, vreturn, putfield, putstatic]

/-- Nothing is put in front of an instruction that makes an object. -/
theorem Opcode.new_not_mem_guardedInFront : Opcode.new ∉ guardedInFront := by decide

/-- Every check but that of a field read is made in front of its instruction. -/
theorem CheckKind.opcodes_subset (kind : CheckKind) (ahead : kind ≠ .getField) :
    kind.opcodes ⊆ Opcode.guardedInFront := by
  cases kind with
  | getField => exact absurd rfl ahead
  | _ => decide

/-- The references in the attributes of a body go on to name their instructions, unless these
are guarded in front. -/
def Body.KeepsReferences (pool : Pool) (original stream again : Stream) (body newBody : Body) :
    Prop :=
  List.Forall₂
    (Attribute.KeepsReferences
      (original.KeepsReference stream again (· ∉ Opcode.guardedInFront)) pool)
    body.attributes newBody.attributes

/-- A value is said to be created by the `new` instruction that has created it. -/
theorem Body.KeepsReferences.tracks_new {pool : Pool} {original stream again : Stream}
    {body newBody : Body} (keeps : body.KeepsReferences pool original stream again newBody)
    (table : Attribute) (inside : table ∈ body.attributes)
    (named : pool.utf8Is table.name "StackMapTable" = true) (map : StackMap)
    (parsed : StackMap.parse table.contents = .ok map) (frame : Frame)
    (member : frame ∈ map.frames) (offset : Nat)
    (created : .uninitialized offset ∈ frame.change.types) (instruction : Instruction Label)
    (here : original.HasInstruction offset instruction)
    (creates : instruction.opcode = Opcode.new) :
    ∃ newTable ∈ newBody.attributes, newTable.name = table.name ∧
      ∃ moved, StackMap.parse newTable.contents = .ok moved ∧
        ∃ newFrame ∈ moved.frames, ∃ target, .uninitialized target ∈ newFrame.change.types ∧
          original.Tracks stream again instruction offset target := by
  obtain ⟨newTable, newInside, kept⟩ := Outcome.exists_of_forall₂ keeps.flip table inside
  obtain ⟨found, moved, foundParsed, movedParsed, frames⟩ := kept.stackMap named
  obtain rfl := Except.ok.inj (parsed.symm.trans foundParsed)
  obtain ⟨newFrame, newMember, types⟩ := Outcome.exists_of_forall₂ frames.flip frame member
  obtain ⟨type, present, follows⟩ := Outcome.exists_of_forall₂ (List.Forall₂.flip types) _ created
  obtain ⟨target, rfl, reference⟩ := follows offset rfl
  refine ⟨newTable, newInside, kept.name, moved, movedParsed, newFrame, newMember, target, present,
    reference instruction here ?_⟩
  rw [creates]
  exact Opcode.new_not_mem_guardedInFront

namespace MethodPlan

/-- Nothing is put in front of other instructions. -/
theorem Guards.before_eq_nil {plan : MethodPlan} {pool : Pool} {accessed : Prop} {slot : Slot}
    (guards : plan.Guards pool accessed slot)
    (other : slot.instruction.opcode ∉ Opcode.guardedInFront) : slot.before = [] := by
  refine guards.nothingBefore fun kind demanded => ?_
  by_contra ahead
  exact other (kind.opcodes_subset ahead demanded.1)

/-- In front of other instructions than those that are guarded there nothing stands. -/
theorem Fills.before_eq_nil {plan : MethodPlan} {pool : Pool} {original stream : Stream}
    (fills : plan.Fills pool original stream) :
    ∀ slot ∈ stream.slots, slot.instruction.opcode ∉ Opcode.guardedInFront → slot.before = [] := by
  intro slot inside other
  obtain ⟨accessed, -, guards⟩ := fills.slots slot inside
  exact guards.before_eq_nil other

/-- Weaving the code of a method keeps the references to its instructions. -/
theorem keepsReferences_of_guardCode (plan : MethodPlan) (member : Member)
    (contents : List UInt8) (counts : Statistics) (pool grown : Pool)
    (small : pool.size ≤ Pool.maxSize)
    (ran : Runs (plan.guardCode member) pool (some (contents, counts)) grown) :
    pool.GrowsTo grown ∧ ∃ body newBody original stream, member.HasBody grown body original ∧
      Body.parse contents = .ok newBody ∧ Stream.decode newBody.code = .ok stream.flattened ∧
      stream.Extends original ∧
      body.KeepsReferences grown original stream stream.flattened newBody := by
  obtain ⟨code, body, original, stream, kinds, found, parsed, decoded, guarded,
    ⟨-, impossible⟩ | ⟨-, newBody, _, rearranged, wrote, same⟩⟩ :=
      plan.runs_guardCode member _ pool grown ran
  · cases impossible
  cases same
  obtain ⟨lengths, isDecoded, -⟩ := Stream.isDecoded_of_decode body.code original decoded
  obtain ⟨grows, fills⟩ :=
    plan.fills_of_guardStream original stream lengths isDecoded kinds pool grown small guarded
  obtain ⟨parsedAgain, moves, -⟩ := moves_of_rearranged isDecoded fills.isExtension body newBody
    grown contents rearranged wrote
  obtain ⟨encoded, ranEncode, -, -, -, -, attributes⟩ :=
    Body.moved_of_rearranged body newBody stream grown guardStack rearranged
  have encodes := (Stream.encode_eq_ok ..).1 ranEncode
  have holds : member.HasBody grown body original :=
    ⟨code, grows.findAttribute _ _ _ found, parsed, decoded⟩
  refine ⟨grows, body, newBody, original, stream, holds, parsedAgain, moves.decoded,
    fills.isExtension, attributes.imp fun old new moved => ?_⟩
  exact moved.keepsReferences
    (Stream.keepsReference_of_relocation isDecoded fills.isExtension encodes _ fills.before_eq_nil)

end MethodPlan

/-! ## Tables in growing pools -/

/-- The names of attributes were known before constants were added. -/
theorem Attribute.KeepsReferences.of_grown {Keeps : Nat → Nat → Prop} {pool grown : Pool}
    {old new : Attribute} (keeps : old.KeepsReferences Keeps grown new)
    (grows : pool.GrowsTo grown) : old.KeepsReferences Keeps pool new where
  name := keeps.name
  stackMap named := keeps.stackMap (grows.utf8Is _ _ named)
  typeAnnotations named := keeps.typeAnnotations (named.imp (grows.utf8Is _ _) (grows.utf8Is _ _))

namespace Weaving

/-- Every method is guarded by a run of its own. It begins with the constants of the class and
those that the methods before it needed. -/
theorem runs_of_guardMethods (file : ClassFile) (model : ClassModel) (policy : Policy)
    (small : file.pool.size ≤ Pool.maxSize) (grown : Pool)
    (results : List (Option (List UInt8 × Statistics)))
    (ran : Runs (guardMethods file.methods model policy (GuardedFields.ofPolicy model policy))
      file.pool results grown) :
    List.Forall₂ (fun item result => ∃ before after, file.pool.GrowsTo before ∧
        Runs (guardMethod model policy item) before result after ∧ after.GrowsTo grown)
      (file.methods.zip (model.methods.zip policy.methods)) results := by
  rw [guardMethods_eq] at ran
  refine ((runsAll_of_runs _ _ _ _ _ ran).forall₂ Pool.GrowsTo
    (fun pool item result => ∃ before after, file.pool.GrowsTo before ∧
      Runs (guardMethod model policy item) before result after ∧ after.GrowsTo pool)
    Pool.GrowsTo.refl Pool.GrowsTo.trans ?_ ?_).2
  · rintro pool later item result grows ⟨before, after, begun, guarded, ended⟩
    exact ⟨before, after, begun, guarded, ended.trans _ _ _ grows⟩
  · intro item _ pool result next begun guarded
    obtain ⟨grows, -⟩ := settled_of_guardMethod model policy item pool next (begun.bounded small)
      result guarded
    exact ⟨grows, pool, next, begun, guarded, .refl next⟩

/-- New code is made by the plan of a method, which has code. -/
theorem runs_guardCode_of_guardMethod (model : ClassModel) (policy : Policy)
    (item : Member × MethodModel × MethodVerdicts) (pool grown : Pool)
    (rewriting : List UInt8 × Statistics)
    (ran : Runs (guardMethod model policy item) pool (some rewriting) grown) :
    item.2.1.hasCode = true ∧
      Runs ((model.planOf policy item.2.1 item.2.2).guardCode item.1) pool (some rewriting)
        grown := by
  rw [guardMethod] at ran
  split at ran
  next coded =>
    rw [runs_during] at ran
    exact ⟨coded, ran⟩
  next =>
    cases ((runs_pure ..).1 ran).1

/-- A method that has been rewritten has got the code that a run of some plan has made for it. -/
theorem rewriting_of_weave (file woven : ClassFile) (model : ClassModel) (policy : Policy)
    (statistics : Statistics) (small : file.pool.size ≤ Pool.maxSize)
    (modelled : ClassModel.ofClass file = .ok model)
    (ran : Runs (weave model policy) file (some statistics) woven) (place : Nat)
    (member newMember : Member) (here : file.methods[place]? = some member)
    (newHere : woven.methods[place]? = some newMember) (rewritten : newMember ≠ member) :
    ∃ (plan : MethodPlan) (before after pool : Pool) (contents : List UInt8) (counts : Statistics),
      (file.pool.findAttribute ClassFile.codeName member.attributes).isSome = true ∧
        file.pool.GrowsTo before ∧
        Runs (plan.guardCode member) before (some (contents, counts)) after ∧
        after.GrowsTo pool ∧
        replaceCode pool place member (some (contents, counts)) = .ok newMember ∧
        pool.GrowsTo woven.pool := by
  obtain ⟨results, pool, grown, methods, members, index, aligned, guarded, replaced, ended, -, -, -,
    rfl⟩ := runs_weave file woven model policy statistics small ran
  have runs := runs_of_guardMethods file model policy small pool results guarded
  obtain ⟨methodCount, resultCount, places⟩ :=
    places_of_replaceMethods file model policy aligned pool methods results runs.length_eq replaced
  have inside := (List.getElem?_eq_some_iff.1 here).1
  have methodHere : methods[place]? = some newMember := by
    rw [← newHere]
    exact (List.getElem?_append_left (by omega)).symm
  have resultHere := List.getElem?_eq_getElem (l := results) (show place < results.length by omega)
  obtain ⟨method, verdicts, together, replacedCode⟩ :=
    places place member newMember _ here methodHere resultHere
  obtain ⟨result, found, before, after, begun, guardedHere, grows⟩ :=
    Outcome.getElem?_of_forall₂ runs place _ together
  obtain rfl := Option.some.inj (resultHere.symm.trans found)
  cases made : results[place] with
  | none =>
    -- Without new code the member would have stayed as it was.
    rw [made] at replacedCode
    exact absurd (Except.ok.inj replacedCode).symm rewritten
  | some rewriting =>
    rw [made] at replacedCode guardedHere
    obtain ⟨coded, guardedCode⟩ :=
      runs_guardCode_of_guardMethod model policy _ before after rewriting guardedHere
    exact ⟨model.planOf policy method verdicts, before, after, pool, rewriting.1, rewriting.2,
      findAttribute_of_mem_zip file model policy modelled _ (List.mem_of_getElem? together) coded,
      begun, guardedCode, grows, replacedCode, ended⟩

end Weaving

/-! ## A woven class -/

/-- References to an instruction are to the same instruction after weaving. In each method
that has been rewritten every frame lists types as before; where one said that a value had been
created by the instruction at an offset, it now tells the offset at which that instruction
starts, not the offset of a guard. The same holds of each type annotation that names an instruction.
Instructions that are guarded in front are excepted. -/
theorem references_of_weave (bytes : List UInt8) (file woven : ClassFile) (model : ClassModel)
    (policy : Policy) (statistics : Statistics) (parsed : ClassFile.parse bytes = .ok file)
    (modelled : ClassModel.ofClass file = .ok model)
    (ran : (weave model policy).run file = (.ok (some statistics), woven)) (place : Nat)
    (member newMember : Member) (here : file.methods[place]? = some member)
    (newHere : woven.methods[place]? = some newMember) (rewritten : newMember ≠ member) :
    ∃ (body newBody : Body) (original stream again : Stream),
      member.HasBody file.pool body original ∧ newMember.HasBody woven.pool newBody again ∧
        stream.Extends original ∧
        again.instructions = stream.flat.map (Instruction.map stream.landing) ∧
        body.KeepsReferences file.pool original stream again newBody := by
  have small := file.size_of_parse bytes parsed
  obtain ⟨plan, before, after, pool, contents, counts, attributed, begun, guarded, grows, replaced,
    ended⟩ := Weaving.rewriting_of_weave file woven model policy statistics small modelled ran place
      member newMember here newHere rewritten
  obtain ⟨grew, body, newBody, original, stream, holds, parsedAgain, decodedAgain, extended,
    keeps⟩ := plan.keepsReferences_of_guardCode member contents counts before after
      (begun.bounded small) guarded
  have known := begun.trans _ _ _ grew
  have newHolds := Weaving.hasBody_of_replaceCode pool place member newMember contents counts
    (holds.grow grows) replaced newBody stream.flattened parsedAgain decodedAgain
  exact ⟨body, newBody, original, stream, stream.flattened, holds.of_grown known attributed,
    newHolds.grow ended, extended, stream.instructions_flattened,
    keeps.imp fun old new keeps => keeps.of_grown known⟩

/-! ## A method that creates an object -/

/-- A class with one method, which creates an object, drops it and returns its parameter. -/
def creationBytes : List UInt8 :=
  Written.u32 ClassFile.magic ++ [0, 0, 0, 50, 0, 11] ++
    holderText "A" ++ [7, 0, 1] ++ holderText "java/lang/Object" ++ [7, 0, 3] ++
    holderText "m" ++ holderText "(Ljava/lang/Object;)Ljava/lang/Object;" ++ holderText "Code" ++
    holderText "StackMapTable" ++ holderText "RuntimeVisibleTypeAnnotations" ++ holderText "LA;" ++
    [0, 0x21, 0, 2, 0, 4, 0, 0] ++ [0, 0] ++
    [0, 1, 0, 1, 0, 5, 0, 6, 0, 1, 0, 7, 0, 0, 0, 50, 0, 2, 0, 2, 0, 0, 0, 10,
      0xbb, 0, 4, 0x2b, 0xc7, 0, 3, 0x57, 0x2b, 0xb0, 0, 0, 0, 2,
      0, 8, 0, 0, 0, 6, 0, 1, 71, 8, 0, 0,
      0, 9, 0, 0, 0, 10, 0, 1, 0x44, 0, 0, 0, 0, 10, 0, 0] ++
    [0, 0]

/-- The parameter and the result must not be null. -/
def creationPolicy : Policy := ⟨true, [], [⟨[true], true⟩]⟩

/-- A frame with the new object on the stack, and an annotation on its class. -/
def creationTables : List Attribute :=
  [⟨8, [0, 1, 71, 8, 0, 0]⟩, ⟨9, [0, 1, 0x44, 0, 0, 0, 0, 10, 0, 0]⟩]

/-- The frame says that the instruction at the start has created an object. -/
theorem parse_creationTables : StackMap.parse [0, 1, 71, 8, 0, 0] =
    .ok ⟨[⟨7, .oneItem (.uninitialized 0)⟩]⟩ := by
  decide +kernel

/-- The attributes of the body that a member has. -/
def Member.tables? (pool : Pool) (member : Member) : Option (List Attribute) := do
  let code ← pool.findAttribute ClassFile.codeName member.attributes
  return (← (Body.parse code.contents).toOption).attributes

/-- The tables of a method are the attributes of its body. -/
theorem Member.HasBody.tables_eq {pool : Pool} {member : Member} {body : Body} {stream : Stream}
    (holds : member.HasBody pool body stream) : member.tables? pool = some body.attributes := by
  obtain ⟨code, found, parsed, -⟩ := holds
  simp [tables?, found, parsed, Except.toOption]

/-- The method has been rewritten. It began with a `new` instruction, and its first table was a
stack map. -/
def isCreationRewritten (file woven : ClassFile) : Bool :=
  match file.methods[0]?, woven.methods[0]? with
  | some member, some newMember =>
    newMember != member && member.tables? file.pool == some creationTables &&
      (member.instructions? file.pool).any (·.head? == some (.withWord Opcode.new 4)) &&
      file.pool.utf8Is 8 "StackMapTable"
  | _, _ => false

/-- The first instruction of decoded code stands at its start. -/
theorem Stream.hasInstruction_zero {stream : Stream} {lengths : List Nat}
    (decoded : stream.IsDecoded lengths) (instruction : Instruction Label)
    (first : stream.instructions.head? = some instruction) :
    stream.HasInstruction 0 instruction := by
  refine ⟨0, (decoded.labelAt_eq_ok ..).2 ⟨Nat.zero_le _, rfl⟩, ?_⟩
  rw [← List.head?_eq_getElem?]
  exact first

/-- The object is said to be created by the `new` instruction, which has been moved behind the
guard of the parameter. -/
theorem references_of_weave_creation : ∃ (file woven : ClassFile) (model : ClassModel)
    (statistics : Statistics) (member newMember : Member),
    ClassFile.parse creationBytes = .ok file ∧ ClassModel.ofClass file = .ok model ∧
      (weave model creationPolicy).run file = (.ok (some statistics), woven) ∧
      file.methods[0]? = some member ∧ woven.methods[0]? = some newMember ∧ newMember ≠ member ∧
      ∃ (body newBody : Body) (original stream again : Stream),
        member.HasBody file.pool body original ∧ newMember.HasBody woven.pool newBody again ∧
          again.instructions = stream.flat.map (Instruction.map stream.landing) ∧
          body.attributes = creationTables ∧
          body.KeepsReferences file.pool original stream again newBody ∧
          ∃ newTable ∈ newBody.attributes, ∃ moved, StackMap.parse newTable.contents = .ok moved ∧
            ∃ newFrame ∈ moved.frames, ∃ target,
              .uninitialized target ∈ newFrame.change.types ∧
              original.Tracks stream again (.withWord Opcode.new 4) 0 target := by
  obtain ⟨file, woven, model, statistics, parsed, modelled, ran, rewritten⟩ :=
    exists_of_rewritesTo creationBytes creationPolicy
      (fun file _ woven => isCreationRewritten file woven) (by decide +kernel)
  rw [isCreationRewritten] at rewritten
  split at rewritten
  next member newMember here newHere =>
    simp only [Bool.and_eq_true, bne_iff_ne, beq_iff_eq] at rewritten
    obtain ⟨⟨⟨different, tables⟩, first⟩, frames⟩ := rewritten
    obtain ⟨body, newBody, original, stream, again, before, after, -, flat, keeps⟩ :=
      references_of_weave creationBytes file woven model creationPolicy statistics parsed
        modelled ran 0 member newMember here newHere different
    obtain ⟨lengths, isDecoded⟩ := before.isDecoded
    rw [before.instructions_eq, Option.any_some, beq_iff_eq] at first
    have listed := Option.some.inj (before.tables_eq.symm.trans tables)
    obtain ⟨newTable, inside, -, tracks⟩ := keeps.tracks_new _
      (by rw [listed]; exact List.mem_cons_self) frames _ parse_creationTables _
      List.mem_cons_self 0 List.mem_cons_self _ (original.hasInstruction_zero isDecoded _ first) rfl
    exact ⟨file, woven, model, statistics, member, newMember, parsed, modelled, ran, here, newHere,
      different, body, newBody, original, stream, again, before, after, flat, listed, keeps,
      newTable, inside, tracks⟩
  next => cases rewritten

end NullGuard
