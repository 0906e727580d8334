import NullGuard.Proofs.Guard.Steps

/-!
# Weaving a class

Every method with code is woven by a plan of its own, and all plans share the
pool of the class, which grows from method to method. Methods and attributes that
are added afterwards stand behind the others. So what a method looks like in the
woven class is settled by its plan.
-/

namespace NullGuard

open Stateful

/-! ## Replacing code -/

/-- How a method looks in a class and in the woven class. A stream tells the
instructions of the method from the guards among them. -/
structure MethodPlan.Weaves (plan : MethodPlan) (pool wovenPool : Pool)
    (member newMember : Member) (body newBody : Body) (original stream again : Stream) : Prop where
  before : member.HasBody pool body original
  after : newMember.HasBody wovenPool newBody again
  fills : plan.Fills wovenPool original stream
  instructions : again.instructions = stream.flat.map (Instruction.map stream.landing)
  moves : newMember ≠ member → MethodPlan.Moves stream body newBody again
  maxStack : stream.isModified = true →
    newBody.maxStack = Body.raisedStack body.maxStack guardStack

namespace Weaving

/-- The attribute that is found gets the new contents. -/
theorem findAttribute_replaceContents (pool : Pool) (name : String) (contents : List UInt8)
    (attributes replaced : List Attribute) (entry : Attribute)
    (found : pool.findAttribute name attributes = some entry)
    (ran : replaceContents pool name contents attributes = some replaced) :
    pool.findAttribute name replaced = some { entry with contents } := by
  induction attributes generalizing replaced with
  | nil => cases ran
  | cons first others inductionHypothesis =>
    rw [replaceContents] at ran
    rw [Pool.findAttribute_cons] at found
    by_cases named : pool.utf8Is first.name name = true
    · rw [if_pos named] at ran found
      obtain rfl := Option.some.inj ran
      obtain rfl := Option.some.inj found
      rw [Pool.findAttribute_cons, if_pos named]
    · rw [if_neg named] at ran found
      obtain ⟨rest, replacedRest, rfl⟩ := Option.map_eq_some_iff.1 ran
      rw [Pool.findAttribute_cons, if_neg named]
      exact inductionHypothesis rest found replacedRest

/-- A member that gets new code has the body that the new code is read as. -/
theorem hasBody_of_replaceCode (pool : Pool) (position : Nat) (member newMember : Member)
    (contents : List UInt8) (counts : Statistics) {body : Body} {original : Stream}
    (holds : member.HasBody pool body original)
    (replaced : replaceCode pool position member (some (contents, counts)) = .ok newMember)
    (newBody : Body) (again : Stream) (parsed : Body.parse contents = .ok newBody)
    (decoded : Stream.decode newBody.code = .ok again) : newMember.HasBody pool newBody again := by
  obtain ⟨code, found, -, -⟩ := holds
  rw [replaceCode] at replaced
  split at replaced
  next attributes ran =>
    obtain rfl := Except.ok.inj replaced
    exact ⟨_, findAttribute_replaceContents pool ClassFile.codeName contents member.attributes
      attributes code found ran, parsed, decoded⟩
  next => cases replaced

end Weaving

/-- A body that is found when constants have been added was there before, if any was. -/
theorem Member.HasBody.of_grown {pool grown : Pool} {member : Member} {body : Body}
    {stream : Stream} (holds : member.HasBody grown body stream) (grows : pool.GrowsTo grown)
    (coded : (pool.findAttribute ClassFile.codeName member.attributes).isSome = true) :
    member.HasBody pool body stream := by
  obtain ⟨code, found, parsed, decoded⟩ := holds
  obtain ⟨entry, foundBefore⟩ := Option.isSome_iff_exists.1 coded
  obtain rfl := Option.some.inj (found.symm.trans (grows.findAttribute _ _ _ foundBefore))
  exact ⟨code, foundBefore, parsed, decoded⟩

/-- A method that has been woven by a plan keeps its body or gets the new one. -/
theorem MethodPlan.weaves_of_rewrites (plan : MethodPlan) (pool middle wovenPool : Pool)
    (begun : pool.GrowsTo middle) (ended : middle.GrowsTo wovenPool) (member newMember : Member)
    (coded : (pool.findAttribute ClassFile.codeName member.attributes).isSome = true)
    (result : Option (List UInt8 × Statistics)) (rewrites : plan.Rewrites middle member result)
    (position : Nat)
    (replaced : Weaving.replaceCode middle position member result = .ok newMember) :
    ∃ body newBody original stream again,
      plan.Weaves pool wovenPool member newMember body newBody original stream again := by
  obtain ⟨body, original, stream, holds, fills, rewritten⟩ := rewrites
  have before := holds.of_grown begun coded
  cases result with
  | none =>
    obtain rfl := Except.ok.inj replaced
    obtain ⟨lengths, isDecoded⟩ := holds.isDecoded
    exact ⟨body, body, original, stream, original,
      { before
        after := (before.grow begun).grow ended
        fills := fills.grow ended
        instructions := Stream.instructions_of_unmodified isDecoded fills.isExtension rewritten
        moves := fun different => (different rfl).elim
        maxStack := fun modified => by rw [rewritten] at modified; cases modified }⟩
  | some rewriting =>
    obtain ⟨contents, statistics⟩ := rewriting
    obtain ⟨newBody, again, parsedAgain, moves, raised⟩ := rewritten
    have after := Weaving.hasBody_of_replaceCode middle position member newMember contents _ holds
      replaced newBody again parsedAgain moves.decoded
    exact ⟨body, newBody, original, stream, again,
      { before
        after := after.grow ended
        fills := fills.grow ended
        instructions := by rw [moves.flattened, Stream.instructions_flattened]
        moves := fun _ => moves
        maxStack := fun _ => raised }⟩

/-! ## All methods -/

namespace Weaving

/-- Replacing the methods replaces each at its place. -/
theorem getElem?_replaceMethods (file replaced : ClassFile)
    (results : List (Option (List UInt8 × Statistics)))
    (ran : replaceMethods file results = .ok replaced) (place : Nat) (member : Member)
    (result : Option (List UInt8 × Statistics)) (here : file.methods[place]? = some member)
    (resultHere : results[place]? = some result) :
    replaced.pool = file.pool ∧ ∃ newMember, replaced.methods[place]? = some newMember ∧
      replaceCode file.pool place member result = .ok newMember := by
  obtain ⟨methods, each, returned⟩ := (Outcome.bind_eq_ok ..).1 ran
  obtain rfl := Except.ok.inj returned
  have there : ((file.methods.zip results).zipIdx)[place]? = some ((member, result), place) := by
    have zipped : (file.methods.zip results)[place]? = some (member, result) :=
      List.getElem?_zip_eq_some.2 ⟨here, resultHere⟩
    rw [List.getElem?_zipIdx, zipped, Option.map_some, Nat.zero_add]
  exact ⟨rfl, Outcome.getElem?_of_forall₂ ((Outcome.mapM_eq_ok ..).1 each) place _ there⟩

/-- When the methods are replaced there is one for each, and at each place stand the new code
that was made by the plan of the method there. -/
theorem places_of_replaceMethods (file : ClassFile) (model : ClassModel) (policy : Policy)
    (aligned : Aligned file model policy) (pool : Pool) (methods : List Member)
    (results : List (Option (List UInt8 × Statistics)))
    (counted : (file.methods.zip (model.methods.zip policy.methods)).length = results.length)
    (replaced : replaceMethods { file with pool } results = .ok { file with pool, methods }) :
    methods.length = file.methods.length ∧ results.length = file.methods.length ∧
      ∀ (place : Nat) (member newMember : Member) (result : Option (List UInt8 × Statistics)),
        file.methods[place]? = some member → methods[place]? = some newMember →
        results[place]? = some result → ∃ method verdicts,
          (file.methods.zip (model.methods.zip policy.methods))[place]? =
            some (member, method, verdicts) ∧
          replaceCode pool place member result = .ok newMember := by
  have modelCount := aligned.methods
  have verdictCount := aligned.methodVerdicts
  simp only [List.length_zip] at counted
  obtain ⟨newMethods, each, returned⟩ := (Outcome.bind_eq_ok ..).1 replaced
  obtain rfl : newMethods = methods := congrArg ClassFile.methods (Except.ok.inj returned)
  have newCount := ((Outcome.mapM_eq_ok ..).1 each).length_eq
  simp only [List.length_zipIdx, List.length_zip] at newCount
  refine ⟨by omega, by omega, fun place member newMember result here newHere resultHere => ?_⟩
  have inside := (List.getElem?_eq_some_iff.1 here).1
  obtain ⟨-, found, foundHere, replacedCode⟩ :=
    getElem?_replaceMethods _ _ results replaced place member result here resultHere
  obtain rfl := Option.some.inj (newHere.symm.trans foundHere)
  exact ⟨model.methods[place], policy.methods[place], List.getElem?_zip_eq_some.2 ⟨here,
    List.getElem?_zip_eq_some.2 ⟨List.getElem?_eq_getElem _, List.getElem?_eq_getElem _⟩⟩,
    replacedCode⟩

end Weaving

/-- Weaving a class weaves each of its methods with code by its plan. -/
theorem weaves_of_weave (file woven : ClassFile) (model : ClassModel) (policy : Policy)
    (statistics : Statistics) (small : file.pool.size ≤ Pool.maxSize)
    (modelled : ClassModel.ofClass file = .ok model)
    (ran : Runs (weave model policy) file (some statistics) woven) (place : Nat)
    (member : Member) (method : MethodModel) (verdicts : MethodVerdicts)
    (here : file.methods[place]? = some member) (methodHere : model.methods[place]? = some method)
    (verdictsHere : policy.methods[place]? = some verdicts) (coded : method.hasCode = true) :
    ∃ newMember body newBody original stream again, woven.methods[place]? = some newMember ∧
      (model.planOf policy method verdicts).Weaves file.pool woven.pool member newMember body
        newBody original stream again := by
  have together : (file.methods.zip (model.methods.zip policy.methods))[place]? =
      some (member, method, verdicts) :=
    List.getElem?_zip_eq_some.2 ⟨here, List.getElem?_zip_eq_some.2 ⟨methodHere, verdictsHere⟩⟩
  have attributed := model.findAttribute_of_hasCode file modelled place member method here
    methodHere coded
  obtain ⟨results, pool, grown, methods, members, index, -, wovenMethods, methodsReplaced, ended, -,
    -, -, rfl⟩ := runs_weave file woven model policy statistics small ran
  obtain ⟨begun, settled⟩ := Weaving.settled_of_guardMethods _ model policy small pool results
    wovenMethods
  obtain ⟨result, resultHere, rewrites, -⟩ := Outcome.getElem?_of_forall₂ settled place
    (member, method, verdicts) together
  obtain ⟨-, newMember, newHere, replacedCode⟩ :=
    Weaving.getElem?_replaceMethods _ _ results methodsReplaced place member result here resultHere
  obtain ⟨body, newBody, original, stream, again, weaves⟩ :=
    (model.planOf policy method verdicts).weaves_of_rewrites _ pool grown begun ended member
      newMember attributed result (rewrites coded) place replacedCode
  refine ⟨newMember, body, newBody, original, stream, again, ?_, weaves⟩
  show (methods ++ members)[place]? = some newMember
  rw [List.getElem?_append_left (List.getElem?_eq_some_iff.1 newHere).1]
  exact newHere

/-! ## Weaving given bytes -/

/-- Weaving the class that some bytes hold succeeds, and a test accepts the outcome. -/
def weavesTo (bytes : List UInt8) (policy : ClassModel → Policy)
    (test : ClassFile → ClassModel → Option Statistics → ClassFile → Bool) : Bool :=
  match ClassFile.parse bytes with
  | .error _ => false
  | .ok file =>
    match ClassModel.ofClass file with
    | .error _ => false
    | .ok model =>
      match (weave model (policy model)).run file with
      | (.ok result, woven) => test file model result woven
      | (.error _, _) => false

/-- If weaving some bytes passes a test, the class, its model and the result are there. -/
theorem exists_of_weavesTo (bytes : List UInt8) (policy : ClassModel → Policy)
    (test : ClassFile → ClassModel → Option Statistics → ClassFile → Bool)
    (accepted : weavesTo bytes policy test = true) :
    ∃ file woven model result, ClassFile.parse bytes = .ok file ∧
      ClassModel.ofClass file = .ok model ∧
      (weave model (policy model)).run file = (.ok result, woven) ∧
      test file model result woven = true := by
  rw [weavesTo] at accepted
  split at accepted
  next => cases accepted
  next file parsed =>
    split at accepted
    next => cases accepted
    next model modelled =>
      split at accepted
      next result woven ran => exact ⟨file, woven, model, result, parsed, modelled, ran, accepted⟩
      next => cases accepted

/-- If weaving some bytes rewrites the class that they hold, and that passes a test, the class,
its model and the counts are there. -/
theorem exists_of_rewritesTo (bytes : List UInt8) (policy : Policy)
    (test : ClassFile → ClassModel → ClassFile → Bool)
    (accepted : weavesTo bytes (fun _ => policy)
      (fun file model result woven => result.isSome && test file model woven) = true) :
    ∃ file woven model statistics, ClassFile.parse bytes = .ok file ∧
      ClassModel.ofClass file = .ok model ∧
      (weave model policy).run file = (.ok (some statistics), woven) ∧
      test file model woven = true := by
  obtain ⟨file, woven, model, result, parsed, modelled, ran, accepted⟩ :=
    exists_of_weavesTo bytes _ _ accepted
  obtain ⟨rewritten, passed⟩ := (Bool.and_eq_true ..).mp accepted
  obtain ⟨statistics, rfl⟩ := Option.isSome_iff_exists.1 rewritten
  exact ⟨file, woven, model, statistics, parsed, modelled, ran, passed⟩

/-! ## A class with one method -/

/-- A text among the constants of a class. -/
def holderText (text : String) : List UInt8 :=
  1 :: Written.u16 (UInt16.ofNat (Text.ModifiedUtf8.encode text).length) ++
    Text.ModifiedUtf8.encode text

/-- A class with a field and a method that returns what the field holds. An exception
that reading the field throws is returned instead. -/
def holderBytes : List UInt8 :=
  Written.u32 ClassFile.magic ++ [0, 0, 0, 49, 0, 12] ++
    holderText "A" ++ [7, 0, 1] ++ holderText "java/lang/Object" ++ [7, 0, 3] ++
    holderText "f" ++ holderText "Ljava/lang/Object;" ++ holderText "m" ++
    holderText "(Ljava/lang/Object;)Ljava/lang/Object;" ++ holderText "Code" ++
    [12, 0, 5, 0, 6, 9, 0, 2, 0, 10] ++
    [0, 0x21, 0, 2, 0, 4, 0, 0] ++ [0, 1, 0, 0, 0, 5, 0, 6, 0, 0] ++
    [0, 1, 0, 0, 0, 7, 0, 8, 0, 1, 0, 9, 0, 0, 0, 25, 0, 1, 0, 2, 0, 0, 0, 5,
      0x2a, 0xb4, 0, 11, 0xb0, 0, 1, 0, 0, 0, 4, 0, 4, 0, 0, 0, 0] ++
    [0, 0]

/-- The field, the parameter and the result must not be null. -/
def holderPolicy : Policy := ⟨true, [true], [⟨[true], true⟩]⟩

/-- The instructions of the method. -/
def holderInstructions : List (Instruction Label) :=
  [.plain Opcode.aload0, .withWord Opcode.getfield 11, .plain Opcode.areturn]

/-- The instructions in the code attribute of a member. -/
def Member.instructions? (pool : Pool) (member : Member) : Option (List (Instruction Label)) := do
  let code ← pool.findAttribute ClassFile.codeName member.attributes
  let body ← (Body.parse code.contents).toOption
  return (← (Stream.decode body.code).toOption).instructions

/-- The instructions of a member are those of its body. -/
theorem Member.HasBody.instructions_eq {pool : Pool} {member : Member} {body : Body}
    {stream : Stream} (holds : member.HasBody pool body stream) :
    member.instructions? pool = some stream.instructions := by
  obtain ⟨code, found, parsed, decoded⟩ := holds
  simp [instructions?, found, parsed, decoded, Except.toOption]

/-- The method has these instructions, and it is another one in the woven class. -/
def isHolderRewritten (file : ClassFile) (model : ClassModel) (woven : ClassFile) : Bool :=
  match file.methods[0]?, model.methods[0]?, woven.methods[0]? with
  | some member, some method, some newMember =>
    method.hasCode && newMember != member &&
      member.instructions? file.pool == some holderInstructions
  | _, _, _ => false

/-- The class is woven, and its method is another one afterwards. -/
theorem weave_holder : ∃ (file woven : ClassFile) (model : ClassModel) (statistics : Statistics)
    (member newMember : Member) (method : MethodModel),
    ClassFile.parse holderBytes = .ok file ∧ ClassModel.ofClass file = .ok model ∧
      (weave model holderPolicy).run file = (.ok (some statistics), woven) ∧
      file.methods[0]? = some member ∧ model.methods[0]? = some method ∧
      woven.methods[0]? = some newMember ∧ method.hasCode = true ∧ newMember ≠ member ∧
      member.instructions? file.pool = some holderInstructions := by
  obtain ⟨file, woven, model, statistics, parsed, modelled, ran, rewritten⟩ :=
    exists_of_rewritesTo holderBytes holderPolicy isHolderRewritten (by decide +kernel)
  rw [isHolderRewritten] at rewritten
  split at rewritten
  next member method newMember here methodHere newHere =>
    simp only [Bool.and_eq_true, bne_iff_ne, beq_iff_eq] at rewritten
    obtain ⟨⟨coded, different⟩, instructions⟩ := rewritten
    exact ⟨file, woven, model, statistics, member, newMember, method, parsed, modelled, ran, here,
      methodHere, newHere, coded, different, instructions⟩
  next => cases rewritten

/-- The method uses no static field. -/
theorem separate_holderInstructions : MethodPlan.Separate holderInstructions := by
  have none : ∀ instruction ∈ holderInstructions, ¬ Opcode.IsStaticAccess instruction.opcode := by
    unfold Opcode.IsStaticAccess
    decide
  intro first _ second present _ access
  exact absurd access (none second present)

/-! ## Guards and control flow in a woven class -/

section

variable (bytes : List UInt8) (file woven : ClassFile) (model : ClassModel) (policy : Policy)
variable (statistics : Statistics)

/-- Weaving puts exactly the guards into a method that its policy asks for. The code of
the woven method is the code that was there with the entry group in front of it and
with the guard of each instruction around that instruction; labels have become
positions. Whether a field instruction accesses a guarded field is a matter of what
its index names, provided that no index serves instance and static fields alike. -/
theorem guards_of_weave (parsed : ClassFile.parse bytes = .ok file)
    (modelled : ClassModel.ofClass file = .ok model)
    (ran : (weave model policy).run file = (.ok (some statistics), woven)) (place : Nat)
    (member : Member) (method : MethodModel) (verdicts : MethodVerdicts)
    (here : file.methods[place]? = some member) (methodHere : model.methods[place]? = some method)
    (verdictsHere : policy.methods[place]? = some verdicts) (coded : method.hasCode = true) :
    ∃ (newMember : Member) (body newBody : Body) (original stream again : Stream),
      woven.methods[place]? = some newMember ∧ member.HasBody file.pool body original ∧
        newMember.HasBody woven.pool newBody again ∧
        stream.instructions = original.instructions ∧
        again.instructions = stream.flat.map (Instruction.map stream.landing) ∧
        (model.planOf policy method verdicts).IsGuard woven.pool stream.entry .argument ∧
        (MethodPlan.Separate original.instructions → ∀ slot ∈ stream.slots,
          (model.planOf policy method verdicts).Guards woven.pool
            ((model.planOf policy method verdicts).Accesses woven.pool slot.instruction) slot) := by
  obtain ⟨newMember, body, newBody, original, stream, again, newHere, weaves⟩ :=
    weaves_of_weave file woven model policy statistics (file.size_of_parse bytes parsed) modelled
      ran place member method verdicts here methodHere verdictsHere coded
  exact ⟨newMember, body, newBody, original, stream, again, newHere, weaves.before, weaves.after,
    weaves.fills.instructions, weaves.instructions, weaves.fills.entry, weaves.fills.exactly⟩

/-- The method of the class has a guard at its entry, behind reading the field and in front
of returning what it holds. -/
theorem guards_of_weave_holder : ∃ (file woven : ClassFile) (model : ClassModel)
    (statistics : Statistics) (member : Member) (method : MethodModel),
    ClassFile.parse holderBytes = .ok file ∧ ClassModel.ofClass file = .ok model ∧
      (weave model holderPolicy).run file = (.ok (some statistics), woven) ∧
      ∃ (newMember : Member) (body newBody : Body) (original stream again : Stream),
        woven.methods[0]? = some newMember ∧ member.HasBody file.pool body original ∧
          newMember.HasBody woven.pool newBody again ∧
          stream.instructions = holderInstructions ∧
          again.instructions = stream.flat.map (Instruction.map stream.landing) ∧
          (model.planOf holderPolicy method ⟨[true], true⟩).IsGuard woven.pool stream.entry
            .argument ∧
          ∀ slot ∈ stream.slots, (model.planOf holderPolicy method ⟨[true], true⟩).Guards woven.pool
            ((model.planOf holderPolicy method ⟨[true], true⟩).Accesses woven.pool
              slot.instruction) slot := by
  obtain ⟨file, woven, model, statistics, member, -, method, parsed, modelled, ran, here,
    methodHere, -, coded, -, instructions⟩ := weave_holder
  obtain ⟨newMember, body, newBody, original, stream, again, newHere, before, after, same, flat,
    entry, slots⟩ := guards_of_weave holderBytes file woven model holderPolicy statistics parsed
      modelled ran 0 member method ⟨[true], true⟩ here methodHere rfl coded
  have known : original.instructions = holderInstructions :=
    Option.some.inj (before.instructions_eq.symm.trans instructions)
  rw [known] at same slots
  exact ⟨file, woven, model, statistics, member, method, parsed, modelled, ran, newMember, body,
    newBody, original, stream, again, newHere, before, after, same, flat, entry,
    slots separate_holderInstructions⟩

/-- Weaving keeps the flow of control of every method that it rewrites, with the
guards of an instruction taken together with it, and no guard can be bypassed. -/
theorem keepsFlow_of_weave (parsed : ClassFile.parse bytes = .ok file)
    (modelled : ClassModel.ofClass file = .ok model)
    (ran : (weave model policy).run file = (.ok (some statistics), woven)) (place : Nat)
    (member newMember : Member) (method : MethodModel) (verdicts : MethodVerdicts)
    (here : file.methods[place]? = some member) (methodHere : model.methods[place]? = some method)
    (verdictsHere : policy.methods[place]? = some verdicts) (coded : method.hasCode = true)
    (newHere : woven.methods[place]? = some newMember) (rewritten : newMember ≠ member) :
    ∃ (body newBody : Body) (original stream again : Stream),
      member.HasBody file.pool body original ∧ newMember.HasBody woven.pool newBody again ∧
      (model.planOf policy method verdicts).Fills woven.pool original stream ∧
      again.instructions = stream.flat.map (Instruction.map stream.landing) ∧
      Stream.KeepsFlow original stream again body.handlers newBody.handlers := by
  obtain ⟨found, body, newBody, original, stream, again, foundHere, weaves⟩ :=
    weaves_of_weave file woven model policy statistics (file.size_of_parse bytes parsed) modelled
      ran place member method verdicts here methodHere verdictsHere coded
  obtain rfl := Option.some.inj (newHere.symm.trans foundHere)
  refine ⟨body, newBody, original, stream, again, weaves.before, weaves.after, weaves.fills,
    weaves.instructions, ?_⟩
  obtain ⟨code, -, -, decoded⟩ := weaves.before
  obtain ⟨lengths, isDecoded, -⟩ := Stream.isDecoded_of_decode body.code original decoded
  obtain ⟨-, rfl, encoded, encodes, handlers⟩ := weaves.moves rewritten
  exact Stream.keepsFlow isDecoded weaves.fills.isExtension weaves.fills.passesThrough encodes
    handlers

/-- In the woven method of the class the instructions lead where they led before. -/
theorem keepsFlow_of_weave_holder : ∃ (file woven : ClassFile) (model : ClassModel)
    (statistics : Statistics) (member newMember : Member),
    ClassFile.parse holderBytes = .ok file ∧ ClassModel.ofClass file = .ok model ∧
      (weave model holderPolicy).run file = (.ok (some statistics), woven) ∧
      newMember ≠ member ∧
      ∃ (body newBody : Body) (original stream again : Stream),
        member.HasBody file.pool body original ∧ newMember.HasBody woven.pool newBody again ∧
          original.instructions = holderInstructions ∧
          again.instructions = stream.flat.map (Instruction.map stream.landing) ∧
          Stream.KeepsFlow original stream again body.handlers newBody.handlers := by
  obtain ⟨file, woven, model, statistics, member, newMember, method, parsed, modelled, ran, here,
    methodHere, newHere, coded, rewritten, instructions⟩ := weave_holder
  obtain ⟨body, newBody, original, stream, again, before, after, -, flat, keeps⟩ :=
    keepsFlow_of_weave holderBytes file woven model holderPolicy statistics parsed modelled ran 0
      member newMember method ⟨[true], true⟩ here methodHere rfl coded newHere rewritten
  exact ⟨file, woven, model, statistics, member, newMember, parsed, modelled, ran, rewritten, body,
    newBody, original, stream, again, before, after,
    Option.some.inj (before.instructions_eq.symm.trans instructions), flat, keeps⟩

end

end NullGuard
