import NullGuard.Proofs.ClassFile.Editing
import NullGuard.Proofs.Guard.Method
import NullGuard.Proofs.Nullness.Marking

/-!
# What weaving adds to a class

Weaving first guards the methods of a class, which adds constants, and then puts
the new code in their places. After that it only adds: methods that check the
guarded fields and an attribute, each behind the ones that are there. The steps
are said one by one in `steps_of_weave`; what they come to is said in `runs_weave`.
-/

namespace NullGuard

open Stateful

/-- The plan by which a policy has a method of a class woven. -/
def ClassModel.planOf (model : ClassModel) (policy : Policy) (method : MethodModel)
    (verdicts : MethodVerdicts) : MethodPlan :=
  { className := model.name
    isInterface := model.isInterface
    method
    verdicts
    guarded := GuardedFields.ofPolicy model policy }

/-! ## Alignment -/

/-- A class, its model and a policy list the same elements. -/
structure Aligned (file : ClassFile) (model : ClassModel) (policy : Policy) : Prop where
  fields : model.fields.length = file.fields.length
  methods : model.methods.length = file.methods.length
  fieldVerdicts : policy.fields.length = model.fields.length
  methodVerdicts : policy.methods.length = model.methods.length
  parameters : ∀ pair ∈ model.methods.zip policy.methods,
    pair.1.parameters.length = pair.2.parameters.length

/-- Each method is compared with its verdicts. -/
theorem Weaving.compare_eq_ok (className : String) (pairs : List (MethodModel × MethodVerdicts)) :
    pairs.forM (fun (method, verdicts) =>
        if method.parameters.length ≠ verdicts.parameters.length then
          fail (.invariant (.verdictMismatch className method.name))
        else pure ()) = (.ok () : Except Failure Unit) ↔
      ∀ pair ∈ pairs, pair.1.parameters.length = pair.2.parameters.length := by
  rw [List.forM_eq_forM]
  induction pairs with
  | nil => simp [pure, Except.pure]
  | cons pair others inductionHypothesis =>
    rw [List.forM_cons, Outcome.bind_eq_ok, List.forall_mem_cons]
    constructor
    · rintro ⟨_, first, rest⟩
      refine ⟨?_, inductionHypothesis.1 rest⟩
      dsimp only at first
      split at first
      next => cases first
      next same => exact not_not.1 same
    · rintro ⟨same, rest⟩
      exact ⟨(), if_neg (not_not.2 same), inductionHypothesis.2 rest⟩

/-- The alignment is checked exactly: policy, model and class have the same members. -/
theorem Weaving.checkAlignment_eq_ok (file : ClassFile) (model : ClassModel) (policy : Policy) :
    checkAlignment file model policy = .ok () ↔ Aligned file model policy := by
  rw [checkAlignment]
  split
  next mismatch =>
    constructor
    · intro failed
      obtain ⟨_, impossible, -⟩ := (Outcome.bind_eq_ok ..).1 failed
      cases impossible
    · rintro ⟨fields, methods, fieldVerdicts, methodVerdicts, -⟩
      omega
  next same =>
    rw [compare_eq_ok]
    constructor
    · intro parameters
      exact ⟨by omega, by omega, by omega, by omega, parameters⟩
    · intro aligned
      exact aligned.parameters

/-! ## Models -/

/-- A class and its model, which has a field and a method for each of those of the class. -/
structure ClassModel.Models (model : ClassModel) (file : ClassFile) : Prop where
  name : file.name = .ok model.name
  fields : List.Forall₂ (fun member field => FieldModel.ofMember file member = .ok field)
    file.fields model.fields
  methods : List.Forall₂ (fun member method => MethodModel.ofMember file member = .ok method)
    file.methods model.methods

/-- The model of a class describes its members one by one. -/
theorem ClassModel.models_of_ofClass (file : ClassFile) (model : ClassModel)
    (modelled : ofClass file = .ok model) : model.Models file := by
  obtain ⟨name, named, ran⟩ := (Outcome.bind_eq_ok ..).1 modelled
  obtain ⟨markers, -, ran⟩ := (Outcome.bind_eq_ok ..).1 ran
  obtain ⟨fields, eachField, ran⟩ := (Outcome.bind_eq_ok ..).1 ran
  obtain ⟨methods, eachMethod, returned⟩ := (Outcome.bind_eq_ok ..).1 ran
  obtain rfl := Except.ok.inj returned
  exact ⟨named, (Outcome.mapM_eq_ok ..).1 eachField, (Outcome.mapM_eq_ok ..).1 eachMethod⟩

/-- What the model of a method says about its member: the name resolves, and there is code
if there is a code attribute. -/
theorem MethodModel.of_ofMember (file : ClassFile) (member : Member) (method : MethodModel)
    (modelled : ofMember file member = .ok method) :
    file.pool.utf8 member.name = .ok method.name ∧
      method.hasCode =
        (file.pool.findAttribute ClassFile.codeName member.attributes).isSome := by
  obtain ⟨name, named, ran⟩ := (Outcome.bind_eq_ok ..).1 modelled
  obtain ⟨descriptor, -, ran⟩ := (Outcome.bind_eq_ok ..).1 ran
  obtain ⟨shape, -, ran⟩ := (Outcome.bind_eq_ok ..).1 ran
  obtain ⟨markers, -, ran⟩ := (Outcome.bind_eq_ok ..).1 ran
  obtain ⟨parameters, -, returned⟩ := (Outcome.bind_eq_ok ..).1 ran
  obtain rfl := Except.ok.inj returned
  exact ⟨named, rfl⟩

/-- What the model of a field says about its member: name and descriptor resolve, and the
field is for objects if the descriptor names a class. -/
theorem FieldModel.of_ofMember (file : ClassFile) (member : Member) (field : FieldModel)
    (modelled : ofMember file member = .ok field) :
    file.pool.utf8 member.name = .ok field.name ∧
      file.pool.utf8 member.descriptor = .ok field.descriptor ∧
      field.isObject = isObjectField field.descriptor := by
  have mirrors := mirrors_of_ofMember file member field modelled
  exact ⟨mirrors.name, mirrors.descriptor, mirrors.isObject⟩

/-- A method of a model has code if the member at its place has a code attribute. -/
theorem ClassModel.findAttribute_of_hasCode (file : ClassFile) (model : ClassModel)
    (modelled : ofClass file = .ok model) (place : Nat) (member : Member) (method : MethodModel)
    (here : file.methods[place]? = some member) (methodHere : model.methods[place]? = some method)
    (coded : method.hasCode = true) :
    (file.pool.findAttribute ClassFile.codeName member.attributes).isSome = true := by
  obtain ⟨found, foundHere, ofMember⟩ :=
    Outcome.getElem?_of_forall₂ (model.models_of_ofClass file modelled).methods place member here
  obtain rfl := Option.some.inj (methodHere.symm.trans foundHere)
  rw [← (MethodModel.of_ofMember file member method ofMember).2]
  exact coded

/-- A model of a class and a policy made from it list what the class lists. -/
theorem aligned_of_ofClass (file : ClassFile) (model : ClassModel)
    (modelled : ClassModel.ofClass file = .ok model) (verdict : Bool) :
    Aligned file model (Policy.ofPackageVerdict model verdict) := by
  have models := model.models_of_ofClass file modelled
  refine
    { fields := models.fields.length_eq.symm
      methods := models.methods.length_eq.symm
      fieldVerdicts := List.length_map _
      methodVerdicts := List.length_map _
      parameters := ?_ }
  intro pair member
  obtain ⟨place, here⟩ := List.mem_iff_getElem?.1 member
  obtain ⟨methodHere, verdictsHere⟩ := List.getElem?_zip_eq_some.1 here
  simp only [Policy.ofPackageVerdict, Policy.ofClassVerdict, List.getElem?_map, methodHere,
    Option.map_some, Option.some.injEq] at verdictsHere
  rw [← verdictsHere, List.length_map]

/-! ## Guarded fields -/

/-- Whether the descriptor of a field names a class. -/
def Member.isObject (pool : Pool) (member : Member) : Bool :=
  (pool.utf8 member.descriptor).toOption.any isObjectField

/-- The instance fields or the static fields of a class that a policy guards, in the order of
declaration: null is forbidden for them, and their descriptors name classes. -/
def ClassFile.guardedFields (file : ClassFile) (policy : Policy) (isStatic : Bool) :
    List Member :=
  ((file.fields.zip policy.fields).filter fun (member, verdict) =>
    verdict && member.isObject file.pool && member.isStatic == isStatic).map Prod.fst

/-- A field has the name and the descriptor of a key. -/
def Member.HasKey (pool : Pool) (member : Member) (key : FieldKey) : Prop :=
  pool.utf8 member.name = .ok key.name ∧ pool.utf8 member.descriptor = .ok key.descriptor

/-- The model of a field says what the field says. -/
theorem FieldModel.hasKey_of_ofMember (file : ClassFile) (member : Member) (field : FieldModel)
    (modelled : ofMember file member = .ok field) :
    member.HasKey file.pool ⟨field.name, field.descriptor⟩ ∧
      field.isObject = member.isObject file.pool ∧ field.isStatic = member.isStatic := by
  have mirrors := mirrors_of_ofMember file member field modelled
  have described : file.pool.utf8 member.descriptor = .ok field.descriptor := mirrors.descriptor
  refine ⟨⟨mirrors.name, described⟩, ?_, mirrors.isStatic⟩
  rw [mirrors.isObject, Member.isObject, described]
  rfl

/-- The fields that are guarded by a model and a policy are those of the class, each in the
place of its declaration. -/
theorem GuardedFields.hasKey_of_filter (file : ClassFile) (isStatic : Bool)
    (members : List Member) (fields : List FieldModel)
    (each : List.Forall₂ (fun member field => FieldModel.ofMember file member = .ok field)
      members fields) (verdicts : List Bool) :
    List.Forall₂ (Member.HasKey file.pool)
      (((members.zip verdicts).filter fun (member, verdict) =>
        verdict && member.isObject file.pool && member.isStatic == isStatic).map Prod.fst)
      (((((fields.zip verdicts).filter fun (field, verdict) => verdict && field.isObject).map
        Prod.fst).filter fun field => field.isStatic == isStatic).map
          fun field => (⟨field.name, field.descriptor⟩ : FieldKey)) := by
  induction each generalizing verdicts with
  | nil => exact .nil
  | @cons member field members fields modelled _ inductionHypothesis =>
    cases verdicts with
    | nil => exact .nil
    | cons verdict verdicts =>
      obtain ⟨hasKey, isObject, sameKind⟩ :=
        FieldModel.hasKey_of_ofMember file member field modelled
      have rest := inductionHypothesis verdicts
      rw [List.zip_cons_cons, List.zip_cons_cons, List.filter_cons, List.filter_cons]
      by_cases asked : (verdict && member.isObject file.pool) = true
      · by_cases kind : (member.isStatic == isStatic) = true
        · simp only [isObject, asked, kind, Bool.and_true, if_true, List.map_cons,
            List.filter_cons, sameKind]
          exact .cons hasKey rest
        · simp only [isObject, asked, kind, Bool.and_false, if_true, List.map_cons,
            List.filter_cons, sameKind]
          exact rest
      · simp only [isObject, asked, Bool.false_and]
        exact rest

/-- The fields that a policy guards are spelled in the class as their keys say, those of
objects and the static ones. -/
theorem GuardedFields.hasKey_of_ofPolicy (file : ClassFile) (model : ClassModel)
    (models : model.Models file) (policy : Policy) :
    List.Forall₂ (Member.HasKey file.pool) (file.guardedFields policy false)
        (ofPolicy model policy).instances ∧
      List.Forall₂ (Member.HasKey file.pool) (file.guardedFields policy true)
        (ofPolicy model policy).statics := by
  have keys (isStatic : Bool) :=
    hasKey_of_filter file isStatic file.fields model.fields models.fields policy.fields
  constructor
  · rw [ofPolicy]
    simp only [← beq_false]
    exact keys false
  · have statics := keys true
    simp only [beq_true] at statics
    rw [ofPolicy, ClassFile.guardedFields]
    simp only [beq_true]
    exact statics

/-! ## Guarding the methods -/

namespace Weaving

/-- What weaving a method with code has come to. -/
def Settled (model : ClassModel) (policy : Policy) (pool : Pool)
    (item : Member × MethodModel × MethodVerdicts)
    (result : Option (List UInt8 × Statistics)) : Prop :=
  item.2.1.hasCode = true →
    (model.planOf policy item.2.1 item.2.2).Rewrites pool item.1 result

/-- Weave one method, if it has code. -/
def guardMethod (model : ClassModel) (policy : Policy)
    (item : Member × MethodModel × MethodVerdicts) :
    Pool.Growth (Option (List UInt8 × Statistics)) :=
  if item.2.1.hasCode then
    during (.weaveMethod model.name (item.2.1.name ++ item.2.1.descriptor))
      ((model.planOf policy item.2.1 item.2.2).guardCode item.1)
  else pure none

/-- The methods are guarded one by one, each with its model and its verdicts. -/
theorem guardMethods_eq (members : List Member) (model : ClassModel) (policy : Policy) :
    guardMethods members model policy (GuardedFields.ofPolicy model policy) =
      (members.zip (model.methods.zip policy.methods)).mapM (guardMethod model policy) := rfl

/-- Where a class, its model and a policy meet, the method has a code attribute if the
model says so. -/
theorem findAttribute_of_mem_zip (file : ClassFile) (model : ClassModel) (policy : Policy)
    (modelled : ClassModel.ofClass file = .ok model) (item : Member × MethodModel × MethodVerdicts)
    (member : item ∈ file.methods.zip (model.methods.zip policy.methods))
    (coded : item.2.1.hasCode = true) :
    (file.pool.findAttribute ClassFile.codeName item.1.attributes).isSome = true := by
  obtain ⟨place, here⟩ := List.mem_iff_getElem?.1 member
  obtain ⟨memberHere, others⟩ := List.getElem?_zip_eq_some.1 here
  obtain ⟨methodHere, -⟩ := List.getElem?_zip_eq_some.1 others
  exact model.findAttribute_of_hasCode file modelled place _ _ memberHere methodHere coded

/-! A property that every member has when its plan has woven it, and keeps when the pool
grows, is one that all methods with code have in the end. -/

section

variable (Holds : Pool → MethodPlan → Member → Option (List UInt8 × Statistics) → Prop)
variable (one : ∀ (plan : MethodPlan) (member : Member)
  (result : Option (List UInt8 × Statistics)) (pool grown : Pool), pool.size ≤ Pool.maxSize →
    Runs (plan.guardCode member) pool result grown →
      pool.GrowsTo grown ∧ Holds grown plan member result)
include one

/-- A method without code is not woven, one with code is woven by its plan. -/
theorem holds_of_guardMethod (model : ClassModel) (policy : Policy)
    (item : Member × MethodModel × MethodVerdicts) (pool grown : Pool)
    (small : pool.size ≤ Pool.maxSize) (result : Option (List UInt8 × Statistics))
    (ran : Runs (guardMethod model policy item) pool result grown) :
    pool.GrowsTo grown ∧
      (item.2.1.hasCode = true →
        Holds grown (model.planOf policy item.2.1 item.2.2) item.1 result) ∧
      (item.2.1.hasCode = true ∨ result = none) := by
  rw [guardMethod] at ran
  split at ran
  next coded =>
    rw [runs_during] at ran
    obtain ⟨grows, holds⟩ := one _ item.1 result pool grown small ran
    exact ⟨grows, fun _ => holds, .inl coded⟩
  next uncoded =>
    obtain ⟨rfl, rfl⟩ := (runs_pure ..).1 ran
    exact ⟨.refl _, fun coded => (uncoded coded).elim, .inr rfl⟩

/-- All methods have been woven by their plans. -/
theorem holds_of_guardMethods
    (lasts : ∀ pool grown plan member result, pool.GrowsTo grown →
      Holds pool plan member result → Holds grown plan member result)
    (file : ClassFile) (model : ClassModel) (policy : Policy)
    (small : file.pool.size ≤ Pool.maxSize) (grown : Pool)
    (results : List (Option (List UInt8 × Statistics)))
    (ran : Runs (guardMethods file.methods model policy (GuardedFields.ofPolicy model policy))
      file.pool results grown) :
    file.pool.GrowsTo grown ∧
      List.Forall₂ (fun item result =>
          (item.2.1.hasCode = true →
            Holds grown (model.planOf policy item.2.1 item.2.2) item.1 result) ∧
          (item.2.1.hasCode = true ∨ result = none))
        (file.methods.zip (model.methods.zip policy.methods)) results := by
  rw [guardMethods_eq] at ran
  exact (runsAll_of_runs _ _ _ _ _ ran).forall₂ Pool.GrowsTo
    (fun pool (item : Member × MethodModel × MethodVerdicts) result =>
      (item.2.1.hasCode = true →
        Holds pool (model.planOf policy item.2.1 item.2.2) item.1 result) ∧
      (item.2.1.hasCode = true ∨ result = none)) Pool.GrowsTo.refl Pool.GrowsTo.trans
    (fun _ _ _ _ grows holds => ⟨fun coded => lasts _ _ _ _ _ grows (holds.1 coded), holds.2⟩)
    fun item _ state result next grows stepRan =>
      holds_of_guardMethod Holds one model policy item state next (grows.bounded small) result
        stepRan

end

/-- Guarding a method settles it: a method without code is left out, another one gets its
guards. -/
theorem settled_of_guardMethod (model : ClassModel) (policy : Policy)
    (item : Member × MethodModel × MethodVerdicts) (pool grown : Pool)
    (small : pool.size ≤ Pool.maxSize) (result : Option (List UInt8 × Statistics))
    (ran : Runs (guardMethod model policy item) pool result grown) :
    pool.GrowsTo grown ∧ Settled model policy grown item result ∧
      (item.2.1.hasCode = true ∨ result = none) :=
  holds_of_guardMethod (fun pool plan => plan.Rewrites pool)
    (fun plan => plan.rewrites_of_guardCode) model policy item pool grown small result ran

/-- Guarding the methods settles each of them. Each finds the pool that the ones in front
have left, and what they have settled stays right as it grows. -/
theorem settled_of_guardMethods (file : ClassFile) (model : ClassModel) (policy : Policy)
    (small : file.pool.size ≤ Pool.maxSize) (grown : Pool)
    (results : List (Option (List UInt8 × Statistics)))
    (ran : Runs (guardMethods file.methods model policy (GuardedFields.ofPolicy model policy))
      file.pool results grown) :
    file.pool.GrowsTo grown ∧
      List.Forall₂ (fun item result => Settled model policy grown item result ∧
          (item.2.1.hasCode = true ∨ result = none))
        (file.methods.zip (model.methods.zip policy.methods)) results :=
  holds_of_guardMethods (fun pool plan => plan.Rewrites pool)
    (fun plan => plan.rewrites_of_guardCode) (fun _ _ _ _ _ grows rewrites => rewrites.grow grows)
    file model policy small grown results ran

end Weaving

/-! ## Added methods -/

/-- The name of the method that checks the static or the instance fields of a class. -/
def checkMethodName (isStatic : Bool) : String :=
  if isStatic then staticCheckMethod else instanceCheckMethod

/-- The check that is made for each static or instance field. -/
def CheckKind.ofField (isStatic : Bool) : CheckKind :=
  if isStatic then .staticInitializerField else .constructorField

/-- A method that weaving adds to a class to check some of its fields. -/
structure AddedMethod where
  access : UInt16
  name : String
  maxLocals : UInt16
  kind : CheckKind
  keys : List FieldKey

namespace AddedMethod

/-- The method that checks the instance fields. -/
def ofInstances (guarded : GuardedFields) : AddedMethod :=
  ⟨Access.privateFlag ||| Access.syntheticFlag, instanceCheckMethod, 1, .constructorField,
    guarded.instances⟩

/-- The method that checks the static fields. -/
def ofStatics (guarded : GuardedFields) : AddedMethod :=
  ⟨Access.privateFlag ||| Access.staticFlag ||| Access.syntheticFlag, staticCheckMethod, 0,
    .staticInitializerField, guarded.statics⟩

/-- The methods that a class gets, in their order. An interface checks its static
fields in place. -/
def all (guarded : GuardedFields) (isInterface : Bool) : List AddedMethod :=
  (if !guarded.instances.isEmpty then [ofInstances guarded] else []) ++
    (if !guarded.statics.isEmpty && !isInterface then [ofStatics guarded] else [])

/-- The method that checks the static or the instance fields. -/
def ofFields (guarded : GuardedFields) (isStatic : Bool) : AddedMethod :=
  if isStatic then ofStatics guarded else ofInstances guarded

/-- The check of the method for some fields is the check for such fields. -/
theorem kind_ofFields (guarded : GuardedFields) (isStatic : Bool) :
    (ofFields guarded isStatic).kind = .ofField isStatic := by
  cases isStatic <;> rfl

/-- The name of the method for some fields tells which fields they are. -/
theorem name_ofFields (guarded : GuardedFields) (isStatic : Bool) :
    (ofFields guarded isStatic).name = checkMethodName isStatic := by
  cases isStatic <;> rfl

/-- The method is private and made by a tool; for static fields it is static itself. -/
theorem access_ofFields (guarded : GuardedFields) (isStatic : Bool) :
    (ofFields guarded isStatic).access =
      if isStatic then Access.privateFlag ||| Access.staticFlag ||| Access.syntheticFlag
      else Access.privateFlag ||| Access.syntheticFlag := by
  cases isStatic <;> rfl

/-- Without guarded fields there are none to check. -/
theorem keys_ofFields_of_isEmpty (guarded : GuardedFields) (isStatic : Bool)
    (nothing : guarded.isEmpty = true) : (ofFields guarded isStatic).keys = [] := by
  obtain ⟨instances, statics⟩ := (Bool.and_eq_true ..).mp nothing
  cases isStatic with
  | false => exact List.isEmpty_iff.1 instances
  | true => exact List.isEmpty_iff.1 statics

/-- The keys are those of the fields that are guarded. -/
theorem hasKey_ofFields (file : ClassFile) (model : ClassModel) (models : model.Models file)
    (policy : Policy) (isStatic : Bool) :
    List.Forall₂ (Member.HasKey file.pool) (file.guardedFields policy isStatic)
      (ofFields (.ofPolicy model policy) isStatic).keys := by
  obtain ⟨instances, statics⟩ := GuardedFields.hasKey_of_ofPolicy file model models policy
  cases isStatic with
  | false => exact instances
  | true => exact statics

/-- Of the methods that a class gets, one has the name of the method that checks the static or
the instance fields if there are such fields to check, and otherwise none. -/
theorem filter_all (guarded : GuardedFields) (isInterface isStatic : Bool) :
    (all guarded isInterface).filter (fun added => added.name == checkMethodName isStatic) =
      if (ofFields guarded isStatic).keys ≠ [] ∧ (isStatic = true → isInterface = false) then
        [ofFields guarded isStatic]
      else [] := by
  obtain ⟨instances, statics⟩ := guarded
  have different : (instanceCheckMethod == staticCheckMethod) = false := by decide
  have differentToo : (staticCheckMethod == instanceCheckMethod) = false := by decide
  cases isStatic <;> cases isInterface <;> cases instances <;> cases statics <;>
    simp [all, ofFields, ofInstances, ofStatics, checkMethodName, different, differentToo]

/-- A method is added for fields that are guarded, except for the static ones of an
interface. -/
theorem ofFields_mem_all (guarded : GuardedFields) (isInterface isStatic : Bool)
    (needed : (ofFields guarded isStatic).keys ≠ [] ∧ (isStatic = true → isInterface = false)) :
    ofFields guarded isStatic ∈ all guarded isInterface := by
  have named := filter_all guarded isInterface isStatic
  rw [if_pos needed] at named
  exact (List.mem_filter.1 (named ▸ List.mem_singleton_self _)).1

/-- How an added method looks in the class. Its only attribute holds its code, which
checks the fields one after the other and returns. -/
structure IsMember (pool : Pool) (className : String) (added : AddedMethod) (member : Member) :
    Prop where
  access : member.access = added.access
  named : pool.utf8Is member.name added.name = true
  described : pool.utf8Is member.descriptor checkMethodDescriptor = true
  attributes : ∃ index contents, member.attributes = [⟨index, contents⟩] ∧
    pool.utf8Is index ClassFile.codeName = true
  checks : ∃ body stream group, member.HasBody pool body stream ∧
    ChecksFields pool className added.kind added.keys group ∧
    stream.instructions = group ++ [.plain Opcode.vreturn] ∧ body.maxStack = guardStack ∧
    body.maxLocals = added.maxLocals ∧ body.handlers = []

/-- A method that has been added is still found as the pool grows. -/
theorem IsMember.grow {pool grown : Pool} {className : String} {added : AddedMethod}
    {member : Member} (isMember : added.IsMember pool className member)
    (grows : pool.GrowsTo grown) : added.IsMember grown className member := by
  obtain ⟨index, contents, only, coded⟩ := isMember.attributes
  obtain ⟨body, stream, group, holds, checks, rest⟩ := isMember.checks
  exact
    { access := isMember.access
      named := grows.utf8Is _ _ isMember.named
      described := grows.utf8Is _ _ isMember.described
      attributes := ⟨index, contents, only, grows.utf8Is _ _ coded⟩
      checks := ⟨body, stream, group, holds.grow grows, checks.grow grows, rest⟩ }

/-- The methods added check guarded fields only. -/
theorem keys_of_mem_all (guarded : GuardedFields) (isInterface : Bool) (added : AddedMethod)
    (present : added ∈ all guarded isInterface) : added.keys ⊆ guarded.keys := by
  rcases List.mem_append.1 present with instances | statics
  · split at instances
    · obtain rfl := List.mem_singleton.1 instances
      exact List.subset_append_left ..
    · cases instances
  · split at statics
    · obtain rfl := List.mem_singleton.1 statics
      exact List.subset_append_right ..
    · cases statics

end AddedMethod

/-- The code of a member mentions guarded fields, checks and added methods only. -/
def Member.Mentions (pool : Pool) (className : String) (keys : List FieldKey) (member : Member) :
    Prop :=
  ∃ body stream, member.HasBody pool body stream ∧
    ∀ instruction ∈ stream.instructions, NullGuard.Mentions pool className keys instruction

/-- An added method mentions the fields that it checks. -/
theorem AddedMethod.IsMember.mentions {pool : Pool} {className : String} {keys : List FieldKey}
    {added : AddedMethod} {member : Member} (isMember : added.IsMember pool className member)
    (among : added.keys ⊆ keys) : member.Mentions pool className keys := by
  obtain ⟨body, stream, group, holds, checks, instructions, -⟩ := isMember.checks
  refine ⟨body, stream, holds, ?_⟩
  rw [instructions, List.forall_mem_append, List.forall_mem_singleton]
  exact ⟨checks.mentions among, .nothing (by decide)⟩

/-! ## Generated bodies -/

/-- Passable instructions and a return are independent of their places. -/
theorem isIndependent_returning (group : List (Instruction Label))
    (passable : ∀ instruction ∈ group, instruction.Passable) :
    ∀ instruction ∈ group ++ [.plain Opcode.vreturn], instruction.isIndependent = true := by
  rw [List.forall_mem_append]
  refine ⟨fun instruction member => (passable instruction member).1, ?_⟩
  intro instruction last
  obtain rfl := List.mem_singleton.1 last
  rfl

/-- A body that was generated from independent instructions decodes to them. -/
theorem Body.holds_of_generate (instructions : List (Instruction Label))
    (independent : ∀ instruction ∈ instructions, instruction.isIndependent = true)
    (maxStack maxLocals : UInt16) (body : Body) (contents : List UInt8)
    (generated : generate (Stream.ofInstructions instructions) maxStack maxLocals = .ok body)
    (wrote : body.written = .ok contents) :
    ∃ stream, parse contents = .ok body ∧ Stream.decode body.code = .ok stream ∧
      stream.instructions = instructions ∧ body.maxStack = maxStack ∧
      body.maxLocals = maxLocals ∧ body.handlers = [] := by
  obtain ⟨encoded, ranEncode, returned⟩ := (Outcome.bind_eq_ok ..).1 generated
  obtain rfl := Except.ok.inj returned
  have flat : (Stream.ofInstructions instructions).flat = instructions :=
    Stream.flatMap_all_bare instructions
  have encodes := (Stream.encode_eq_ok ..).1 ranEncode
  have fits : ∀ instruction ∈ (Stream.ofInstructions instructions).flat, instruction.Fits := by
    rw [flat]
    exact fun instruction member =>
      instruction.fits_of_isIndependent (independent instruction member)
  have length := encodes.length_code fits
  refine ⟨_, (parse_eq_ok ..).2 ⟨⟨?_, ?_⟩, wrote⟩, encodes.decode fits, ?_, rfl, rfl, rfl⟩
  · exact length ▸ encodes.positive
  · exact length ▸ encodes.bounded
  · rw [Stream.instructions_flattened, flat]
    refine (List.map_congr_left fun instruction member => ?_).trans (List.map_id _)
    exact instruction.map_of_isIndependent _ (independent instruction member)

/-! ## Adding -/

namespace Weaving

/-- A method that checks fields comes behind the others, none of which has its name. -/
theorem runs_addCheckMethod (className : String) (added : AddedMethod) (file after : ClassFile)
    (small : file.pool.size ≤ Pool.maxSize)
    (ran : Runs (addCheckMethod className added.name added.access added.maxLocals added.kind
      added.keys) file () after) :
    ∃ pool member, file.pool.GrowsTo pool ∧ added.IsMember pool className member ∧
      file.hasMethod added.name = false ∧
      after = { file with pool, methods := file.methods ++ [member] } := by
  have checking := (runs_get_bind ..).1 ran
  dsimp only at checking
  split at checking
  next =>
    obtain ⟨_, -, failing⟩ := (runs_settle_bind ..).1 checking
    obtain ⟨_, _, failed, -⟩ := (runs_bind ..).1 failing
    exact (not_runs_fail _ _ _ _ failed).elim
  next absent =>
    obtain ⟨group, _, composed, generating⟩ := (runs_bind ..).1 checking
    obtain ⟨first, grown, rfl⟩ := (ClassFile.runs_growing ..).1 composed
    obtain ⟨begun, checks⟩ :=
      runs_fieldChecks _ _ small className added.kind added.keys group grown
    obtain ⟨body, generated, writing⟩ := (runs_settle_bind ..).1 generating
    obtain ⟨contents, wrote, adding⟩ := (runs_settle_bind ..).1 writing
    obtain ⟨second, nameIndex, descriptorIndex, codeIndex, ended, named, described, coded, rfl⟩ :=
      ClassFile.runs_addMethod _ _ (begun.bounded small) _ _ _ _ adding
    obtain ⟨stream, parsed, decoded, instructions, rest⟩ := Body.holds_of_generate _
      (isIndependent_returning group checks.passable) _ _ body contents generated wrote
    have found : second.findAttribute ClassFile.codeName [⟨codeIndex, contents⟩] =
        some ⟨codeIndex, contents⟩ := by
      rw [Pool.findAttribute_cons, if_pos coded]
    have holds : Member.HasBody second ⟨added.access, nameIndex, descriptorIndex,
        [⟨codeIndex, contents⟩]⟩ body stream := ⟨_, found, parsed, decoded⟩
    exact ⟨second, _, .trans _ _ _ begun ended,
      { access := rfl
        named
        described
        attributes := ⟨codeIndex, contents, rfl, coded⟩
        checks := ⟨body, stream, group, holds, checks.grow ended, instructions, rest⟩ },
      Bool.eq_false_iff.2 absent, rfl⟩

/-- The same for a method that may be left out. -/
theorem runs_optionalCheckMethod (className : String) (condition : Bool) (added : AddedMethod)
    (file after : ClassFile) (small : file.pool.size ≤ Pool.maxSize)
    (ran : if condition = true then Runs (addCheckMethod className added.name added.access
      added.maxLocals added.kind added.keys) file () after else after = file) :
    ∃ pool members, file.pool.GrowsTo pool ∧
      List.Forall₂ (AddedMethod.IsMember pool className)
        (if condition = true then [added] else []) members ∧
      (∀ other ∈ if condition = true then [added] else ([] : List AddedMethod),
        file.hasMethod other.name = false) ∧
      after = { file with pool, methods := file.methods ++ members } := by
  split at ran
  next holds =>
    obtain ⟨pool, member, grows, isMember, absent, rfl⟩ :=
      runs_addCheckMethod className added file after small ran
    simp only [if_pos holds]
    exact ⟨pool, [member], grows, .cons isMember .nil, by simpa using absent, rfl⟩
  next fails =>
    simp only [if_neg fails]
    exact ⟨file.pool, [], .refl _, .nil, by simp, by rw [ran, List.append_nil]⟩

/-- A name that no method has in a grown class was had by none before. -/
theorem hasMethod_of_grown (file after : ClassFile) (name : String)
    (absent : after.hasMethod name = false) (grows : file.pool.GrowsTo after.pool)
    (kept : file.methods ⊆ after.methods) : file.hasMethod name = false := by
  rw [ClassFile.hasMethod, List.any_eq_false] at absent ⊢
  intro member inside held
  exact absent member (kept inside) (grows.utf8Is _ _ held)

/-- The steps from a class whose methods have been guarded to the woven class. -/
structure Finishes (model : ClassModel) (policy : Policy) (file woven : ClassFile)
    (results : List (Option (List UInt8 × Statistics))) (statistics : Statistics) : Prop where
  steps : ∃ replaced first second, replaceMethods file results = .ok replaced ∧
    (if (!(GuardedFields.ofPolicy model policy).instances.isEmpty) = true then
      Runs (addInstanceCheck model (GuardedFields.ofPolicy model policy)) replaced () first
    else first = replaced) ∧
    (if (!(GuardedFields.ofPolicy model policy).statics.isEmpty && !model.isInterface) = true then
      Runs (addStaticCheck model (GuardedFields.ofPolicy model policy)) first () second
    else second = first) ∧
    Runs (ClassFile.addAttribute wovenAttribute []) second () woven
  reported : statistics =
    { Statistics.sum ((results.filterMap id).map Prod.snd) with
      rewrittenMethods := (results.filterMap id).length
      synthesizedMethods := (AddedMethod.all (GuardedFields.ofPolicy model policy)
        model.isInterface).length }
  needed : results.filterMap id = [] → (GuardedFields.ofPolicy model policy).isEmpty = false

/-- Weaving guards the methods of a class and then finishes the class, unless there is nothing
to guard. -/
theorem steps_of_weave (file woven : ClassFile) (model : ClassModel) (policy : Policy)
    (result : Option Statistics) (ran : Runs (weave model policy) file result woven) :
    Aligned file model policy ∧ ∃ results pool,
      Runs (guardMethods file.methods model policy (GuardedFields.ofPolicy model policy))
        file.pool results pool ∧
      ((result = none ∧ (GuardedFields.ofPolicy model policy).isEmpty = true ∧
          woven = { file with pool } ∧ results.filterMap id = []) ∨
        ∃ statistics, result = some statistics ∧
          Finishes model policy { file with pool } woven results statistics) := by
  have aligning := (runs_get_bind ..).1 ran
  obtain ⟨_, aligned, guarding⟩ := (runs_settle_bind ..).1 aligning
  obtain ⟨results, _, guarded, ending⟩ := (runs_bind ..).1 guarding
  obtain ⟨pool, wovenMethods, rfl⟩ := (ClassFile.runs_growing ..).1 guarded
  refine ⟨(checkAlignment_eq_ok ..).1 aligned, results, pool, wovenMethods, ?_⟩
  dsimp only at ending
  split at ending
  next nothing =>
    obtain ⟨rfl, rfl⟩ := (runs_pure ..).1 ending
    obtain ⟨unchanged, unguarded⟩ := (Bool.and_eq_true ..).mp nothing
    exact .inl ⟨rfl, unguarded, rfl, List.isEmpty_iff.1 unchanged⟩
  next something =>
    have replacing := (runs_get_bind ..).1 ending
    obtain ⟨replaced, ranReplace, setting⟩ := (runs_settle_bind ..).1 replacing
    obtain ⟨_, _, done, adding⟩ := (runs_bind ..).1 setting
    obtain rfl := (runs_set ..).1 done
    obtain ⟨first, instances, checkingStatics⟩ := (runs_optional_bind ..).1 adding
    obtain ⟨second, statics, finishing⟩ := (runs_optional_bind ..).1 checkingStatics
    obtain ⟨_, _, attributed, last⟩ := (runs_bind ..).1 finishing
    obtain ⟨rfl, rfl⟩ := (runs_pure ..).1 last
    refine .inr ⟨_, rfl, ⟨_, first, second, ranReplace, instances, statics, attributed⟩, ?_, ?_⟩
    · rw [AddedMethod.all, List.length_append]
      cases (GuardedFields.ofPolicy model policy).instances.isEmpty <;>
        cases (GuardedFields.ofPolicy model policy).statics.isEmpty <;>
          cases model.isInterface <;> rfl
    · intro unchanged
      rw [unchanged, List.isEmpty_nil, Bool.true_and, Bool.not_eq_true] at something
      exact something

end Weaving

open Weaving in
/-- All that weaving does to a class in which something is guarded. -/
theorem runs_weave (file woven : ClassFile) (model : ClassModel) (policy : Policy)
    (statistics : Statistics) (small : file.pool.size ≤ Pool.maxSize)
    (ran : Runs (weave model policy) file (some statistics) woven) :
    ∃ (results : List (Option (List UInt8 × Statistics))) (pool grown : Pool)
      (methods members : List Member) (index : UInt16),
      Aligned file model policy ∧
      Runs (guardMethods file.methods model policy (GuardedFields.ofPolicy model policy)) file.pool
        results pool ∧
      replaceMethods { file with pool } results = .ok { file with pool, methods } ∧
      pool.GrowsTo grown ∧
      List.Forall₂ (AddedMethod.IsMember grown model.name)
        (AddedMethod.all (GuardedFields.ofPolicy model policy) model.isInterface) members ∧
      (∀ added ∈ AddedMethod.all (GuardedFields.ofPolicy model policy) model.isInterface,
        ClassFile.hasMethod { file with pool, methods } added.name = false) ∧
      grown.utf8Is index wovenAttribute = true ∧
      woven =
        { file with
          pool := grown
          methods := methods ++ members
          attributes := file.attributes ++ [⟨index, []⟩] } := by
  obtain ⟨aligned, results, pool, guarded, ⟨impossible, -⟩ | ⟨_, -, finishes⟩⟩ :=
    steps_of_weave file woven model policy _ ran
  · cases impossible
  obtain ⟨begun, -⟩ := settled_of_guardMethods _ model policy small pool results guarded
  have smallPool := begun.bounded small
  obtain ⟨_, _, _, replaced, instances, statics, attributed⟩ := finishes.steps
  obtain ⟨methods, -, returned⟩ := (Outcome.bind_eq_ok ..).1 replaced
  obtain rfl := Except.ok.inj returned
  obtain ⟨first, instanceMembers, firstGrown, areInstances, firstAbsent, rfl⟩ :=
    runs_optionalCheckMethod model.name (!(GuardedFields.ofPolicy model policy).instances.isEmpty)
      (.ofInstances (GuardedFields.ofPolicy model policy)) _ _ smallPool instances
  obtain ⟨second, staticMembers, secondGrown, areStatics, secondAbsent, rfl⟩ :=
    runs_optionalCheckMethod model.name
      (!(GuardedFields.ofPolicy model policy).statics.isEmpty && !model.isInterface)
      (.ofStatics (GuardedFields.ofPolicy model policy)) _ _ (firstGrown.bounded smallPool) statics
  obtain ⟨grown, index, lastGrown, named, rfl⟩ := ClassFile.runs_addAttribute _ _
    (secondGrown.bounded (firstGrown.bounded smallPool)) _ _ attributed
  have ended := secondGrown.trans _ _ _ lastGrown
  refine ⟨results, pool, grown, methods, instanceMembers ++ staticMembers, index, aligned, guarded,
    replaced, firstGrown.trans _ _ _ ended,
    List.rel_append (areInstances.imp fun _ _ isMember => isMember.grow ended)
      (areStatics.imp fun _ _ isMember => isMember.grow lastGrown), ?_, named, ?_⟩
  · intro added present
    obtain first | second := List.mem_append.1 present
    · exact firstAbsent added first
    · exact hasMethod_of_grown _ _ _ (secondAbsent added second) firstGrown
        (List.subset_append_left ..)
  · simp only [List.append_assoc]

end NullGuard
