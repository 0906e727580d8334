import NullGuard.Proofs.Failing.Code
import NullGuard.Proofs.Guard.Steps

/-!
# Ordinary failures of weaving

The model of a class and a policy made from it list what the class lists, and a
method that the model finds code in has a code attribute however the pool has
grown. So what could be a disagreement inside the weaver cannot happen, and any
other failure is ordinary.
-/

namespace NullGuard

open Stateful

/-! ## Guards -/

/-- The pool can have no room for the call of a check. -/
instance (kind : CheckKind) : Ordinary (checkCall kind) := by
  unfold checkCall
  infer_instance

/-- The guard of the topmost value fails as the call in it does. -/
instance (kind : CheckKind) : Ordinary (checkTop kind) := by
  unfold checkTop
  infer_instance

/-- The guards of fields fail as one of them does. -/
instance (className : String) (kind : CheckKind) (keys : List FieldKey) :
    Ordinary (fieldChecks className kind keys) := by
  unfold fieldChecks fieldCheck
  infer_instance

namespace MethodPlan

variable (plan : MethodPlan)

/-- The guard of a parameter fails as the call in it does. -/
instance (parameter : ParameterModel) : Ordinary (parameterCheck parameter) := by
  unfold parameterCheck
  infer_instance

/-- A field instruction can name no member. -/
instance (instruction : Instruction Label) : Ordinary (plan.isGuardedAccess instruction) := by
  unfold isGuardedAccess
  split
  · refine .bind _ fun remembered => ?_
    split <;> infer_instance
  · infer_instance

/-- The guards of the static fields fail as guards of fields do. -/
instance : Ordinary plan.staticFieldGroup := by
  unfold staticFieldGroup
  infer_instance

/-- The guards of the instance fields fail as guards of fields do. -/
instance : Ordinary plan.instanceFieldGroup := by
  unfold instanceFieldGroup
  infer_instance

/-- What is put in for an instruction fails as its guard does, or as the decision about it.
-/
instance (instruction : Instruction Label) : Ordinary (plan.insertionAt instruction) := by
  unfold insertionAt
  infer_instance

/-- Guarding a stream fails as it does at one of the instructions. -/
instance (stream : Stream) : Ordinary (plan.guardStream stream) := by
  unfold guardStream
  infer_instance

end MethodPlan

namespace Weaving

/-- A method with checks can find no room in the pool, or have too many of them for its
code. -/
instance (className name : String) (access maxLocals : UInt16) (kind : CheckKind)
    (keys : List FieldKey) :
    Ordinary (addCheckMethod className name access maxLocals kind keys) := by
  unfold addCheckMethod
  refine .bind _ fun file => ?_
  dsimp only
  infer_instance

/-- The method for the instance fields fails as a method with checks does. -/
instance (model : ClassModel) (guarded : GuardedFields) :
    Ordinary (addInstanceCheck model guarded) := by
  unfold addInstanceCheck
  infer_instance

/-- The method for the static fields fails as a method with checks does. -/
instance (model : ClassModel) (guarded : GuardedFields) :
    Ordinary (addStaticCheck model guarded) := by
  unfold addStaticCheck
  infer_instance

end Weaving

/-! ## Code attributes are there -/

/-- A method whose code attribute is there fails to be woven in ordinary ways only. -/
theorem MethodPlan.ordinary_of_guardCode (plan : MethodPlan) (member : Member)
    (pool grown : Pool) (failure : Failure)
    (coded : (pool.findAttribute ClassFile.codeName member.attributes).isSome = true)
    (failed : Fails (plan.guardCode member) pool failure grown) : failure.Ordinary := by
  obtain impossible | ⟨_, _, looked, failedBehind⟩ := (fails_bind ..).1 failed
  · cases impossible
  obtain ⟨rfl, rfl⟩ := (runs_get ..).1 looked
  split at failedBehind
  next code found => exact Ordinary.of_fails _ failedBehind
  next absent =>
    obtain ⟨code, found⟩ := Option.isSome_iff_exists.1 coded
    exact (absent code found).elim

namespace Weaving

/-- The attribute to be replaced is there if it can be found. -/
theorem isSome_replaceContents (pool : Pool) (name : String) (contents : List UInt8)
    (attributes : List Attribute) :
    (replaceContents pool name contents attributes).isSome =
      (pool.findAttribute name attributes).isSome := by
  induction attributes with
  | nil => rfl
  | cons first others inductionHypothesis =>
    rw [replaceContents, Pool.findAttribute_cons]
    split
    · rfl
    · rw [Option.isSome_map, inductionHypothesis]

variable (file : ClassFile) (model : ClassModel) (policy : Policy)
variable (modelled : ClassModel.ofClass file = .ok model)
include modelled

/-- Every method that has been woven has a code attribute for its new code. -/
theorem exists_replaceMethods (small : file.pool.size ≤ Pool.maxSize) (grown : Pool)
    (results : List (Option (List UInt8 × Statistics)))
    (ran : Runs (guardMethods file.methods model policy (GuardedFields.ofPolicy model policy))
      file.pool results grown) :
    ∃ replaced, replaceMethods { file with pool := grown } results = .ok replaced := by
  obtain ⟨grows, settled⟩ := settled_of_guardMethods file model policy small grown results ran
  have each : ∀ item ∈ (file.methods.zip results).zipIdx,
      ∃ member, replaceCode grown item.2 item.1.1 item.1.2 = .ok member := by
    rintro ⟨⟨member, result⟩, position⟩ inside
    rw [List.mem_zipIdx_iff_getElem?, List.getElem?_zip_eq_some] at inside
    obtain ⟨memberHere, resultHere⟩ := inside
    obtain ⟨item, itemHere, -, coded⟩ :=
      Outcome.getElem?_of_forall₂ settled.flip position result resultHere
    obtain rfl : item.1 = member :=
      Option.some.inj ((List.getElem?_zip_eq_some.1 itemHere).1.symm.trans memberHere)
    cases result with
    | none => exact ⟨item.1, rfl⟩
    | some rewriting =>
      obtain ⟨entry, found⟩ := Option.isSome_iff_exists.1 <|
        findAttribute_of_mem_zip file model policy modelled item (List.mem_of_getElem? itemHere)
          (coded.resolve_right (Option.some_ne_none _))
      have present := isSome_replaceContents grown ClassFile.codeName rewriting.1 item.1.attributes
      rw [grows.findAttribute _ _ _ found] at present
      obtain ⟨attributes, replaced⟩ := Option.isSome_iff_exists.1 present
      exact ⟨{ item.1 with attributes }, by simp only [replaceCode, replaced]⟩
  obtain ⟨members, replaced⟩ := Outcome.exists_mapM_eq_ok
    (fun ((member, code), position) => replaceCode grown position member code) _ each
  exact ⟨_, (Outcome.bind_eq_ok ..).2 ⟨members, replaced, rfl⟩⟩

/-- The pool only grows from method to method, so every code attribute is found. -/
theorem ordinary_of_guardMethods (small : file.pool.size ≤ Pool.maxSize) (failure : Failure)
    (grown : Pool)
    (failed : Fails (guardMethods file.methods model policy (GuardedFields.ofPolicy model policy))
      file.pool failure grown) : failure.Ordinary := by
  rw [guardMethods_eq] at failed
  obtain ⟨item, inside, state, last, grows, failedHere⟩ :=
    exists_of_fails_mapM Pool.GrowsTo Pool.GrowsTo.refl Pool.GrowsTo.trans _ _ _ _ _
      (fun item _ state result next grows stepRan =>
        (settled_of_guardMethod model policy item state next (grows.bounded small) result
          stepRan).1) failed
  rw [guardMethod] at failedHere
  split at failedHere
  next coded =>
    obtain ⟨entry, found⟩ := Option.isSome_iff_exists.1
      (findAttribute_of_mem_zip file model policy modelled item inside coded)
    obtain ⟨inner, failedInside, rfl⟩ := (fails_during ..).1 failedHere
    exact (Failure.ordinary_during ..).2 <| MethodPlan.ordinary_of_guardCode _ item.1 state last
      inner (Option.isSome_iff_exists.2 ⟨entry, grows.findAttribute _ _ _ found⟩) failedInside
  next => cases failedHere

end Weaving

/-! ## Classes -/

open Weaving in
/-- Weaving a class by a policy that lists the same elements fails in ordinary ways
only. -/
theorem ordinary_of_weave (file woven : ClassFile) (model : ClassModel) (policy : Policy)
    (small : file.pool.size ≤ Pool.maxSize) (modelled : ClassModel.ofClass file = .ok model)
    (aligned : Aligned file model policy) (failure : Failure)
    (failed : Fails (weave model policy) file failure woven) : failure.Ordinary := by
  obtain impossible | ⟨_, _, looked, aligning⟩ := (fails_bind ..).1 failed
  · cases impossible
  obtain ⟨rfl, rfl⟩ := (runs_get ..).1 looked
  obtain mismatch | ⟨_, _, settled, guarding⟩ := (fails_bind ..).1 aligning
  · obtain ⟨impossible, -⟩ := (fails_settle ..).1 mismatch
    rw [(checkAlignment_eq_ok ..).2 aligned] at impossible
    cases impossible
  obtain ⟨-, rfl⟩ := (runs_settle ..).1 settled
  obtain failedMethods | ⟨results, _, guarded, ending⟩ := (fails_bind ..).1 guarding
  · obtain ⟨pool, failedHere⟩ := ClassFile.fails_growing _ _ _ _ failedMethods
    exact ordinary_of_guardMethods _ model policy modelled small failure pool failedHere
  obtain ⟨pool, wovenMethods, rfl⟩ := (ClassFile.runs_growing ..).1 guarded
  dsimp only at ending
  split at ending
  next => cases ending
  next =>
    obtain impossible | ⟨_, _, looked, replacing⟩ := (fails_bind ..).1 ending
    · cases impossible
    obtain ⟨rfl, rfl⟩ := (runs_get ..).1 looked
    obtain lost | ⟨_, _, -, adding⟩ := (fails_bind ..).1 replacing
    · obtain ⟨impossible, -⟩ := (fails_settle ..).1 lost
      obtain ⟨replaced, succeeded⟩ :=
        exists_replaceMethods _ model policy modelled small pool results wovenMethods
      cases succeeded.symm.trans impossible
    · exact Ordinary.of_fails _ adding

end NullGuard
