import NullGuard.Proofs.ClassFile.WellFormed
import NullGuard.Proofs.Guard.Steps

/-!
# Woven classes can be read again

Weaving adds constants, methods and an attribute, all of which leave the pool of the
class well-formed, and the name of the class stays where it is. So a woven class that
can be written is read back from what was written, and it is recognised by the
attribute that it carries.
-/

namespace NullGuard

open Stateful

/-! ## Guards -/

/-- Composing the call of a check spoils no pool. -/
instance (kind : CheckKind) : Upholds Pool.WellFormed (checkCall kind) := by
  unfold checkCall
  infer_instance

/-- Composing the guard of the topmost value spoils no pool. -/
instance (kind : CheckKind) : Upholds Pool.WellFormed (checkTop kind) := by
  unfold checkTop
  infer_instance

/-- Composing the guards of fields spoils no pool. -/
instance (className : String) (kind : CheckKind) (keys : List FieldKey) :
    Upholds Pool.WellFormed (fieldChecks className kind keys) := by
  unfold fieldChecks fieldCheck
  infer_instance

namespace MethodPlan

variable (plan : MethodPlan)

/-- Composing the guard of a parameter spoils no pool. -/
instance (parameter : ParameterModel) : Upholds Pool.WellFormed (parameterCheck parameter) := by
  unfold parameterCheck
  infer_instance

/-- Deciding whether a field instruction is guarded spoils no pool. -/
instance (instruction : Instruction Label) :
    Upholds Pool.WellFormed (plan.isGuardedAccess instruction) := by
  unfold isGuardedAccess
  split
  · refine .bind inferInstance fun remembered => ?_
    split <;> infer_instance
  · infer_instance

/-- Composing the guards of the static fields spoils no pool. -/
instance : Upholds Pool.WellFormed plan.staticFieldGroup := by
  unfold staticFieldGroup
  infer_instance

/-- Composing the guards of the instance fields spoils no pool. -/
instance : Upholds Pool.WellFormed plan.instanceFieldGroup := by
  unfold instanceFieldGroup
  infer_instance

/-- Finding what to put in for an instruction spoils no pool. -/
instance (instruction : Instruction Label) :
    Upholds Pool.WellFormed (plan.insertionAt instruction) := by
  unfold insertionAt
  infer_instance

/-- Guarding a stream spoils no pool. -/
instance (stream : Stream) : Upholds Pool.WellFormed (plan.guardStream stream) := by
  unfold guardStream
  infer_instance

/-- Guarding the code of a member spoils no pool. -/
instance (member : Member) : Upholds Pool.WellFormed (plan.guardCode member) := by
  unfold guardCode
  refine .bind inferInstance fun pool => ?_
  split <;> infer_instance

end MethodPlan

/-! ## Classes -/

namespace Weaving

/-- Guarding the methods of a class spoils no pool. -/
instance (members : List Member) (model : ClassModel) (policy : Policy) (guarded : GuardedFields) :
    Upholds Pool.WellFormed (guardMethods members model policy guarded) := by
  unfold guardMethods
  infer_instance

/-- Adding a method with checks spoils no pool. -/
instance (className name : String) (access maxLocals : UInt16) (kind : CheckKind)
    (keys : List FieldKey) :
    Upholds ClassFile.HasPool (addCheckMethod className name access maxLocals kind keys) := by
  unfold addCheckMethod
  refine .bind inferInstance fun file => ?_
  dsimp only
  infer_instance

/-- Adding the method for the instance fields spoils no pool. -/
instance (model : ClassModel) (guarded : GuardedFields) :
    Upholds ClassFile.HasPool (addInstanceCheck model guarded) := by
  unfold addInstanceCheck
  infer_instance

/-- Adding the method for the static fields spoils no pool. -/
instance (model : ClassModel) (guarded : GuardedFields) :
    Upholds ClassFile.HasPool (addStaticCheck model guarded) := by
  unfold addStaticCheck
  infer_instance

/-- Only the methods of a class are replaced. -/
theorem pool_of_replaceMethods (results : List (Option (List UInt8 × Statistics)))
    (file replaced : ClassFile) (ran : replaceMethods file results = .ok replaced) :
    replaced.pool = file.pool := by
  obtain ⟨methods, -, returned⟩ := (Outcome.bind_eq_ok ..).1 ran
  obtain rfl := Except.ok.inj returned
  rfl

end Weaving

open Weaving in
/-- Weaving spoils no pool. -/
instance (model : ClassModel) (policy : Policy) :
    Upholds ClassFile.HasPool (weave model policy) := by
  unfold weave
  refine .bind inferInstance fun file => .bind inferInstance fun _ => ?_
  refine .bind inferInstance fun results => ?_
  dsimp only
  split
  · infer_instance
  · refine upholds_replace (replaceMethods · results) (fun grown replaced ran wellFormed => ?_)
      inferInstance
    rw [ClassFile.HasPool, pool_of_replaceMethods results grown replaced ran]
    exact wellFormed

/-- A woven class is read from what was written of it. It still has its name, and it
carries the attribute of woven classes. -/
theorem parse_of_weave (bytes written : List UInt8) (file woven : ClassFile) (model : ClassModel)
    (policy : Policy) (statistics : Statistics) (name : String)
    (parsed : ClassFile.parse bytes = .ok file) (named : file.name = .ok name)
    (ran : Runs (weave model policy) file (some statistics) woven)
    (wrote : woven.written = .ok written) :
    ClassFile.parse written = .ok woven ∧ woven.name = .ok name ∧ woven.isWoven = true := by
  obtain ⟨isClass, -⟩ := (ClassFile.parse_eq_ok ..).1 parsed
  have small : file.pool.size ≤ Pool.maxSize := isClass.pool.bounded
  have upheld : Upholds ClassFile.HasPool (weave model policy) := inferInstance
  have wellFormed : woven.HasPool := upheld.of_runs ran isClass.pool
  obtain ⟨results, pool, grown, methods, members, index, -, guarded, -, ended, -, -, marked, rfl⟩ :=
    runs_weave file woven model policy statistics small ran
  obtain ⟨begun, -⟩ := Weaving.settled_of_guardMethods file model policy small pool results guarded
  have stays : ClassFile.name { file with
      pool := grown
      methods := methods ++ members
      attributes := file.attributes ++ [⟨index, []⟩] } = .ok name :=
    (begun.trans _ _ _ ended).className _ _ named
  refine ⟨?_, stays, ?_⟩
  · apply (ClassFile.parse_eq_ok ..).2
    exact ⟨⟨wellFormed, name, stays⟩, wrote⟩
  · rw [ClassFile.isWoven, ClassFile.findAttribute, Pool.findAttribute, List.find?_isSome]
    exact ⟨⟨index, []⟩, by simp, marked⟩

end NullGuard
