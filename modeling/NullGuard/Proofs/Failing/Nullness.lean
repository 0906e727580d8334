import NullGuard.Nullness.Policy
import NullGuard.Proofs.Failing.ClassFile

/-!
# Ordinary failures of models and policies

Markers and descriptors that cannot be read are a matter of the class. So are
markers of packages, as far as the one who is asked for them fails in ordinary ways.
-/

namespace NullGuard

/-! ## Descriptors -/

namespace MethodShape

/-- Parameters can take too many slots. -/
instance (slot : Nat) (placed : List ParameterShape) (types : List FieldType) :
    Ordinary (placeFrom slot placed types) := by
  induction types generalizing slot placed with
  | nil =>
    rw [placeFrom]
    infer_instance
  | cons type others inductionHypothesis =>
    rw [placeFrom]
    infer_instance

/-- A descriptor can be misspelled, or describe too many slots. -/
instance (descriptor : String) (isStatic : Bool) :
    Ordinary (ofDescriptor descriptor isStatic) := by
  unfold ofDescriptor
  split <;> infer_instance

end MethodShape

/-! ## Models -/

namespace Markers

/-- The type of an annotation can be missing from the pool. -/
instance (pool : Pool) (markers : Markers) (types : List UInt16) :
    Ordinary (markers.recordAll pool types) := by
  unfold recordAll
  infer_instance

/-- The markers of a member fail as its annotations do. -/
instance (pool : Pool) (attributes : List Attribute) : Ordinary (ofAttributes pool attributes) := by
  unfold ofAttributes
  infer_instance

end Markers

namespace MethodModel

/-- The rows for the parameters can be more than the parameters. -/
instance (pool : Pool) (name descriptor : String) (parameters : List ParameterModel)
    (rows : List (List UInt16)) :
    Ordinary (markParameters pool name descriptor parameters rows) := by
  unfold markParameters
  infer_instance

/-- A method fails as its name, its descriptor or its markers do. -/
instance (file : ClassFile) (member : Member) : Ordinary (ofMember file member) := by
  unfold ofMember
  infer_instance

end MethodModel

/-- A field fails as its name, its descriptor or its markers do. -/
instance (file : ClassFile) (member : Member) : Ordinary (FieldModel.ofMember file member) := by
  unfold FieldModel.ofMember
  infer_instance

/-- A class is modelled, or one of its parts fails. -/
instance (file : ClassFile) : Ordinary (ClassModel.ofClass file) := by
  unfold ClassModel.ofClass
  infer_instance

/-! ## Policies -/

namespace Resolver

variable (resolver : Resolver) [∀ package, Ordinary (resolver.markers package)]

/-- Asking a package fails as the host does. -/
instance (package : String) : Ordinary (resolver.consult package) := by
  unfold consult
  infer_instance

/-- The verdict on a chain fails as asking one of its packages does. -/
instance (chain : List String) : Ordinary (resolver.chainVerdict chain) := by
  induction chain with
  | nil =>
    rw [chainVerdict]
    infer_instance
  | cons package around inductionHypothesis =>
    rw [chainVerdict]
    split
    · infer_instance
    · refine .bind _ fun findings => ?_
      split <;> infer_instance

/-- The verdict on a package fails as that on its chain does. -/
instance (package : String) : Ordinary (resolver.packageVerdict package) := by
  unfold packageVerdict
  infer_instance

/-- Resolving a class fails as the verdict on its package does. -/
instance (model : ClassModel) : Ordinary (resolver.resolve model) := by
  unfold resolve
  infer_instance

end Resolver

end NullGuard
