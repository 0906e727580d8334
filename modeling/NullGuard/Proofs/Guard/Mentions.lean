import NullGuard.Proofs.Guard.Memory

/-!
# Members that guards mention

The code that weaving puts into a class mentions the fields that are guarded, the checks
of the helper class and the methods that are added, and no other members. Each of them is
spelled with the canonical bytes of its texts, also where the class spells it otherwise.
-/

namespace NullGuard

open Stateful

/-- The opcodes of calls; the last two are for methods of interfaces and for methods that
are found only when a program runs. -/
def Opcode.calls : List UInt8 := [invokevirtual, invokespecial, invokestatic, 0xb9, 0xba]

/-- The opcodes that are for no member. -/
def Opcode.Memberless (opcode : UInt8) : Prop := opcode ∉ fieldAccesses ∧ opcode ∉ calls

/-- Whether an opcode uses no member can be seen from it. -/
instance : DecidablePred Opcode.Memberless := fun _ => inferInstanceAs (Decidable (_ ∧ _))

/-- The fields that are guarded, of both kinds. -/
def GuardedFields.keys (guarded : GuardedFields) : List FieldKey :=
  guarded.instances ++ guarded.statics

/-- An instruction mentions a guarded field of a class, a check, an added method of the
class or no member at all. -/
inductive Mentions (pool : Pool) (className : String) (keys : List FieldKey) :
    Instruction Label → Prop
  | nothing {instruction : Instruction Label} (memberless : Opcode.Memberless instruction.opcode) :
      Mentions pool className keys instruction
  | field {opcode : UInt8} {index : UInt16} (key : FieldKey)
      (access : opcode ∈ Opcode.fieldAccesses) (guarded : key ∈ keys)
      (spells : pool.Spells .fieldRef index (.ofMember ⟨className, key.name, key.descriptor⟩)) :
      Mentions pool className keys (.withWord opcode index)
  | check {index : UInt16} (kind : CheckKind)
      (spells : pool.Spells .methodRef index
        (.ofMember ⟨helperClass, kind.methodName, kind.methodDescriptor⟩)) :
      Mentions pool className keys (.withWord Opcode.invokestatic index)
  | added {opcode : UInt8} {index : UInt16} (name : String) (call : opcode ∈ Opcode.calls)
      (named : name = instanceCheckMethod ∨ name = staticCheckMethod)
      (spells : pool.Spells .methodRef index
        (.ofMember ⟨className, name, checkMethodDescriptor⟩)) :
      Mentions pool className keys (.withWord opcode index)

/-! ## Instructions without members -/

namespace Instruction

/-- Loading a local variable uses no member. -/
theorem memberless_loadLocal (slot : UInt16) :
    Opcode.Memberless (loadLocal slot : Instruction Label).opcode := by
  have short : ∀ low : Fin 4, Opcode.Memberless (Opcode.aload0 + UInt8.ofNat low) := by decide
  rw [loadLocal]
  split
  next small =>
    have bound : slot.toNat < 4 := Nat.lt_succ_of_le (UInt16.le_iff_toNat_le.1 small)
    exact short ⟨slot.toNat, bound⟩
  next =>
    split
    · exact (by decide : Opcode.Memberless Opcode.aload)
    · exact (by decide : Opcode.Memberless Opcode.wide)

/-- Pushing a number uses no member. -/
theorem memberless_pushNumber (value : UInt16) :
    Opcode.Memberless (pushNumber value : Instruction Label).opcode := by
  have short : ∀ low : Fin 6, Opcode.Memberless (Opcode.iconst0 + UInt8.ofNat low) := by decide
  rw [pushNumber]
  split
  next small =>
    have bound : value.toNat < 6 := Nat.lt_succ_of_le (UInt16.le_iff_toNat_le.1 small)
    exact short ⟨value.toNat, bound⟩
  next =>
    split
    · exact (by decide : Opcode.Memberless Opcode.bipush)
    · exact (by decide : Opcode.Memberless Opcode.sipush)

/-- Loading a constant uses no member. -/
theorem memberless_loadConstant (index : UInt16) :
    Opcode.Memberless (loadConstant index : Instruction Label).opcode := by
  rw [loadConstant]
  split
  · exact (by decide : Opcode.Memberless Opcode.ldc)
  · exact (by decide : Opcode.Memberless Opcode.ldcWide)

end Instruction

/-! ## Guards -/

section

variable {pool : Pool} {className : String} {keys : List FieldKey} {kind : CheckKind}
variable {group : List (Instruction Label)}

/-- The call of a check mentions the helper class only. -/
theorem IsCheckCall.mentions {instruction : Instruction Label}
    (call : IsCheckCall pool kind instruction) : Mentions pool className keys instruction := by
  obtain ⟨index, rfl, spells⟩ := call
  exact .check kind spells

/-- The guard of the topmost value mentions the helper class only. -/
theorem ChecksTop.mentions (checks : ChecksTop pool kind group) :
    ∀ instruction ∈ group, Mentions pool className keys instruction := by
  obtain ⟨call, rfl, isCall⟩ := checks
  rw [List.forall_mem_cons, List.forall_mem_singleton]
  exact ⟨.nothing (by decide), isCall.mentions⟩

/-- The guard of a parameter mentions the helper class only. -/
theorem ChecksParameter.mentions {parameter : ParameterModel}
    (checks : ChecksParameter pool parameter group) :
    ∀ instruction ∈ group, Mentions pool className keys instruction := by
  obtain ⟨-, call, isCall, rfl⟩ := checks
  rw [List.forall_mem_cons, List.forall_mem_cons, List.forall_mem_singleton]
  exact ⟨.nothing (Instruction.memberless_loadLocal _),
    .nothing (Instruction.memberless_pushNumber _), isCall.mentions⟩

/-- The guard of a field mentions the helper class and that field. -/
theorem ChecksField.mentions {key : FieldKey} (checks : ChecksField pool className kind key group)
    (guarded : key ∈ keys) : ∀ instruction ∈ group, Mentions pool className keys instruction := by
  obtain ⟨field, name, call, ofField, -, isCall, rfl⟩ := checks
  rw [List.forall_mem_append]
  constructor
  · rw [fieldReading]
    split
    next =>
      rw [List.forall_mem_cons, List.forall_mem_singleton]
      exact ⟨.nothing (by decide), .field key (by decide) guarded ofField⟩
    next =>
      rw [List.forall_mem_singleton]
      exact .field key (by decide) guarded ofField
  · rw [List.forall_mem_cons, List.forall_mem_singleton]
    exact ⟨.nothing (Instruction.memberless_loadConstant name), isCall.mentions⟩

/-- The guards of fields mention the helper class and those fields. -/
theorem ChecksFields.mentions {guarded : List FieldKey}
    (checks : ChecksFields pool className kind guarded group) (among : guarded ⊆ keys) :
    ∀ instruction ∈ group, Mentions pool className keys instruction := by
  obtain ⟨groups, each, rfl⟩ := checks
  intro instruction member
  obtain ⟨group, inside, here⟩ := List.mem_flatten.1 member
  obtain ⟨key, present, checksField⟩ := Outcome.exists_of_forall₂ each group inside
  exact checksField.mentions (among present) instruction here

end

namespace MethodPlan

/-- What the guards of a method may mention. -/
def Mentions (plan : MethodPlan) (pool : Pool) (instruction : Instruction Label) : Prop :=
  NullGuard.Mentions pool plan.className plan.guarded.keys instruction

/-- A guard mentions what the guards of its method may mention. -/
theorem IsGuard.mentions {plan : MethodPlan} {pool : Pool} {group : List (Instruction Label)}
    {kind : CheckKind} (guard : plan.IsGuard pool group kind) :
    ∀ instruction ∈ group, plan.Mentions pool instruction := by
  cases kind with
  | argument =>
    obtain ⟨groups, rfl, each⟩ := guard
    intro instruction member
    obtain ⟨group, inside, here⟩ := List.mem_flatten.1 member
    obtain ⟨parameter, -, checks⟩ := Outcome.exists_of_forall₂ each group inside
    exact checks.mentions instruction here
  | result => exact ChecksTop.mentions guard
  | putField => exact ChecksTop.mentions guard
  | getField => exact ChecksTop.mentions guard
  | constructorField =>
    obtain ⟨check, rfl, spells⟩ := guard
    rw [List.forall_mem_cons, List.forall_mem_singleton]
    exact ⟨.nothing (by decide), .added instanceCheckMethod (by decide) (.inl rfl) spells⟩
  | staticInitializerField =>
    rw [IsGuard] at guard
    split at guard
    next => exact ChecksFields.mentions guard (List.subset_append_right ..)
    next =>
      obtain ⟨check, rfl, spells⟩ := guard
      rw [List.forall_mem_singleton]
      exact .added staticCheckMethod (by decide) (.inr rfl) spells

end MethodPlan

end NullGuard
