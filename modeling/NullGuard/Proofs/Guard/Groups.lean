import NullGuard.Guard.Weave
import NullGuard.Proofs.ClassFile.Growth
import NullGuard.Proofs.Code.ControlFlow

/-!
# Guards

What a guard consists of: a relation between a group of instructions and the pool
that its indices refer to. A group goes on to be the same guard when the pool
grows. Its instructions are the same wherever they stand, and control passes
through them.
-/

namespace NullGuard

open Stateful

/-! ## What guards consist of -/

/-- A call of a check. -/
def IsCheckCall (pool : Pool) (kind : CheckKind) (instruction : Instruction Label) : Prop :=
  ∃ index, instruction = .withWord Opcode.invokestatic index ∧
    pool.Spells .methodRef index (.ofMember ⟨helperClass, kind.methodName, kind.methodDescriptor⟩)

/-- The reference on top of the stack is checked and stays there. -/
def ChecksTop (pool : Pool) (kind : CheckKind) (group : List (Instruction Label)) : Prop :=
  ∃ call, group = [.plain Opcode.dup, call] ∧ IsCheckCall pool kind call

/-- A parameter is checked, and the check is told its position in the descriptor. -/
def ChecksParameter (pool : Pool) (parameter : ParameterModel)
    (group : List (Instruction Label)) : Prop :=
  parameter.index < 65536 ∧ ∃ call, IsCheckCall pool .argument call ∧
    group = [.loadLocal parameter.slot, .pushNumber (UInt16.ofNat parameter.index), call]

/-- The instructions that read a field: an instance field of the object in the first
local variable, or a static field. -/
def fieldReading (kind : CheckKind) (field : UInt16) : List (Instruction Label) :=
  if kind = .constructorField then [.plain Opcode.aload0, .withWord Opcode.getfield field]
  else [.withWord Opcode.getstatic field]

/-- A field of a class is checked, and the check is told its name. -/
def ChecksField (pool : Pool) (className : String) (kind : CheckKind) (key : FieldKey)
    (group : List (Instruction Label)) : Prop :=
  ∃ field name call,
    pool.Spells .fieldRef field (.ofMember ⟨className, key.name, key.descriptor⟩) ∧
    pool.SpellsString name (Text.ModifiedUtf8.encode key.name) ∧ IsCheckCall pool kind call ∧
    group = fieldReading kind field ++ [.loadConstant name, call]

/-- Some fields of a class are checked one after the other. -/
def ChecksFields (pool : Pool) (className : String) (kind : CheckKind) (keys : List FieldKey)
    (group : List (Instruction Label)) : Prop :=
  ∃ groups, List.Forall₂ (ChecksField pool className kind) keys groups ∧ group = groups.flatten

namespace MethodPlan

/-- What the guard of a kind consists of in a method. The guard for arguments stands
at the entry, any other one at an instruction. -/
def IsGuard (plan : MethodPlan) (pool : Pool) (group : List (Instruction Label)) :
    CheckKind → Prop
  | .argument => ∃ groups, group = groups.flatten ∧
      List.Forall₂ (ChecksParameter pool) plan.guardedParameters groups
  | .result => ChecksTop pool .result group
  | .putField => ChecksTop pool .putField group
  | .getField => ChecksTop pool .getField group
  | .constructorField => ∃ check,
      group = [.plain Opcode.aload0, .withWord Opcode.invokespecial check] ∧
        pool.Spells .methodRef check
          (.ofMember ⟨plan.className, instanceCheckMethod, checkMethodDescriptor⟩)
  | .staticInitializerField =>
    if plan.isInterface then
      ChecksFields pool plan.className .staticInitializerField plan.guarded.statics group
    else ∃ check, group = [.withWord Opcode.invokestatic check] ∧
      pool.Spells .methodRef check
        (.ofMember ⟨plan.className, staticCheckMethod, checkMethodDescriptor⟩)

end MethodPlan

/-! ## Passable instructions -/

/-- An instruction that is the same wherever it stands and lets control pass. -/
def Instruction.Passable (instruction : Instruction Label) : Prop :=
  instruction.isIndependent = true ∧ instruction.fallsThrough = true

namespace Instruction

/-- Opcodes of two operand bytes that let control pass. -/
theorem passable_withWord (opcode : UInt8) (value : UInt16)
    (shape : Opcode.shape? opcode = some (.fixed 2))
    (stays : Opcode.leaving.contains opcode = false) :
    Passable (withWord opcode value) := by
  have plainly : opcode ≠ Opcode.wide := by
    rintro rfl
    cases shape
  refine ⟨?_, ?_⟩
  · show Opcode.takesBytes opcode (Written.u16 value) = true
    simp only [Opcode.takesBytes, shape]
    rfl
  · have acts : (withWord opcode value : Instruction Label).acting = opcode := if_neg plainly
    rw [fallsThrough, acts, stays]
    rfl

/-- An instruction with an operand of one byte is passed if it does not leave. -/
theorem passable_withByte (opcode value : UInt8)
    (shape : Opcode.shape? opcode = some (.fixed 1))
    (stays : Opcode.leaving.contains opcode = false) :
    Passable (withByte opcode value) := by
  have plainly : opcode ≠ Opcode.wide := by
    rintro rfl
    cases shape
  refine ⟨?_, ?_⟩
  · show Opcode.takesBytes opcode [value] = true
    rw [Opcode.takesBytes, shape]
    rfl
  · have acts : (withByte opcode value : Instruction Label).acting = opcode := if_neg plainly
    rw [fallsThrough, acts, stays]
    rfl

/-- An instruction without operands is passed if it does not leave. -/
theorem passable_plain (opcode : UInt8) (shape : Opcode.shape? opcode = some (.fixed 0))
    (stays : Opcode.leaving.contains opcode = false) : Passable (plain opcode) := by
  refine ⟨?_, ?_⟩
  · show Opcode.takesBytes opcode [] = true
    rw [Opcode.takesBytes, shape]
    rfl
  · show (!Opcode.leaving.contains opcode) = true
    rw [stays]
    rfl

/-- The opcodes that load a reference from one of the first four variables. -/
theorem passable_loadLocal (slot : UInt16) : Passable (loadLocal slot) := by
  rw [loadLocal]
  split
  next small =>
    have shapes : ∀ low : Fin 4, Opcode.shape? (Opcode.aload0 + UInt8.ofNat low) = some (.fixed 0) ∧
        Opcode.leaving.contains (Opcode.aload0 + UInt8.ofNat low) = false := by
      decide
    have bound : slot.toNat < 4 := by
      have := UInt16.le_iff_toNat_le.1 small
      have : (3 : UInt16).toNat = 3 := rfl
      omega
    have known := shapes ⟨slot.toNat, bound⟩
    exact passable_plain _ known.1 known.2
  next =>
    split
    · exact passable_withByte _ _ (by decide) (by decide)
    · exact ⟨rfl, rfl⟩

/-- The opcodes that push one of the numbers up to five. -/
theorem passable_pushNumber (value : UInt16) : Passable (pushNumber value) := by
  rw [pushNumber]
  split
  next small =>
    have shapes : ∀ low : Fin 6,
        Opcode.shape? (Opcode.iconst0 + UInt8.ofNat low) = some (.fixed 0) ∧
          Opcode.leaving.contains (Opcode.iconst0 + UInt8.ofNat low) = false := by
      decide
    have bound : value.toNat < 6 := Nat.lt_succ_of_le (UInt16.le_iff_toNat_le.1 small)
    have known := shapes ⟨value.toNat, bound⟩
    exact passable_plain _ known.1 known.2
  next =>
    split
    · exact passable_withByte _ _ (by decide) (by decide)
    · exact passable_withWord _ _ (by decide) (by decide)

/-- Loading a constant is passed, whichever form its index asks for. -/
theorem passable_loadConstant (index : UInt16) : Passable (loadConstant index) := by
  rw [loadConstant]
  split
  · exact passable_withByte _ _ (by decide) (by decide)
  · exact passable_withWord _ _ (by decide) (by decide)

end Instruction

/-- The call of a check is passed if the check returns. -/
theorem IsCheckCall.passable {pool : Pool} {kind : CheckKind} {instruction : Instruction Label}
    (call : IsCheckCall pool kind instruction) : instruction.Passable := by
  obtain ⟨index, rfl, -⟩ := call
  exact Instruction.passable_withWord _ _ (by decide) (by decide)

/-- The guard of the topmost value is passed from its front to its end. -/
theorem ChecksTop.passable {pool : Pool} {kind : CheckKind} {group : List (Instruction Label)}
    (checks : ChecksTop pool kind group) : ∀ instruction ∈ group, instruction.Passable := by
  obtain ⟨call, rfl, isCall⟩ := checks
  simp only [List.forall_mem_cons, List.not_mem_nil, false_imp_iff, implies_true, and_true]
  exact ⟨Instruction.passable_plain _ (by decide) (by decide), isCall.passable⟩

/-- The guard of a parameter is passed from its front to its end. -/
theorem ChecksParameter.passable {pool : Pool} {parameter : ParameterModel}
    {group : List (Instruction Label)} (checks : ChecksParameter pool parameter group) :
    ∀ instruction ∈ group, instruction.Passable := by
  obtain ⟨-, call, isCall, rfl⟩ := checks
  simp only [List.forall_mem_cons, List.not_mem_nil, false_imp_iff, implies_true, and_true]
  exact ⟨Instruction.passable_loadLocal _, Instruction.passable_pushNumber _, isCall.passable⟩

/-- Reading a field for a check is passed. -/
theorem passable_fieldReading (kind : CheckKind) (field : UInt16) :
    ∀ instruction ∈ fieldReading kind field, instruction.Passable := by
  rw [fieldReading]
  split <;>
    simp only [List.forall_mem_cons, List.not_mem_nil, false_imp_iff, implies_true, and_true]
  · exact ⟨Instruction.passable_plain _ (by decide) (by decide),
      Instruction.passable_withWord _ _ (by decide) (by decide)⟩
  · exact Instruction.passable_withWord _ _ (by decide) (by decide)

/-- The guard of a field is passed from its front to its end. -/
theorem ChecksField.passable {pool : Pool} {className : String} {kind : CheckKind}
    {key : FieldKey} {group : List (Instruction Label)}
    (checks : ChecksField pool className kind key group) :
    ∀ instruction ∈ group, instruction.Passable := by
  obtain ⟨field, name, call, -, -, isCall, rfl⟩ := checks
  rw [List.forall_mem_append]
  refine ⟨passable_fieldReading kind field, ?_⟩
  simp only [List.forall_mem_cons, List.not_mem_nil, false_imp_iff, implies_true, and_true]
  exact ⟨Instruction.passable_loadConstant name, isCall.passable⟩

/-- Groups of passable instructions one after the other. -/
theorem passable_flatten {α : Type} {Checks : α → List (Instruction Label) → Prop}
    (passable : ∀ item group, Checks item group → ∀ instruction ∈ group, instruction.Passable)
    (items : List α) (groups : List (List (Instruction Label)))
    (each : List.Forall₂ Checks items groups) :
    ∀ instruction ∈ groups.flatten, instruction.Passable := by
  intro instruction member
  obtain ⟨group, inside, here⟩ := List.mem_flatten.1 member
  obtain ⟨item, -, checks⟩ := Outcome.exists_of_forall₂ each group inside
  exact passable item group checks instruction here

/-- The guards of fields in a row are passed one after the other. -/
theorem ChecksFields.passable {pool : Pool} {className : String} {kind : CheckKind}
    {keys : List FieldKey} {group : List (Instruction Label)}
    (checks : ChecksFields pool className kind keys group) :
    ∀ instruction ∈ group, instruction.Passable := by
  obtain ⟨groups, each, rfl⟩ := checks
  exact passable_flatten (fun _ _ checks => checks.passable) _ groups each

/-- Every guard is passable. -/
theorem MethodPlan.IsGuard.passable {plan : MethodPlan} {pool : Pool}
    {group : List (Instruction Label)} {kind : CheckKind} (guard : plan.IsGuard pool group kind) :
    ∀ instruction ∈ group, instruction.Passable := by
  cases kind with
  | argument =>
    obtain ⟨groups, rfl, each⟩ := guard
    exact passable_flatten (fun _ _ checks => checks.passable) _ groups each
  | result => exact ChecksTop.passable guard
  | putField => exact ChecksTop.passable guard
  | getField => exact ChecksTop.passable guard
  | constructorField =>
    obtain ⟨check, rfl, -⟩ := guard
    simp only [List.forall_mem_cons, List.not_mem_nil, false_imp_iff, implies_true, and_true]
    exact ⟨Instruction.passable_plain _ (by decide) (by decide),
      Instruction.passable_withWord _ _ (by decide) (by decide)⟩
  | staticInitializerField =>
    rw [IsGuard] at guard
    split at guard
    next => exact ChecksFields.passable guard
    next =>
      obtain ⟨check, rfl, -⟩ := guard
      simp only [List.forall_mem_cons, List.not_mem_nil, false_imp_iff, implies_true, and_true]
      exact Instruction.passable_withWord _ _ (by decide) (by decide)

/-! ## Guards in growing pools -/

section

variable {pool grown : Pool} (grows : pool.GrowsTo grown)
include grows

/-- The call of a check stays one as the pool grows. -/
theorem IsCheckCall.grow {kind : CheckKind} {instruction : Instruction Label}
    (call : IsCheckCall pool kind instruction) : IsCheckCall grown kind instruction := by
  obtain ⟨index, same, method⟩ := call
  exact ⟨index, same, method.grow grows⟩

/-- The guard of the topmost value stays one as the pool grows. -/
theorem ChecksTop.grow {kind : CheckKind} {group : List (Instruction Label)}
    (checks : ChecksTop pool kind group) : ChecksTop grown kind group := by
  obtain ⟨call, same, isCall⟩ := checks
  exact ⟨call, same, isCall.grow grows⟩

/-- The guard of a parameter stays one as the pool grows. -/
theorem ChecksParameter.grow {parameter : ParameterModel} {group : List (Instruction Label)}
    (checks : ChecksParameter pool parameter group) : ChecksParameter grown parameter group := by
  obtain ⟨bound, call, isCall, same⟩ := checks
  exact ⟨bound, call, isCall.grow grows, same⟩

/-- The guard of a field stays one as the pool grows. -/
theorem ChecksField.grow {className : String} {kind : CheckKind} {key : FieldKey}
    {group : List (Instruction Label)} (checks : ChecksField pool className kind key group) :
    ChecksField grown className kind key group := by
  obtain ⟨field, name, call, ofField, ofName, isCall, same⟩ := checks
  exact ⟨field, name, call, ofField.grow grows, ofName.grow grows, isCall.grow grows, same⟩

/-- The guards of fields in a row stay guards as the pool grows. -/
theorem ChecksFields.grow {className : String} {kind : CheckKind} {keys : List FieldKey}
    {group : List (Instruction Label)} (checks : ChecksFields pool className kind keys group) :
    ChecksFields grown className kind keys group := by
  obtain ⟨groups, each, same⟩ := checks
  exact ⟨groups, each.imp fun _ _ checks => checks.grow grows, same⟩

/-- A guard stays the guard that it is. -/
theorem MethodPlan.IsGuard.grow {plan : MethodPlan} {group : List (Instruction Label)}
    {kind : CheckKind} (guard : plan.IsGuard pool group kind) : plan.IsGuard grown group kind := by
  cases kind with
  | argument =>
    obtain ⟨groups, same, each⟩ := guard
    exact ⟨groups, same, each.imp fun _ _ checks => checks.grow grows⟩
  | result => exact ChecksTop.grow grows guard
  | putField => exact ChecksTop.grow grows guard
  | getField => exact ChecksTop.grow grows guard
  | constructorField =>
    obtain ⟨check, same, method⟩ := guard
    exact ⟨check, same, method.grow grows⟩
  | staticInitializerField =>
    rw [IsGuard] at guard ⊢
    split at guard
    next inPlace =>
      rw [if_pos inPlace]
      exact ChecksFields.grow grows guard
    next byCall =>
      rw [if_neg byCall]
      obtain ⟨check, same, method⟩ := guard
      exact ⟨check, same, method.grow grows⟩

end

/-! ## Composing guards -/

section

variable (pool grown : Pool) (small : pool.size ≤ Pool.maxSize)
include small

/-- The call that is made for a check calls its method. -/
theorem runs_checkCall (kind : CheckKind) (instruction : Instruction Label)
    (ran : Runs (checkCall kind) pool instruction grown) :
    pool.GrowsTo grown ∧ IsCheckCall grown kind instruction := by
  obtain ⟨index, added, rfl⟩ := (runs_bind_pure ..).1 ran
  obtain ⟨grows, ofMethod⟩ := Pool.runs_addMember .methodRef _ _ _ _ _ _ small added
  exact ⟨grows, index, rfl, ofMethod⟩

/-- The group that is made for the topmost value checks that value. -/
theorem runs_checkTop (kind : CheckKind) (group : List (Instruction Label))
    (ran : Runs (checkTop kind) pool group grown) :
    pool.GrowsTo grown ∧ ChecksTop grown kind group := by
  obtain ⟨call, called, rfl⟩ := (runs_bind_pure ..).1 ran
  obtain ⟨grows, isCall⟩ := runs_checkCall _ _ small _ _ called
  exact ⟨grows, call, rfl, isCall⟩

/-- The group that is made for a parameter checks that parameter and tells its position. -/
theorem runs_parameterCheck (parameter : ParameterModel) (group : List (Instruction Label))
    (ran : Runs (MethodPlan.parameterCheck parameter) pool group grown) :
    pool.GrowsTo grown ∧ ChecksParameter grown parameter group := by
  rw [MethodPlan.parameterCheck] at ran
  split at ran
  next =>
    obtain ⟨_, middle, failed, -⟩ := (runs_bind ..).1 ran
    exact (not_runs_fail _ _ _ _ failed).elim
  next bound =>
    obtain ⟨call, called, rfl⟩ := (runs_bind_pure ..).1 ran
    obtain ⟨grows, isCall⟩ := runs_checkCall _ _ small _ _ called
    exact ⟨grows, by omega, call, isCall, rfl⟩

/-- The group that is made for a field reads and checks that field. -/
theorem runs_fieldCheck (className : String) (kind : CheckKind) (key : FieldKey)
    (group : List (Instruction Label))
    (ran : Runs (fieldCheck className kind key) pool group grown) :
    pool.GrowsTo grown ∧ ChecksField grown className kind key group := by
  obtain ⟨field, middle, fieldAdded, ran⟩ := (runs_bind ..).1 ran
  obtain ⟨begun, ofField⟩ := Pool.runs_addMember .fieldRef _ _ _ _ _ _ small fieldAdded
  obtain ⟨name, later, nameAdded, ran⟩ := (runs_bind ..).1 ran
  obtain ⟨between, ofName⟩ := Pool.runs_addString _ _ _ _ (begun.bounded small) nameAdded
  obtain ⟨call, called, rfl⟩ := (runs_bind_pure ..).1 ran
  obtain ⟨ended, isCall⟩ :=
    runs_checkCall _ _ (between.bounded (begun.bounded small)) _ _ called
  exact ⟨.trans _ _ _ begun (.trans _ _ _ between ended), field, name, call,
    (ofField.grow between).grow ended, ofName.grow ended, isCall, rfl⟩

/-- A list of steps that compose groups composes all of them. -/
theorem runs_mapM_groups {α : Type} (Checks : Pool → α → List (Instruction Label) → Prop)
    (lasts : ∀ pool grown item group, Pool.GrowsTo pool grown → Checks pool item group →
      Checks grown item group)
    (step : α → Pool.Growth (List (Instruction Label)))
    (items : List α)
    (one : ∀ pool grown item group, item ∈ items → pool.size ≤ Pool.maxSize →
      Runs (step item) pool group grown → pool.GrowsTo grown ∧ Checks grown item group)
    (groups : List (List (Instruction Label)))
    (ran : Runs (items.mapM step) pool groups grown) :
    pool.GrowsTo grown ∧ List.Forall₂ (Checks grown) items groups :=
  (runsAll_of_runs step items pool grown groups ran).forall₂ Pool.GrowsTo Checks
    Pool.GrowsTo.refl Pool.GrowsTo.trans lasts fun item present state group next grows stepRan =>
      one state next item group present (grows.bounded small) stepRan

/-- The group that is made for some fields checks each of them in turn. The induction is on
the fields; each adds constants behind those of the earlier ones. -/
theorem runs_fieldChecks (className : String) (kind : CheckKind) (keys : List FieldKey)
    (group : List (Instruction Label))
    (ran : Runs (fieldChecks className kind keys) pool group grown) :
    pool.GrowsTo grown ∧ ChecksFields grown className kind keys group := by
  obtain ⟨groups, each, rfl⟩ := (runs_bind_pure ..).1 ran
  obtain ⟨grows, checks⟩ := runs_mapM_groups pool _ small
    (fun pool => ChecksField pool className kind)
    (fun _ _ _ _ grows checks => ChecksField.grow grows checks) _ _
    (fun _ _ key group _ small ran => runs_fieldCheck _ _ small className kind key group ran) _ each
  exact ⟨grows, groups, checks, rfl⟩

/-- The group in front of a return from a constructor guards the instance fields. -/
theorem runs_instanceFieldGroup (plan : MethodPlan) (group : List (Instruction Label))
    (ran : Runs plan.instanceFieldGroup pool group grown) :
    pool.GrowsTo grown ∧ plan.IsGuard grown group .constructorField := by
  obtain ⟨check, added, rfl⟩ := (runs_bind_pure ..).1 ran
  obtain ⟨grows, ofMethod⟩ := Pool.runs_addMember .methodRef _ _ _ _ _ _ small added
  exact ⟨grows, check, rfl, ofMethod⟩

/-- The group in front of a return from the static initializer guards the static fields. -/
theorem runs_staticFieldGroup (plan : MethodPlan) (group : List (Instruction Label))
    (ran : Runs plan.staticFieldGroup pool group grown) :
    pool.GrowsTo grown ∧ plan.IsGuard grown group .staticInitializerField := by
  rw [MethodPlan.staticFieldGroup] at ran
  rw [MethodPlan.IsGuard]
  split at ran
  next inPlace =>
    rw [if_pos inPlace]
    exact runs_fieldChecks _ _ small _ _ _ _ ran
  next byCall =>
    rw [if_neg byCall]
    obtain ⟨check, added, rfl⟩ := (runs_bind_pure ..).1 ran
    obtain ⟨grows, ofMethod⟩ := Pool.runs_addMember .methodRef _ _ _ _ _ _ small added
    exact ⟨grows, check, rfl, ofMethod⟩

end

end NullGuard
