import NullGuard.Proofs.Guard.Groups

/-!
# Guards of a method

Which guards a method demands, in terms of its instructions, its verdicts and the
members that its field instructions name. At an instruction at most one check is
demanded, so a slot holds one guard or none.
-/

namespace NullGuard

open Stateful

/-! ## What a method demands -/

/-- The opcodes that read or write an instance field. -/
def Opcode.IsInstanceAccess (opcode : UInt8) : Prop := opcode = getfield ∨ opcode = putfield

/-- The opcodes that read or write a static field. -/
def Opcode.IsStaticAccess (opcode : UInt8) : Prop := opcode = getstatic ∨ opcode = putstatic

/-- The opcodes at which a check is made. Arguments are checked at no instruction. -/
def CheckKind.opcodes : CheckKind → List UInt8
  | .argument => []
  | .result => [Opcode.areturn]
  | .getField => [Opcode.getfield, Opcode.getstatic]
  | .putField => [Opcode.putfield, Opcode.putstatic]
  | .constructorField | .staticInitializerField => [Opcode.vreturn]

namespace CheckKind

/-- References that are returned concern the check of results alone. -/
theorem areturn_mem_opcodes (kind : CheckKind) :
    Opcode.areturn ∈ kind.opcodes ↔ kind = .result := by
  cases kind <;> decide

/-- Reading a field concerns the check of fields that are read, and no other. -/
theorem read_mem_opcodes (kind : CheckKind) (opcode : UInt8)
    (reads : opcode = Opcode.getfield ∨ opcode = Opcode.getstatic) :
    opcode ∈ kind.opcodes ↔ kind = .getField := by
  obtain rfl | rfl := reads <;> cases kind <;> decide

/-- Writing a field concerns the check of fields that are written, and no other. -/
theorem write_mem_opcodes (kind : CheckKind) (opcode : UInt8)
    (writes : opcode = Opcode.putfield ∨ opcode = Opcode.putstatic) :
    opcode ∈ kind.opcodes ↔ kind = .putField := by
  obtain rfl | rfl := writes <;> cases kind <;> decide

/-- Returning nothing concerns the two checks of fields that an initializer leaves behind.
-/
theorem vreturn_mem_opcodes (kind : CheckKind) :
    Opcode.vreturn ∈ kind.opcodes ↔ kind = .constructorField ∨ kind = .staticInitializerField := by
  cases kind <;> decide

end CheckKind

namespace MethodPlan

/-- A field instruction works on a guarded field: its index names a member of the
class itself, with the name and descriptor of a guarded field. -/
def Accesses (plan : MethodPlan) (pool : Pool) (instruction : Instruction Label) : Prop :=
  ∃ index member, instruction.poolIndex? = some index ∧ pool.memberRef index = .ok member ∧
    member.owner = plan.className ∧
      ((Opcode.IsInstanceAccess instruction.opcode ∧
          ⟨member.name, member.descriptor⟩ ∈ plan.guarded.instances) ∨
        (Opcode.IsStaticAccess instruction.opcode ∧
          ⟨member.name, member.descriptor⟩ ∈ plan.guarded.statics))

/-- What has to hold of a method, and of a field instruction in it, for a check to be
made at an instruction. -/
def Wants (plan : MethodPlan) (accessed : Prop) : CheckKind → Prop
  | .argument => False
  | .result => plan.guardsResult = true
  | .getField | .putField => accessed
  | .constructorField => plan.method.isConstructor = true ∧ plan.guarded.instances ≠ []
  | .staticInitializerField =>
    plan.method.isStaticInitializer = true ∧ plan.guarded.statics ≠ []

/-- A check is demanded at an instruction. -/
def Demands (plan : MethodPlan) (opcode : UInt8) (accessed : Prop) (kind : CheckKind) : Prop :=
  opcode ∈ kind.opcodes ∧ plan.Wants accessed kind

/-- A slot holds the guard that is demanded at its instruction and nothing else. Only
the guard of a field read stands behind its instruction. -/
structure Guards (plan : MethodPlan) (pool : Pool) (accessed : Prop) (slot : Slot) : Prop where
  before : ∀ kind, plan.Demands slot.instruction.opcode accessed kind → kind ≠ .getField →
    plan.IsGuard pool slot.before kind
  after : plan.Demands slot.instruction.opcode accessed .getField →
    plan.IsGuard pool slot.after .getField
  nothingBefore : (∀ kind, plan.Demands slot.instruction.opcode accessed kind →
    kind = .getField) → slot.before = []
  nothingAfter : ¬ plan.Demands slot.instruction.opcode accessed .getField → slot.after = []

/-- No method is a constructor and a static initializer. -/
theorem not_constructor_and_initializer (method : MethodModel)
    (constructing : method.isConstructor = true)
    (initializing : method.isStaticInitializer = true) : False := by
  rw [MethodModel.isConstructor, beq_iff_eq] at constructing
  rw [MethodModel.isStaticInitializer, beq_iff_eq, constructing] at initializing
  exact absurd initializing (by decide)

/-- At most one check is demanded at an instruction. -/
theorem Demands.unique {plan : MethodPlan} {opcode : UInt8} {accessed : Prop}
    {first second : CheckKind} (one : plan.Demands opcode accessed first)
    (other : plan.Demands opcode accessed second) : first = second := by
  obtain ⟨here, wanted⟩ := one
  obtain ⟨there, wantedToo⟩ := other
  cases first with
  | argument => exact wanted.elim
  | result =>
    rw [List.mem_singleton.1 here, second.areturn_mem_opcodes] at there
    exact there.symm
  | getField =>
    exact ((second.read_mem_opcodes opcode (List.mem_pair.1 here)).1 there).symm
  | putField =>
    exact ((second.write_mem_opcodes opcode (List.mem_pair.1 here)).1 there).symm
  | constructorField =>
    rw [List.mem_singleton.1 here, second.vreturn_mem_opcodes] at there
    obtain rfl | rfl := there
    · rfl
    · exact (not_constructor_and_initializer _ wanted.1 wantedToo.1).elim
  | staticInitializerField =>
    rw [List.mem_singleton.1 here, second.vreturn_mem_opcodes] at there
    obtain rfl | rfl := there
    · exact (not_constructor_and_initializer _ wantedToo.1 wanted.1).elim
    · rfl

/-! ## Slots that hold a guard -/

section

variable {plan : MethodPlan} {pool : Pool} {accessed : Prop} {instruction : Instruction Label}
variable {group : List (Instruction Label)} {kind : CheckKind}

/-- Where no check is demanded, the instruction stays alone. -/
theorem guards_bare (nothing : ∀ kind, ¬ plan.Demands instruction.opcode accessed kind) :
    plan.Guards pool accessed (Slot.bare instruction) where
  before kind demanded := (nothing kind demanded).elim
  after demanded := (nothing _ demanded).elim
  nothingBefore _ := rfl
  nothingAfter _ := rfl

/-- A check that is demanded stands in front of the instruction, unless it is about the
value that the instruction gives. -/
theorem guards_before (demanded : plan.Demands instruction.opcode accessed kind)
    (ahead : kind ≠ .getField) (guard : plan.IsGuard pool group kind) :
    plan.Guards pool accessed ⟨group, instruction, []⟩ where
  before _ otherDemanded _ := by
    rw [otherDemanded.unique demanded]
    exact guard
  after otherDemanded := (ahead (demanded.unique otherDemanded)).elim
  nothingBefore none := (ahead (none kind demanded)).elim
  nothingAfter _ := rfl

/-- The check of a value that is read stands behind the instruction that reads it. -/
theorem guards_after (demanded : plan.Demands instruction.opcode accessed .getField)
    (guard : plan.IsGuard pool group .getField) :
    plan.Guards pool accessed ⟨[], instruction, group⟩ where
  before _ otherDemanded ahead := (ahead (otherDemanded.unique demanded)).elim
  after _ := guard
  nothingBefore _ := rfl
  nothingAfter none := (none demanded).elim

end

/-- An instruction stays guarded as the pool grows. -/
theorem Guards.grow {plan : MethodPlan} {pool grown : Pool} {accessed : Prop} {slot : Slot}
    (guards : plan.Guards pool accessed slot) (grows : pool.GrowsTo grown) :
    plan.Guards grown accessed slot where
  before kind demanded ahead := (guards.before kind demanded ahead).grow grows
  after demanded := (guards.after demanded).grow grows
  nothingBefore := guards.nothingBefore
  nothingAfter := guards.nothingAfter

/-- What is put in at an instruction: nothing if no check is demanded there, else the guard
of the check that is demanded, under its kind. -/
inductive Inserts (plan : MethodPlan) (pool : Pool) (opcode : UInt8) (accessed : Prop) :
    Insertion → Prop
  | nothing (none : ∀ kind, ¬ plan.Demands opcode accessed kind) :
      Inserts plan pool opcode accessed .nothing
  | before {kind : CheckKind} {group : List (Instruction Label)}
      (demanded : plan.Demands opcode accessed kind) (ahead : kind ≠ .getField)
      (guard : plan.IsGuard pool group kind) :
      Inserts plan pool opcode accessed (.before kind group)
  | after {group : List (Instruction Label)} (demanded : plan.Demands opcode accessed .getField)
      (guard : plan.IsGuard pool group .getField) :
      Inserts plan pool opcode accessed (.after .getField group)

/-- What is put in for an instruction stays right as the pool grows. -/
theorem Inserts.grow {plan : MethodPlan} {pool grown : Pool} {opcode : UInt8} {accessed : Prop}
    {insertion : Insertion} (inserts : plan.Inserts pool opcode accessed insertion)
    (grows : pool.GrowsTo grown) : plan.Inserts grown opcode accessed insertion := by
  cases inserts with
  | nothing none => exact .nothing none
  | before demanded ahead guard => exact .before demanded ahead (guard.grow grows)
  | after demanded guard => exact .after demanded (guard.grow grows)

/-- The slot of an instruction holds what is demanded there after it has been put in. -/
theorem Inserts.guards {plan : MethodPlan} {pool : Pool} {instruction : Instruction Label}
    {accessed : Prop} {insertion : Insertion}
    (inserts : plan.Inserts pool instruction.opcode accessed insertion) :
    plan.Guards pool accessed (insertion.apply (Slot.bare instruction)) := by
  cases inserts with
  | nothing none => exact guards_bare none
  | before demanded ahead guard => exact guards_before demanded ahead guard
  | after demanded guard => exact guards_after demanded guard

/-- What stands before an instruction is a guard that is demanded there. -/
theorem Guards.exists_before {plan : MethodPlan} {pool : Pool} {accessed : Prop} {slot : Slot}
    (guards : plan.Guards pool accessed slot) (present : slot.before ≠ []) :
    ∃ kind, plan.Demands slot.instruction.opcode accessed kind ∧ kind ≠ .getField ∧
      plan.IsGuard pool slot.before kind := by
  by_contra absent
  refine present (guards.nothingBefore fun kind demanded => ?_)
  by_contra ahead
  exact absent ⟨kind, demanded, ahead, guards.before kind demanded ahead⟩

/-- What stands after an instruction is the guard of a field read. -/
theorem Guards.demanded_after {plan : MethodPlan} {pool : Pool} {accessed : Prop} {slot : Slot}
    (guards : plan.Guards pool accessed slot) (present : slot.after ≠ []) :
    plan.Demands slot.instruction.opcode accessed .getField := by
  by_contra absent
  exact present (guards.nothingAfter absent)

/-- What stands before an instruction as its guard is passable. -/
theorem Guards.passable_before {plan : MethodPlan} {pool : Pool} {accessed : Prop} {slot : Slot}
    (guards : plan.Guards pool accessed slot) :
    ∀ instruction ∈ slot.before, instruction.Passable := by
  intro instruction member
  obtain ⟨kind, -, -, guard⟩ := guards.exists_before (List.ne_nil_of_mem member)
  exact guard.passable instruction member

/-- What stands after an instruction as its guard is passable. -/
theorem Guards.passable_after {plan : MethodPlan} {pool : Pool} {accessed : Prop} {slot : Slot}
    (guards : plan.Guards pool accessed slot) :
    ∀ instruction ∈ slot.after, instruction.Passable := by
  intro instruction member
  have demanded := guards.demanded_after (List.ne_nil_of_mem member)
  exact (guards.after demanded).passable instruction member

/-- Control goes on behind an instruction that has a guard after it. -/
theorem Guards.fallsThrough {plan : MethodPlan} {pool : Pool} {accessed : Prop} {slot : Slot}
    (guards : plan.Guards pool accessed slot) (behind : slot.after ≠ []) :
    slot.instruction.fallsThrough = true := by
  by_cases demanded : plan.Demands slot.instruction.opcode accessed .getField
  · obtain ⟨plainly, stays⟩ : slot.instruction.opcode ≠ Opcode.wide ∧
        Opcode.leaving.contains slot.instruction.opcode = false := by
      obtain same | same := List.mem_pair.1 demanded.1 <;> rw [same] <;> decide
    have acts : slot.instruction.acting = slot.instruction.opcode := by
      rw [Instruction.acting]
      split
      · exact if_neg plainly
      · rfl
    rw [Instruction.fallsThrough, acts, stays]
    rfl
  · exact absurd (guards.nothingAfter demanded) behind

end MethodPlan

end NullGuard
