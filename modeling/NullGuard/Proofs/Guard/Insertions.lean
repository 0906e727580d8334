import NullGuard.Proofs.Guard.Demands

/-!
# Putting guards into a method

The weaver goes through the instructions of a method once, while the pool grows
and what is known about members is remembered under their indices. What is
remembered was found out at a field instruction with the same index. As long as
no index serves instance fields and static fields alike, that settles the later
instruction as well, so each slot gets exactly the guard that is demanded there.
-/

namespace NullGuard.MethodPlan

open Stateful

/-! ## Members -/

/-- No opcode works on instance fields and on static fields. -/
theorem not_instance_and_static (opcode : UInt8) (instanceAccess : Opcode.IsInstanceAccess opcode)
    (staticAccess : Opcode.IsStaticAccess opcode) : False := by
  obtain rfl | rfl := instanceAccess <;> obtain same | same := staticAccess <;> cases same

/-- No index serves an instance field and a static field. -/
def Separate (instructions : List (Instruction Label)) : Prop :=
  ∀ first ∈ instructions, ∀ second ∈ instructions, Opcode.IsInstanceAccess first.opcode →
    Opcode.IsStaticAccess second.opcode → ∀ index, first.poolIndex? = some index →
      second.poolIndex? ≠ some index

/-- Field instructions of one index work on the same kind of fields. -/
theorem Separate.agree {instructions : List (Instruction Label)}
    (separate : Separate instructions) {first second : Instruction Label}
    (firstPresent : first ∈ instructions) (secondPresent : second ∈ instructions)
    (firstAccess : Opcode.IsInstanceAccess first.opcode ∨ Opcode.IsStaticAccess first.opcode)
    (secondAccess : Opcode.IsInstanceAccess second.opcode ∨ Opcode.IsStaticAccess second.opcode)
    {index : UInt16} (firstIndexed : first.poolIndex? = some index)
    (secondIndexed : second.poolIndex? = some index) :
    (Opcode.IsInstanceAccess first.opcode ↔ Opcode.IsInstanceAccess second.opcode) ∧
      (Opcode.IsStaticAccess first.opcode ↔ Opcode.IsStaticAccess second.opcode) := by
  have onward := separate first firstPresent second secondPresent
  have back := separate second secondPresent first firstPresent
  have firstApart := not_instance_and_static first.opcode
  have secondApart := not_instance_and_static second.opcode
  obtain firstAccess | firstAccess := firstAccess <;>
    obtain secondAccess | secondAccess := secondAccess
  · exact ⟨iff_of_true firstAccess secondAccess, iff_of_false (firstApart firstAccess)
      (secondApart secondAccess)⟩
  · exact (onward firstAccess secondAccess index firstIndexed secondIndexed).elim
  · exact (back secondAccess firstAccess index secondIndexed firstIndexed).elim
  · exact ⟨iff_of_false (fun within => firstApart within firstAccess)
      fun within => secondApart within secondAccess, iff_of_true firstAccess secondAccess⟩

/-- The index of an instruction can be resolved if it is a field instruction. -/
def Resolves (pool : Pool) (instruction : Instruction Label) : Prop :=
  Opcode.IsInstanceAccess instruction.opcode ∨ Opcode.IsStaticAccess instruction.opcode →
    ∃ index member, instruction.poolIndex? = some index ∧ pool.memberRef index = .ok member

/-- A member that an instruction names is still found as the pool grows. -/
theorem Resolves.grow {pool grown : Pool} {instruction : Instruction Label}
    (resolves : Resolves pool instruction) (grows : pool.GrowsTo grown) :
    Resolves grown instruction := by
  intro access
  obtain ⟨index, member, indexed, resolved⟩ := resolves access
  exact ⟨index, member, indexed, grows.memberRef _ _ resolved⟩

/-- What a resolved instruction accesses. -/
theorem accesses_iff (plan : MethodPlan) (pool : Pool) (instruction : Instruction Label)
    (index : UInt16) (member : MemberRef) (indexed : instruction.poolIndex? = some index)
    (resolved : pool.memberRef index = .ok member) :
    plan.Accesses pool instruction ↔ member.owner = plan.className ∧
      ((Opcode.IsInstanceAccess instruction.opcode ∧
          ⟨member.name, member.descriptor⟩ ∈ plan.guarded.instances) ∨
        (Opcode.IsStaticAccess instruction.opcode ∧
          ⟨member.name, member.descriptor⟩ ∈ plan.guarded.statics)) := by
  constructor
  · rintro ⟨otherIndex, other, otherIndexed, otherResolved, accesses⟩
    obtain rfl := Option.some.inj (indexed.symm.trans otherIndexed)
    obtain rfl := Except.ok.inj (resolved.symm.trans otherResolved)
    exact accesses
  · intro accesses
    exact ⟨index, member, indexed, resolved, accesses⟩

/-- A resolved instruction goes on to access what it accessed. -/
theorem accesses_grow_iff (plan : MethodPlan) {pool grown : Pool} (grows : pool.GrowsTo grown)
    (instruction : Instruction Label) (resolves : Resolves pool instruction) :
    plan.Accesses grown instruction ↔ plan.Accesses pool instruction := by
  by_cases access : Opcode.IsInstanceAccess instruction.opcode ∨
      Opcode.IsStaticAccess instruction.opcode
  · obtain ⟨index, member, indexed, resolved⟩ := resolves access
    rw [plan.accesses_iff grown instruction index member indexed (grows.memberRef _ _ resolved),
      plan.accesses_iff pool instruction index member indexed resolved]
  · have never (pool : Pool) : ¬ plan.Accesses pool instruction := by
      rintro ⟨-, -, -, -, -, ⟨instanceAccess, -⟩ | ⟨staticAccess, -⟩⟩
      · exact access (.inl instanceAccess)
      · exact access (.inr staticAccess)
    simp only [never]

/-- The fields that are looked up for an opcode. -/
theorem accessedBy_eq_true (guarded : GuardedFields) (opcode : UInt8) (key : FieldKey) :
    guarded.accessedBy opcode key = true ↔
      (Opcode.IsInstanceAccess opcode ∧ key ∈ guarded.instances) ∨
        (Opcode.IsStaticAccess opcode ∧ key ∈ guarded.statics) := by
  have apart (within : Opcode.IsInstanceAccess opcode) : ¬ Opcode.IsStaticAccess opcode :=
    not_instance_and_static opcode within
  rw [GuardedFields.accessedBy]
  split
  next instanceAccess =>
    have within : Opcode.IsInstanceAccess opcode := instanceAccess
    simp only [within, apart within, List.contains_iff_mem, true_and, false_and, or_false]
  next noInstanceAccess =>
    have without : ¬ Opcode.IsInstanceAccess opcode := noInstanceAccess
    split
    next staticAccess =>
      have within : Opcode.IsStaticAccess opcode := staticAccess
      simp only [without, within, List.contains_iff_mem, true_and, false_and, false_or]
    next noStaticAccess =>
      have neither : ¬ Opcode.IsStaticAccess opcode := noStaticAccess
      simp only [without, neither, false_and, or_false, Bool.false_eq_true]

/-! ## What is remembered -/

/-- A state while a method is woven: what is remembered and the pool. -/
abbrev Memory := Remembered × Pool

/-- Everything remembered was found out at a field instruction of that index. -/
def Knows (plan : MethodPlan) (instructions : List (Instruction Label)) (memory : Memory) : Prop :=
  ∀ index known, memory.1[index]? = some known → ∃ other ∈ instructions, ∃ member,
    (Opcode.IsInstanceAccess other.opcode ∨ Opcode.IsStaticAccess other.opcode) ∧
      other.poolIndex? = some index ∧ memory.2.memberRef index = .ok member ∧
        (known = true ↔ plan.Accesses memory.2 other)

/-- Nothing is known before the first instruction. -/
theorem knows_nothing (plan : MethodPlan) (instructions : List (Instruction Label)) (pool : Pool) :
    plan.Knows instructions (∅, pool) := by
  intro index known here
  rw [Std.TreeMap.getElem?_emptyc] at here
  cases here

/-- What is known stays right as the pool grows. -/
theorem Knows.grow {plan : MethodPlan} {instructions : List (Instruction Label)}
    {remembered : Remembered} {pool grown : Pool}
    (knows : plan.Knows instructions (remembered, pool)) (grows : pool.GrowsTo grown) :
    plan.Knows instructions (remembered, grown) := by
  intro index known here
  obtain ⟨other, present, member, access, indexed, resolved, settled⟩ := knows index known here
  refine ⟨other, present, member, access, indexed, grows.memberRef _ _ resolved, ?_⟩
  rw [settled, plan.accesses_grow_iff grows other fun _ => ⟨index, member, indexed, resolved⟩]

/-- Weaving goes on: the pool grows, and what is remembered stays well founded. -/
def Continues (plan : MethodPlan) (instructions : List (Instruction Label))
    (before after : Memory) : Prop :=
  before.2.GrowsTo after.2 ∧ (plan.Knows instructions before → plan.Knows instructions after)

/-- The decision made about a field instruction: it can be resolved, and the decision
is right if indices are separate. -/
structure Decides (plan : MethodPlan) (instructions : List (Instruction Label)) (pool : Pool)
    (instruction : Instruction Label) (accessed : Prop) : Prop where
  resolves : Resolves pool instruction
  exactly : Separate instructions → (accessed ↔ plan.Accesses pool instruction)

/-- What has been decided about an instruction stays right as the pool grows. -/
theorem Decides.grow {plan : MethodPlan} {instructions : List (Instruction Label)}
    {pool grown : Pool} {instruction : Instruction Label} {accessed : Prop}
    (decides : plan.Decides instructions pool instruction accessed) (grows : pool.GrowsTo grown) :
    plan.Decides instructions grown instruction accessed where
  resolves := decides.resolves.grow grows
  exactly separate := by
    rw [plan.accesses_grow_iff grows instruction decides.resolves]
    exact decides.exactly separate

/-! ## Steps -/

/-- A decision is taken from what is remembered, or it is found out and then
remembered. -/
theorem runsWith_isGuardedAccess (plan : MethodPlan) (instruction : Instruction Label)
    (before after : Memory) (known : Bool)
    (ran : RunsWith (plan.isGuardedAccess instruction) before known after) :
    ∃ index, instruction.poolIndex? = some index ∧
      ((before.1[index]? = some known ∧ after = before) ∨
        ∃ member, before.1[index]? = none ∧ before.2.memberRef index = .ok member ∧
          known = (member.owner == plan.className &&
            plan.guarded.accessedBy instruction.opcode ⟨member.name, member.descriptor⟩) ∧
          after = (before.1.insert index known, before.2)) := by
  rw [isGuardedAccess] at ran
  cases indexed : instruction.poolIndex? with
  | none =>
    rw [indexed] at ran
    cases (Prod.mk.inj ran).1
  | some index =>
    rw [indexed] at ran
    refine ⟨index, rfl, ?_⟩
    obtain ⟨remembered, same, looked, ran⟩ := (runsWith_bind ..).1 ran
    obtain ⟨rfl, rfl⟩ := (runsWith_remembered ..).1 looked
    split at ran
    next old here =>
      obtain ⟨rfl, rfl⟩ := (runsWith_pure ..).1 ran
      exact .inl ⟨here, rfl⟩
    next unknown =>
      obtain ⟨pool, sameAgain, looked, resolving⟩ := (runsWith_bind ..).1 ran
      obtain ⟨rfl, rfl⟩ := (runsWith_state ..).1 looked
      obtain ⟨member, settled, resolved, remembering⟩ := (runsWith_bind ..).1 resolving
      obtain ⟨resolved, remembers⟩ := (runsWith_lift ..).1 resolved
      obtain ⟨resolved, pools⟩ := (runs_settle ..).1 resolved
      obtain rfl := Prod.ext remembers pools
      obtain ⟨_, inserted, remembered, returned⟩ := (runsWith_bind ..).1 remembering
      obtain rfl := (runsWith_remember ..).1 remembered
      obtain ⟨rfl, rfl⟩ := (runsWith_pure ..).1 returned
      exact .inr ⟨member, Option.eq_none_iff_forall_ne_some.2 unknown, resolved, rfl, rfl⟩

/-- The decision about a field instruction keeps what is remembered well founded, and
with separate indices it is right. -/
theorem decides_of_isGuardedAccess (plan : MethodPlan) (instructions : List (Instruction Label))
    (instruction : Instruction Label) (present : instruction ∈ instructions)
    (access : Opcode.IsInstanceAccess instruction.opcode ∨
      Opcode.IsStaticAccess instruction.opcode)
    (before after : Memory) (known : Bool) (knows : plan.Knows instructions before)
    (ran : RunsWith (plan.isGuardedAccess instruction) before known after) :
    after.2 = before.2 ∧ plan.Knows instructions after ∧
      plan.Decides instructions before.2 instruction (known = true) := by
  obtain ⟨index, indexed, ⟨here, rfl⟩ | ⟨member, -, resolved, rfl, rfl⟩⟩ :=
    runsWith_isGuardedAccess plan instruction before after known ran
  · obtain ⟨other, otherPresent, member, otherAccess, otherIndexed, resolved, settled⟩ :=
      knows index known here
    refine ⟨rfl, knows, fun _ => ⟨index, member, indexed, resolved⟩, fun separate => ?_⟩
    obtain ⟨instances, statics⟩ := separate.agree otherPresent present otherAccess access
      otherIndexed indexed
    rw [settled, plan.accesses_iff _ other index member otherIndexed resolved,
      plan.accesses_iff _ instruction index member indexed resolved, instances, statics]
  · have right : (member.owner == plan.className &&
        plan.guarded.accessedBy instruction.opcode ⟨member.name, member.descriptor⟩) = true ↔
          plan.Accesses before.2 instruction := by
      rw [plan.accesses_iff _ instruction index member indexed resolved, Bool.and_eq_true,
        beq_iff_eq, accessedBy_eq_true]
    refine ⟨rfl, ?_, fun _ => ⟨index, member, indexed, resolved⟩, fun _ => right⟩
    intro other otherKnown here
    rw [Std.TreeMap.getElem?_insert] at here
    split at here
    next same =>
      obtain rfl := Option.some.inj here
      obtain rfl := Std.LawfulEqCmp.eq_of_compare same
      exact ⟨instruction, present, member, access, indexed, resolved, right⟩
    next => exact knows other otherKnown here

/-! ## Choosing the guard at an instruction -/

/-- The guard chosen at an instruction is the one that is demanded there. -/
def Chosen (plan : MethodPlan) (instructions : List (Instruction Label)) (memory : Memory)
    (instruction : Instruction Label) (insertion : Insertion) : Prop :=
  ∃ accessed, plan.Decides instructions memory.2 instruction accessed ∧
    plan.Inserts memory.2 instruction.opcode accessed insertion

/-- Other instructions than field instructions access nothing. -/
theorem decides_of_no_access (plan : MethodPlan) (instructions : List (Instruction Label))
    (pool : Pool) (instruction : Instruction Label)
    (noInstance : ¬ Opcode.IsInstanceAccess instruction.opcode)
    (noStatic : ¬ Opcode.IsStaticAccess instruction.opcode) :
    plan.Decides instructions pool instruction False where
  resolves access := (access.elim noInstance noStatic).elim
  exactly _ := by
    rw [false_iff]
    rintro ⟨-, -, -, -, -, ⟨instanceAccess, -⟩ | ⟨staticAccess, -⟩⟩
    · exact noInstance instanceAccess
    · exact noStatic staticAccess

section

variable (plan : MethodPlan) (instructions : List (Instruction Label))
variable (instruction : Instruction Label) (before after : Memory) (insertion : Insertion)
variable (small : before.2.size ≤ Pool.maxSize) (knows : plan.Knows instructions before)

include knows in
/-- Nothing is put in where nothing is demanded. -/
theorem chosen_nothing (accessed : Prop)
    (decides : plan.Decides instructions before.2 instruction accessed)
    (nothing : ∀ kind, ¬ plan.Demands instruction.opcode accessed kind)
    (ran : RunsWith (pure .nothing) before insertion after) :
    before.2.GrowsTo after.2 ∧ plan.Knows instructions after ∧
      plan.Chosen instructions after instruction insertion := by
  obtain ⟨rfl, rfl⟩ := (runsWith_pure ..).1 ran
  exact ⟨.refl _, knows, accessed, decides, .nothing nothing⟩

include knows in
/-- A group that is composed as the guard demanded is put in as that guard. -/
theorem chosen_composed (accessed : Prop)
    (decides : plan.Decides instructions before.2 instruction accessed) (kind : CheckKind)
    (step : Pool.Growth (List (Instruction Label)))
    (place : List (Instruction Label) → Insertion)
    (composes : ∀ group grown, Runs step before.2 group grown →
      before.2.GrowsTo grown ∧ plan.IsGuard grown group kind)
    (inserts : ∀ pool group, plan.IsGuard pool group kind →
      plan.Inserts pool instruction.opcode accessed (place group))
    (ran : RunsWith (do return place (← (step : Guarding _))) before insertion after) :
    before.2.GrowsTo after.2 ∧ plan.Knows instructions after ∧
      plan.Chosen instructions after instruction insertion := by
  obtain ⟨group, middle, composed, returned⟩ := (runsWith_bind ..).1 ran
  obtain ⟨composed, remembers⟩ := (runsWith_lift ..).1 composed
  obtain ⟨rfl, rfl⟩ := (runsWith_pure ..).1 returned
  obtain ⟨grows, guard⟩ := composes group _ composed
  refine ⟨grows, ?_, accessed, decides.grow grows, inserts _ _ guard⟩
  have kept : plan.Knows instructions (before.1, after.2) := Knows.grow knows grows
  rw [← remembers] at kept
  exact kept

include small knows in
/-- A field instruction is guarded if it is found to access a guarded field. -/
theorem chosen_access (present : instruction ∈ instructions)
    (access : Opcode.IsInstanceAccess instruction.opcode ∨
      Opcode.IsStaticAccess instruction.opcode)
    (kind : CheckKind) (place : List (Instruction Label) → Insertion)
    (only : ∀ other : CheckKind, instruction.opcode ∈ other.opcodes ↔ other = kind)
    (wants : ∀ accessed, plan.Wants accessed kind ↔ accessed)
    (checks : ∀ pool group, ChecksTop pool kind group → plan.IsGuard pool group kind)
    (inserts : ∀ accessed pool group, plan.Demands instruction.opcode accessed kind →
      plan.IsGuard pool group kind →
        plan.Inserts pool instruction.opcode accessed (place group))
    (ran : RunsWith (do
      if ← plan.isGuardedAccess instruction then return place (← checkTop kind)
      else return .nothing) before insertion after) :
    before.2.GrowsTo after.2 ∧ plan.Knows instructions after ∧
      plan.Chosen instructions after instruction insertion := by
  obtain ⟨known, middle, decided, chosen⟩ := (runsWith_bind ..).1 ran
  obtain ⟨pools, knowsStill, decides⟩ := plan.decides_of_isGuardedAccess instructions instruction
    present access before middle known knows decided
  rw [← pools] at decides small ⊢
  by_cases guarded : known = true
  · rw [if_pos guarded] at chosen
    have demanded : plan.Demands instruction.opcode (known = true) kind :=
      ⟨(only kind).2 rfl, (wants _).2 guarded⟩
    refine plan.chosen_composed instructions instruction middle after insertion knowsStill _
      decides kind (checkTop kind) place ?_ (fun pool group => inserts _ pool group demanded) chosen
    intro group grown composed
    obtain ⟨grows, isCheck⟩ := runs_checkTop _ _ small kind group composed
    exact ⟨grows, checks grown group isCheck⟩
  · rw [if_neg guarded] at chosen
    refine plan.chosen_nothing instructions instruction middle after insertion knowsStill _
      decides ?_ chosen
    rintro other ⟨here, wanted⟩
    obtain rfl := (only other).1 here
    exact guarded ((wants _).1 wanted)

include small knows in
/-- In front of a returned reference a guard is put if the result is to be guarded. -/
theorem chosen_areturn (returns : instruction.opcode = Opcode.areturn)
    (ran : RunsWith (if plan.guardsResult then
      do return .before .result (← (checkTop .result : Guarding _))
      else pure .nothing) before insertion after) :
    before.2.GrowsTo after.2 ∧ plan.Knows instructions after ∧
      plan.Chosen instructions after instruction insertion := by
  have decides := plan.decides_of_no_access instructions before.2 instruction
    (by rw [returns, Opcode.IsInstanceAccess]; decide)
    (by rw [returns, Opcode.IsStaticAccess]; decide)
  have only (kind : CheckKind) : instruction.opcode ∈ kind.opcodes ↔ kind = .result := by
    rw [returns, kind.areturn_mem_opcodes]
  by_cases asked : plan.guardsResult = true
  · rw [if_pos asked] at ran
    have demanded : plan.Demands instruction.opcode False .result := ⟨(only _).2 rfl, asked⟩
    apply plan.chosen_composed instructions instruction before after insertion knows False decides
      .result _ (.before .result) _ _ ran
    · intro group grown composed
      exact runs_checkTop _ _ small _ _ composed
    · intro pool group guard
      exact .before demanded (by decide) guard
  · rw [if_neg asked] at ran
    apply plan.chosen_nothing instructions instruction before after insertion knows False decides _
      ran
    rintro kind ⟨here, wanted⟩
    obtain rfl := (only kind).1 here
    exact asked wanted

include small knows in
/-- In front of a return without a value the fields of the object or the class are guarded. -/
theorem chosen_vreturn (returns : instruction.opcode = Opcode.vreturn)
    (ran : RunsWith (if plan.method.isConstructor && !plan.guarded.instances.isEmpty then
      do return .before .constructorField (← (plan.instanceFieldGroup : Guarding _))
      else if plan.method.isStaticInitializer && !plan.guarded.statics.isEmpty then
      do return .before .staticInitializerField (← (plan.staticFieldGroup : Guarding _))
      else pure .nothing) before insertion after) :
    before.2.GrowsTo after.2 ∧ plan.Knows instructions after ∧
      plan.Chosen instructions after instruction insertion := by
  have decides := plan.decides_of_no_access instructions before.2 instruction
    (by rw [returns, Opcode.IsInstanceAccess]; decide)
    (by rw [returns, Opcode.IsStaticAccess]; decide)
  have only (kind : CheckKind) : instruction.opcode ∈ kind.opcodes ↔
      kind = .constructorField ∨ kind = .staticInitializerField := by
    rw [returns, kind.vreturn_mem_opcodes]
  have composed := plan.chosen_composed instructions instruction before after insertion knows False
    decides
  by_cases constructs : (plan.method.isConstructor && !plan.guarded.instances.isEmpty) = true
  · rw [if_pos constructs] at ran
    have wanted : plan.Wants False .constructorField := by
      simpa [Wants] using constructs
    have demanded : plan.Demands instruction.opcode False .constructorField :=
      ⟨(only _).2 (.inl rfl), wanted⟩
    apply composed .constructorField _ (.before .constructorField) _ _ ran
    · intro group grown composed
      exact runs_instanceFieldGroup _ _ small _ _ composed
    · intro pool group guard
      exact .before demanded (by decide) guard
  rw [if_neg constructs] at ran
  by_cases initializes : (plan.method.isStaticInitializer && !plan.guarded.statics.isEmpty) = true
  · rw [if_pos initializes] at ran
    have wanted : plan.Wants False .staticInitializerField := by
      simpa [Wants] using initializes
    have demanded : plan.Demands instruction.opcode False .staticInitializerField :=
      ⟨(only _).2 (.inr rfl), wanted⟩
    apply composed .staticInitializerField _ (.before .staticInitializerField) _ _ ran
    · intro group grown composed
      exact runs_staticFieldGroup _ _ small _ _ composed
    · intro pool group guard
      exact .before demanded (by decide) guard
  · rw [if_neg initializes] at ran
    apply plan.chosen_nothing instructions instruction before after insertion knows False decides _
      ran
    rintro kind ⟨here, wanted⟩
    obtain rfl | rfl := (only kind).1 here
    · exact constructs (by simpa [Wants] using wanted)
    · exact initializes (by simpa [Wants] using wanted)

include small knows in
/-- At every instruction the guard is chosen that is demanded there. -/
theorem chosen_insertionAt (present : instruction ∈ instructions)
    (ran : RunsWith (plan.insertionAt instruction) before insertion after) :
    before.2.GrowsTo after.2 ∧ plan.Knows instructions after ∧
      plan.Chosen instructions after instruction insertion := by
  rw [insertionAt] at ran
  by_cases results : instruction.opcode = Opcode.areturn
  · rw [if_pos results] at ran
    exact plan.chosen_areturn instructions instruction before after insertion small knows results
      ran
  rw [if_neg results] at ran
  by_cases reads : instruction.opcode = Opcode.getfield ∨ instruction.opcode = Opcode.getstatic
  · rw [if_pos reads] at ran
    exact plan.chosen_access instructions instruction before after insertion small knows present
      (reads.imp .inl .inl) .getField (.after .getField)
      (fun kind => kind.read_mem_opcodes _ reads) (fun _ => Iff.rfl) (fun _ _ => id)
      (fun _ _ _ => .after) ran
  rw [if_neg reads] at ran
  by_cases writes : instruction.opcode = Opcode.putfield ∨ instruction.opcode = Opcode.putstatic
  · rw [if_pos writes] at ran
    exact plan.chosen_access instructions instruction before after insertion small knows present
      (writes.imp .inr .inr) .putField (.before .putField)
      (fun kind => kind.write_mem_opcodes _ writes) (fun _ => Iff.rfl) (fun _ _ => id)
      (fun _ _ _ demanded => .before demanded (by decide)) ran
  rw [if_neg writes] at ran
  by_cases returns : instruction.opcode = Opcode.vreturn
  · rw [if_pos returns] at ran
    exact plan.chosen_vreturn instructions instruction before after insertion small knows returns
      ran
  rw [if_neg returns] at ran
  have decides := plan.decides_of_no_access instructions before.2 instruction
    (fun access => access.elim (fun same => reads (.inl same)) fun same => writes (.inl same))
    (fun access => access.elim (fun same => reads (.inr same)) fun same => writes (.inr same))
  apply plan.chosen_nothing instructions instruction before after insertion knows False decides _ ran
  rintro kind ⟨here, wanted⟩
  cases kind with
  | argument => exact wanted
  | result => exact results (List.mem_singleton.1 here)
  | getField => exact reads (by simpa [CheckKind.opcodes] using here)
  | putField => exact writes (by simpa [CheckKind.opcodes] using here)
  | constructorField => exact returns (List.mem_singleton.1 here)
  | staticInitializerField => exact returns (List.mem_singleton.1 here)

end

/-- All instructions get the guards that are demanded at them. -/
theorem chosen_mapM (plan : MethodPlan) (instructions : List (Instruction Label))
    (before after : Memory) (insertions : List Insertion)
    (small : before.2.size ≤ Pool.maxSize) (knows : plan.Knows instructions before)
    (ran : RunsWith (instructions.mapM plan.insertionAt) before insertions after) :
    before.2.GrowsTo after.2 ∧
      List.Forall₂ (plan.Chosen instructions after) instructions insertions := by
  have each := (runsAll_of_runsWith _ _ _ _ _ ran).forall₂ (plan.Continues instructions)
    (plan.Chosen instructions) (fun state => ⟨.refl state.2, id⟩)
    (fun first second third begun ended =>
      ⟨.trans _ _ _ begun.1 ended.1, fun known => ended.2 (begun.2 known)⟩)
    (fun state later instruction insertion grows chosen => by
      obtain ⟨accessed, decides, inserts⟩ := chosen
      exact ⟨accessed, decides.grow grows.1, inserts.grow grows.1⟩)
    fun instruction present state insertion next grows stepRan => by
      obtain ⟨grown, knowsNext, chosen⟩ := plan.chosen_insertionAt instructions instruction state
        next insertion (grows.1.bounded small) (grows.2 knows) present stepRan
      exact ⟨⟨grown, fun _ => knowsNext⟩, chosen⟩
  exact ⟨each.1.1, each.2⟩

/-! ## The stream of a method -/

/-- All that is done to make the stream of a method: groups for the entry are composed, and
something or nothing is chosen for each instruction. Nothing is remembered at first. Each
group is recorded under its kind. -/
theorem runs_guardStream (plan : MethodPlan) (original stream : Stream) (kinds : List CheckKind)
    (pool grown : Pool) (small : pool.size ≤ Pool.maxSize)
    (ran : Runs (plan.guardStream original) pool (stream, kinds) grown) :
    ∃ groups middle insertions remembered,
      Runs (plan.guardedParameters.mapM parameterCheck) pool groups middle ∧
      pool.GrowsTo middle ∧
      (List.Forall₂ (ChecksParameter middle) plan.guardedParameters groups ∧
        kinds = plan.guardedParameters.map (fun _ => .argument) ++
          insertions.flatMap Insertion.kinds) ∧
      RunsWith (original.instructions.mapM plan.insertionAt) (∅, middle) insertions
        (remembered, grown) ∧
      stream =
        { original.insertAtEntry groups.flatten with
          slots := List.zipWith Insertion.apply insertions original.slots } := by
  obtain ⟨groups, middle, composed, choosing⟩ := (runs_bind ..).1 ran
  obtain ⟨begun, checks⟩ := runs_mapM_groups pool middle small ChecksParameter
    (fun _ _ _ _ grows checks => checks.grow grows) parameterCheck _
    (fun _ _ parameter group _ small ran => runs_parameterCheck _ _ small parameter group ran)
    _ composed
  obtain ⟨insertions, last, chosen, returned⟩ := (runs_bind ..).1 choosing
  obtain ⟨⟨results, remembered⟩, walked, same⟩ := (runs_map ..).1 chosen
  obtain rfl : insertions = results := same
  obtain ⟨same, rfl⟩ := (runs_pure ..).1 returned
  obtain ⟨filled, recorded⟩ := Prod.mk.inj same
  exact ⟨groups, middle, insertions, remembered, composed, begun, ⟨checks, recorded⟩, walked,
    filled⟩

/-- The stream of a method holds the groups for the guarded parameters at its entry and what
is demanded at each instruction around that instruction. -/
theorem chosen_of_guardStream (plan : MethodPlan) (original stream : Stream)
    (kinds : List CheckKind) (pool grown : Pool) (small : pool.size ≤ Pool.maxSize)
    (ran : Runs (plan.guardStream original) pool (stream, kinds) grown) :
    pool.GrowsTo grown ∧ ∃ groups insertions remembered,
      List.Forall₂ (ChecksParameter grown) plan.guardedParameters groups ∧
      List.Forall₂ (plan.Chosen original.instructions (remembered, grown)) original.instructions
        insertions ∧
      kinds = plan.guardedParameters.map (fun _ => .argument) ++
        insertions.flatMap Insertion.kinds ∧
      stream =
        { original.insertAtEntry groups.flatten with
          slots := List.zipWith Insertion.apply insertions original.slots } := by
  obtain ⟨groups, middle, insertions, remembered, -, begun, ⟨checks, recorded⟩, walked, rfl⟩ :=
    plan.runs_guardStream original stream kinds pool grown small ran
  obtain ⟨ended, each⟩ := plan.chosen_mapM original.instructions (∅, middle) (remembered, grown)
    insertions (begun.bounded small) (plan.knows_nothing _ middle) walked
  exact ⟨.trans _ _ _ begun ended, groups, insertions, remembered,
    checks.imp fun _ _ checks => checks.grow ended, each, recorded, rfl⟩

end NullGuard.MethodPlan
