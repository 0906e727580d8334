import NullGuard.Proofs.Guard.Insertions

/-!
# What is remembered about fields

Whether a field instruction works on a guarded field depends on the member that its index
names and on the fields that its opcode is for. The weaver remembers the answer under the
index alone, so the first field instruction of an index answers for all of them
(`answered_by_first`). An instruction for the other kind of fields may get a wrong answer
in this way (`answered_by_static_read`).
-/

namespace NullGuard

open Stateful

/-- The opcodes of field instructions. -/
def Opcode.fieldAccesses : List UInt8 := [getfield, putfield, getstatic, putstatic]

/-- A field instruction is one for the fields of objects or one for static fields. -/
theorem Opcode.mem_fieldAccesses (opcode : UInt8) :
    opcode ∈ fieldAccesses ↔ IsInstanceAccess opcode ∨ IsStaticAccess opcode := by
  simp only [fieldAccesses, IsInstanceAccess, IsStaticAccess, List.mem_cons, List.not_mem_nil,
    or_false, or_assoc]

namespace MethodPlan

/-- Whether an instruction is a field instruction of an index. -/
def refersTo (index : UInt16) (instruction : Instruction Label) : Bool :=
  Opcode.fieldAccesses.contains instruction.opcode && instruction.poolIndex? == some index

/-- Referring to an index is being a field instruction with that index. -/
theorem refersTo_iff (index : UInt16) (instruction : Instruction Label) :
    refersTo index instruction = true ↔
      (Opcode.IsInstanceAccess instruction.opcode ∨ Opcode.IsStaticAccess instruction.opcode) ∧
        instruction.poolIndex? = some index := by
  rw [refersTo, Bool.and_eq_true, List.contains_iff_mem, Opcode.mem_fieldAccesses, beq_iff_eq]

/-! ## Memory -/

/-- Of the instructions seen so far, the first field instruction of an index has decided
what is remembered for that index. -/
structure Remembers (plan : MethodPlan) (seen : List (Instruction Label)) (memory : Memory) :
    Prop where
  known : ∀ index answer, memory.1[index]? = some answer →
    ∃ first, seen.find? (refersTo index) = some first ∧ Resolves memory.2 first ∧
      (answer = true ↔ plan.Accesses memory.2 first)
  unknown : ∀ index, memory.1[index]? = none → seen.find? (refersTo index) = none

/-- Nothing is remembered before the first instruction. -/
theorem remembers_nothing (plan : MethodPlan) (pool : Pool) : plan.Remembers [] (∅, pool) where
  known index answer here := by
    rw [Std.TreeMap.getElem?_emptyc] at here
    cases here
  unknown _ _ := rfl

/-- What is remembered stays right as the pool grows. -/
theorem Remembers.grow {plan : MethodPlan} {seen : List (Instruction Label)}
    {remembered : Remembered} {pool grown : Pool}
    (remembers : plan.Remembers seen (remembered, pool)) (grows : pool.GrowsTo grown) :
    plan.Remembers seen (remembered, grown) where
  known index answer here := by
    obtain ⟨first, found, resolves, settled⟩ := remembers.known index answer here
    exact ⟨first, found, resolves.grow grows,
      settled.trans (plan.accesses_grow_iff grows first resolves).symm⟩
  unknown := remembers.unknown

/-- An instruction that is no field instruction is not remembered. -/
theorem Remembers.skip {plan : MethodPlan} {seen : List (Instruction Label)} {memory : Memory}
    (remembers : plan.Remembers seen memory) (instruction : Instruction Label)
    (noAccess : ¬ (Opcode.IsInstanceAccess instruction.opcode ∨
      Opcode.IsStaticAccess instruction.opcode)) :
    plan.Remembers (seen ++ [instruction]) memory := by
  have unseen (index : UInt16) : [instruction].find? (refersTo index) = none := by
    rw [List.find?_singleton, if_neg]
    exact fun refers => noAccess ((refersTo_iff ..).1 refers).1
  constructor
  · intro index answer here
    rw [List.find?_append, unseen, Option.or_none]
    exact remembers.known index answer here
  · intro index here
    rw [List.find?_append, unseen, Option.or_none]
    exact remembers.unknown index here

/-- The answer to a field instruction of an index, when the first instruction of that index
has been asked about. -/
def AnsweredAs (plan : MethodPlan) (pool : Pool) (seen : List (Instruction Label))
    (instruction : Instruction Label) (answer : Prop) : Prop :=
  ∃ index first, instruction.poolIndex? = some index ∧
    seen.find? (refersTo index) = some first ∧ Resolves pool first ∧
    (answer ↔ plan.Accesses pool first)

/-- An answer stays one as the pool grows. -/
theorem AnsweredAs.grow {plan : MethodPlan} {pool grown : Pool}
    {seen : List (Instruction Label)} {instruction : Instruction Label} {answer : Prop}
    (answered : plan.AnsweredAs pool seen instruction answer) (grows : pool.GrowsTo grown) :
    plan.AnsweredAs grown seen instruction answer := by
  obtain ⟨index, first, indexed, found, resolves, settled⟩ := answered
  exact ⟨index, first, indexed, found, resolves.grow grows,
    settled.trans (plan.accesses_grow_iff grows first resolves).symm⟩

/-- An answer stays one as more instructions are seen, since the first one with the index is
still the first. -/
theorem AnsweredAs.append {plan : MethodPlan} {pool : Pool}
    {seen : List (Instruction Label)} {instruction : Instruction Label} {answer : Prop}
    (answered : plan.AnsweredAs pool seen instruction answer)
    (more : List (Instruction Label)) :
    plan.AnsweredAs pool (seen ++ more) instruction answer := by
  obtain ⟨index, first, indexed, found, settled⟩ := answered
  exact ⟨index, first, indexed, by rw [List.find?_append, found, Option.some_or], settled⟩

/-- The answer to a field instruction is the one to the first instruction of its index,
and it is remembered. -/
theorem Remembers.isGuardedAccess {plan : MethodPlan} {seen : List (Instruction Label)}
    {before after : Memory} (remembers : plan.Remembers seen before)
    (instruction : Instruction Label)
    (access : Opcode.IsInstanceAccess instruction.opcode ∨
      Opcode.IsStaticAccess instruction.opcode) (answer : Bool)
    (ran : RunsWith (plan.isGuardedAccess instruction) before answer after) :
    after.2 = before.2 ∧ plan.Remembers (seen ++ [instruction]) after ∧
      plan.AnsweredAs after.2 (seen ++ [instruction]) instruction (answer = true) := by
  obtain ⟨index, indexed, ⟨here, rfl⟩ | ⟨member, unknown, resolved, known, rfl⟩⟩ :=
    runsWith_isGuardedAccess plan instruction before after answer ran
  -- The index has been asked about before, and the first instruction stays the first.
  · obtain ⟨first, found, settled⟩ := remembers.known index answer here
    have answered : plan.AnsweredAs after.2 seen instruction (answer = true) :=
      ⟨index, first, indexed, found, settled⟩
    refine ⟨rfl, ⟨?_, ?_⟩, answered.append _⟩
    · intro other otherAnswer there
      obtain ⟨earlier, foundEarlier, same⟩ := remembers.known other otherAnswer there
      exact ⟨earlier, by rw [List.find?_append, foundEarlier, Option.some_or], same⟩
    · intro other there
      rw [List.find?_append, remembers.unknown other there, Option.none_or, List.find?_singleton,
        if_neg]
      intro refers
      obtain rfl := Option.some.inj (indexed.symm.trans ((refersTo_iff ..).1 refers).2)
      rw [here] at there
      cases there
  -- It has not, so this instruction is the first one with the index from now on.
  · have refers : refersTo index instruction = true := (refersTo_iff ..).2 ⟨access, indexed⟩
    have found : (seen ++ [instruction]).find? (refersTo index) = some instruction := by
      rw [List.find?_append, remembers.unknown index unknown, Option.none_or,
        List.find?_singleton, if_pos refers]
    have resolves : Resolves before.2 instruction := fun _ => ⟨index, member, indexed, resolved⟩
    have settled : answer = true ↔ plan.Accesses before.2 instruction := by
      rw [plan.accesses_iff _ instruction index member indexed resolved, known, Bool.and_eq_true,
        beq_iff_eq, accessedBy_eq_true]
    refine ⟨rfl, ⟨?_, ?_⟩, index, instruction, indexed, found, resolves, settled⟩
    · intro other otherAnswer there
      rw [Std.TreeMap.getElem?_insert] at there
      split at there
      next same =>
        obtain rfl := Option.some.inj there
        obtain rfl := Std.LawfulEqCmp.eq_of_compare same
        exact ⟨instruction, found, resolves, settled⟩
      next =>
        obtain ⟨earlier, foundEarlier, same⟩ := remembers.known other otherAnswer there
        exact ⟨earlier, by rw [List.find?_append, foundEarlier, Option.some_or], same⟩
    · intro other there
      rw [Std.TreeMap.getElem?_insert] at there
      split at there
      next => cases there
      next different =>
        rw [List.find?_append, remembers.unknown other there, Option.none_or,
          List.find?_singleton, if_neg]
        intro refersToo
        obtain rfl := Option.some.inj (indexed.symm.trans ((refersTo_iff ..).1 refersToo).2)
        exact different Std.ReflCmp.compare_self

/-! ## Steps -/

end MethodPlan

namespace Insertion

/-- The instructions that are put in. -/
def group : Insertion → List (Instruction Label)
  | .nothing => []
  | .before _ group | .after _ group => group

/-- A group in front of an instruction is put in. -/
theorem group_before (kind : CheckKind) (group : List (Instruction Label)) :
    before kind group ≠ .nothing ∧ (before kind group).group = group := by
  simp [Insertion.group]

/-- A group behind an instruction is put in. -/
theorem group_after (kind : CheckKind) (group : List (Instruction Label)) :
    after kind group ≠ .nothing ∧ (after kind group).group = group := by
  simp [Insertion.group]

/-- The groups around a bare instruction are what was put in there. -/
theorem groups_apply (insertion : Insertion) (instruction : Instruction Label) :
    (insertion.apply (.bare instruction)).before ++ (insertion.apply (.bare instruction)).after =
      insertion.group := by
  cases insertion with
  | nothing => rfl
  | before kind group => exact List.append_nil group
  | after kind group => rfl

/-- A guard leaves the instruction of its slot as it is. -/
theorem instruction_apply (insertion : Insertion) (slot : Slot) :
    (insertion.apply slot).instruction = slot.instruction := by
  cases insertion <;> rfl

/-- Guards put into the slots of some instructions. -/
theorem slots_apply {Chosen : Instruction Label → Insertion → Prop}
    (instructions : List (Instruction Label)) (insertions : List Insertion)
    (each : List.Forall₂ Chosen instructions insertions) :
    (List.zipWith apply insertions (instructions.map Slot.bare)).map Slot.instruction =
        instructions ∧
      ∀ slot ∈ List.zipWith apply insertions (instructions.map Slot.bare),
        ∃ insertion, Chosen slot.instruction insertion ∧
          slot = insertion.apply (Slot.bare slot.instruction) := by
  induction each with
  | nil => exact ⟨rfl, fun _ member => (List.not_mem_nil member).elim⟩
  | @cons instruction insertion instructions insertions chosen _ inductionHypothesis =>
    have here : (insertion.apply (Slot.bare instruction)).instruction = instruction :=
      instruction_apply insertion (Slot.bare instruction)
    simp only [List.map_cons, List.zipWith_cons_cons, List.forall_mem_cons, here,
      inductionHypothesis.1, true_and]
    exact ⟨⟨insertion, chosen, rfl⟩, inductionHypothesis.2⟩

end Insertion

namespace MethodPlan

/-- The steps that compose the guard at an instruction. -/
inductive Composes (plan : MethodPlan) : Pool.Growth (List (Instruction Label)) → Prop
  | checkTop (kind : CheckKind) : Composes plan (checkTop kind)
  | instanceFields : Composes plan plan.instanceFieldGroup
  | staticFields : Composes plan plan.staticFieldGroup

/-- Composing a guard makes the pool grow. -/
theorem Composes.grows {plan : MethodPlan} {step : Pool.Growth (List (Instruction Label))}
    (composes : plan.Composes step) (pool grown : Pool) (small : pool.size ≤ Pool.maxSize)
    (group : List (Instruction Label)) (ran : Runs step pool group grown) :
    pool.GrowsTo grown := by
  cases composes with
  | checkTop kind => exact (runs_checkTop _ _ small kind group ran).1
  | instanceFields => exact (runs_instanceFieldGroup _ _ small plan group ran).1
  | staticFields => exact (runs_staticFieldGroup _ _ small plan group ran).1

/-- Something is put in or nothing is. -/
inductive Puts (plan : MethodPlan) (pool : Pool) : Insertion → Pool → Prop
  | nothing : Puts plan pool .nothing pool
  | group {step : Pool.Growth (List (Instruction Label))} {insertion : Insertion} {grown : Pool}
      (composes : plan.Composes step) (something : insertion ≠ .nothing)
      (ran : Runs step pool insertion.group grown) : Puts plan pool insertion grown

/-- Putting in a guard makes the pool grow. -/
theorem Puts.grows {plan : MethodPlan} {pool grown : Pool} {insertion : Insertion}
    (puts : plan.Puts pool insertion grown) (small : pool.size ≤ Pool.maxSize) :
    pool.GrowsTo grown := by
  cases puts with
  | nothing => exact .refl _
  | group composes _ ran => exact composes.grows pool grown small _ ran

section

variable (plan : MethodPlan) (before after : Memory) (insertion : Insertion)

/-- Putting in nothing leaves the pool and what is remembered alone. -/
theorem puts_nothing (ran : RunsWith (pure .nothing) before insertion after) :
    after.1 = before.1 ∧ plan.Puts before.2 insertion after.2 := by
  obtain ⟨rfl, rfl⟩ := (runsWith_pure ..).1 ran
  exact ⟨rfl, .nothing⟩

/-- Putting in a group that does not depend on a field remembers nothing. -/
theorem puts_group {step : Pool.Growth (List (Instruction Label))} (composes : plan.Composes step)
    (place : List (Instruction Label) → Insertion)
    (placed : ∀ group, place group ≠ .nothing ∧ (place group).group = group)
    (ran : RunsWith (do return place (← (step : Guarding _))) before insertion after) :
    insertion ≠ .nothing ∧ after.1 = before.1 ∧ plan.Puts before.2 insertion after.2 := by
  obtain ⟨group, middle, composed, returned⟩ := (runsWith_bind ..).1 ran
  obtain ⟨composed, remembers⟩ := (runsWith_lift ..).1 composed
  obtain ⟨rfl, rfl⟩ := (runsWith_pure ..).1 returned
  obtain ⟨something, same⟩ := placed group
  exact ⟨something, remembers, .group composes something (same.symm ▸ composed)⟩

/-- Whether a guard is put in at a field instruction depends on the answer for its index. -/
theorem puts_access (instruction : Instruction Label) (kind : CheckKind)
    (place : List (Instruction Label) → Insertion)
    (placed : ∀ group, place group ≠ .nothing ∧ (place group).group = group)
    (ran : RunsWith (do
      if ← plan.isGuardedAccess instruction then return place (← checkTop kind)
      else return .nothing) before insertion after) :
    ∃ answer middle, RunsWith (plan.isGuardedAccess instruction) before answer middle ∧
      (answer = true ↔ insertion ≠ .nothing) ∧ after.1 = middle.1 ∧
      plan.Puts middle.2 insertion after.2 := by
  obtain ⟨answer, middle, decided, chosen⟩ := (runsWith_bind ..).1 ran
  refine ⟨answer, middle, decided, ?_⟩
  cases answer with
  | true =>
    obtain ⟨something, kept⟩ :=
      plan.puts_group middle after insertion (.checkTop kind) place placed chosen
    exact ⟨iff_of_true rfl something, kept⟩
  | false =>
    have kept := plan.puts_nothing middle after insertion chosen
    obtain ⟨rfl, -⟩ := (runsWith_pure ..).1 chosen
    exact ⟨iff_of_false Bool.false_ne_true (not_not.2 rfl), kept⟩

/-- All that is done at an instruction. Field instructions are asked about, and nothing is
remembered about other ones. -/
theorem insertionAt_cases (instruction : Instruction Label)
    (ran : RunsWith (plan.insertionAt instruction) before insertion after) :
    (instruction.opcode ∈ Opcode.fieldAccesses ∧
      ∃ answer middle, RunsWith (plan.isGuardedAccess instruction) before answer middle ∧
        (answer = true ↔ insertion ≠ .nothing) ∧ after.1 = middle.1 ∧
        plan.Puts middle.2 insertion after.2) ∨
    (instruction.opcode ∉ Opcode.fieldAccesses ∧ after.1 = before.1 ∧
      plan.Puts before.2 insertion after.2) := by
  rw [insertionAt] at ran
  by_cases reads : instruction.opcode = Opcode.getfield ∨ instruction.opcode = Opcode.getstatic
  · have results : instruction.opcode ≠ Opcode.areturn := by
      obtain same | same := reads <;> rw [same] <;> decide
    rw [if_neg results, if_pos reads] at ran
    exact .inl ⟨(Opcode.mem_fieldAccesses _).2 (reads.imp .inl .inl),
      plan.puts_access before after insertion instruction .getField (.after .getField)
        (Insertion.group_after _) ran⟩
  by_cases writes : instruction.opcode = Opcode.putfield ∨ instruction.opcode = Opcode.putstatic
  · have results : instruction.opcode ≠ Opcode.areturn := by
      obtain same | same := writes <;> rw [same] <;> decide
    rw [if_neg results, if_neg reads, if_pos writes] at ran
    exact .inl ⟨(Opcode.mem_fieldAccesses _).2 (writes.imp .inr .inr),
      plan.puts_access before after insertion instruction .putField (.before .putField)
        (Insertion.group_before _) ran⟩
  rw [if_neg reads, if_neg writes] at ran
  refine .inr ⟨?_, ?_⟩
  · rw [Opcode.mem_fieldAccesses]
    rintro ((get | put) | (get | put))
    · exact reads (.inl get)
    · exact writes (.inl put)
    · exact reads (.inr get)
    · exact writes (.inr put)
  have bare := plan.puts_nothing before after insertion
  have grouped {step : Pool.Growth (List (Instruction Label))} (composes : plan.Composes step)
      (kind : CheckKind) :=
    plan.puts_group before after insertion composes (.before kind) (Insertion.group_before kind)
  split at ran
  · split at ran
    · exact (grouped (.checkTop .result) .result ran).2
    · exact bare ran
  · split at ran
    · split at ran
      · exact (grouped .instanceFields .constructorField ran).2
      · split at ran
        · exact (grouped .staticFields .staticInitializerField ran).2
        · exact bare ran
    · exact bare ran

end

/-- One instruction. -/
theorem Remembers.insertionAt {plan : MethodPlan} {seen : List (Instruction Label)}
    {before after : Memory} (remembers : plan.Remembers seen before)
    (small : before.2.size ≤ Pool.maxSize) (instruction : Instruction Label)
    (insertion : Insertion)
    (ran : RunsWith (plan.insertionAt instruction) before insertion after) :
    before.2.GrowsTo after.2 ∧ plan.Remembers (seen ++ [instruction]) after ∧
      (instruction.opcode ∈ Opcode.fieldAccesses →
        plan.AnsweredAs after.2 (seen ++ [instruction]) instruction (insertion ≠ .nothing)) := by
  have grow {memory : Memory} (still : plan.Remembers (seen ++ [instruction]) memory)
      (same : after.1 = memory.1) (grows : memory.2.GrowsTo after.2) :
      plan.Remembers (seen ++ [instruction]) after := by
    have kept : plan.Remembers (seen ++ [instruction]) (memory.1, after.2) :=
      Remembers.grow still grows
    rwa [← same] at kept
  obtain ⟨access, answer, middle, decided, settled, same, puts⟩ | ⟨noAccess, same, puts⟩ :=
    plan.insertionAt_cases before after insertion instruction ran
  · obtain ⟨pools, still, answered⟩ := remembers.isGuardedAccess instruction
      ((Opcode.mem_fieldAccesses _).1 access) answer decided
    rw [← pools] at small ⊢
    have grows := puts.grows small
    exact ⟨grows, grow still same grows, fun _ => propext settled ▸ answered.grow grows⟩
  · have grows := puts.grows small
    have still := remembers.skip instruction fun access =>
      noAccess ((Opcode.mem_fieldAccesses _).2 access)
    exact ⟨grows, grow still same grows, fun access => (noAccess access).elim⟩

/-- Any number of instructions. -/
theorem Remembers.runsAll {plan : MethodPlan} {instructions : List (Instruction Label)}
    {before after : Memory} {insertions : List Insertion}
    (ran : RunsAll (fun instruction => RunsWith (plan.insertionAt instruction)) instructions
      before insertions after)
    (seen : List (Instruction Label)) (remembers : plan.Remembers seen before)
    (small : before.2.size ≤ Pool.maxSize) :
    before.2.GrowsTo after.2 ∧ List.Forall₂ (fun instruction insertion =>
      instruction.opcode ∈ Opcode.fieldAccesses →
        plan.AnsweredAs after.2 (seen ++ instructions) instruction (insertion ≠ .nothing))
      instructions insertions := by
  induction ran generalizing seen with
  | nil state => exact ⟨.refl _, .nil⟩
  | @cons instruction others insertion insertions before middle after first _ inductionHypothesis =>
    obtain ⟨begun, still, answered⟩ := remembers.insertionAt small instruction insertion first
    obtain ⟨ended, rest⟩ := inductionHypothesis (seen ++ [instruction]) still (begun.bounded small)
    rw [List.append_assoc, List.singleton_append] at rest
    refine ⟨.trans _ _ _ begun ended, .cons (fun access => ?_) rest⟩
    have answeredStill := ((answered access).grow ended).append others
    rwa [List.append_assoc, List.singleton_append] at answeredStill

/-- Field instructions of one index and for the same kind of fields access the same. -/
theorem accesses_iff_of_alike {plan : MethodPlan} {pool : Pool} {index : UInt16}
    {first instruction : Instruction Label} (refers : refersTo index first = true)
    (resolves : Resolves pool first) (access : instruction.opcode ∈ Opcode.fieldAccesses)
    (indexed : instruction.poolIndex? = some index)
    (alike : Opcode.IsInstanceAccess first.opcode ↔ Opcode.IsInstanceAccess instruction.opcode) :
    plan.Accesses pool first ↔ plan.Accesses pool instruction := by
  obtain ⟨firstAccess, firstIndexed⟩ := (refersTo_iff ..).1 refers
  obtain ⟨same, member, sameIndexed, resolved⟩ := resolves firstAccess
  obtain rfl := Option.some.inj (firstIndexed.symm.trans sameIndexed)
  have statics : Opcode.IsStaticAccess first.opcode ↔ Opcode.IsStaticAccess instruction.opcode := by
    constructor
    · intro firstStatic
      refine ((Opcode.mem_fieldAccesses _).1 access).resolve_left fun within => ?_
      exact not_instance_and_static _ (alike.2 within) firstStatic
    · intro static
      refine firstAccess.resolve_left fun within => ?_
      exact not_instance_and_static _ (alike.1 within) static
  rw [plan.accesses_iff _ first index member firstIndexed resolved,
    plan.accesses_iff _ instruction index member indexed resolved, alike, statics]

/-! ## Methods -/

/-- A field instruction is guarded if the first one with its index accesses a guarded
field. That is right for the instruction if both are for the same kind of fields. -/
def FollowsFirst (plan : MethodPlan) (pool : Pool) (instructions : List (Instruction Label))
    (instruction : Instruction Label) (insertion : Insertion) : Prop :=
  instruction.opcode ∈ Opcode.fieldAccesses →
    ∃ index first, instruction.poolIndex? = some index ∧
      instructions.find? (refersTo index) = some first ∧
      (insertion ≠ .nothing ↔ plan.Accesses pool first) ∧
      ((Opcode.IsInstanceAccess first.opcode ↔ Opcode.IsInstanceAccess instruction.opcode) →
        (insertion ≠ .nothing ↔ plan.Accesses pool instruction))

/-- The first field instruction of an index answers for all of them. A field instruction
of a method is guarded exactly if the first one with its index accesses a guarded field,
whatever stands between them. So the answer is right for an instruction whenever those two
are for the same kind of fields. -/
theorem answered_by_first (plan : MethodPlan) (original stream : Stream) (kinds : List CheckKind)
    (pool grown : Pool) (small : pool.size ≤ Pool.maxSize)
    (ran : Runs (plan.guardStream original) pool (stream, kinds) grown) :
    ∃ insertions, stream.slots = List.zipWith Insertion.apply insertions original.slots ∧
      List.Forall₂ (plan.FollowsFirst grown original.instructions) original.instructions
        insertions := by
  obtain ⟨groups, middle, insertions, remembered, -, begun, -, walked, rfl⟩ :=
    plan.runs_guardStream original stream kinds pool grown small ran
  obtain ⟨-, answered⟩ := Remembers.runsAll (runsAll_of_runsWith _ _ _ _ _ walked) []
    (plan.remembers_nothing middle) (begun.bounded small)
  refine ⟨insertions, rfl, answered.imp fun instruction insertion answer access => ?_⟩
  obtain ⟨index, first, indexed, found, resolves, settled⟩ := answer access
  refine ⟨index, first, indexed, found, settled, fun alike => settled.trans ?_⟩
  exact accesses_iff_of_alike (List.find?_some found) resolves access indexed alike

/-- The constants of a class with a field, up to the reference to the field. -/
def fieldPool : Pool :=
  .ofSlots #[none, some (.utf8 [65]), some (.classEntry 1), some (.utf8 [102]),
    some (.utf8 (Text.ModifiedUtf8.encode "Ljava/lang/Object;")), some (.nameAndType 3 4),
    some (.fieldRef 2 5)]

/-- A method of the class, whose field is an instance field and must not be null. -/
def fieldPlan : MethodPlan where
  className := "A"
  isInterface := false
  method := ⟨"m", "()V", true, [], .void, .none⟩
  verdicts := ⟨[], false⟩
  guarded := ⟨[⟨"f", "Ljava/lang/Object;"⟩], []⟩

/-- The kinds of the guards that some instructions of the method get. -/
def fieldGuards (instructions : List (Instruction Label)) : Option (List CheckKind) :=
  ((fieldPlan.guardStream (.ofInstructions instructions)).run fieldPool).1.toOption.map Prod.snd

/-- If the guards of some instructions are known, they have been put in. -/
theorem runs_fieldGuards (instructions : List (Instruction Label)) (kinds : List CheckKind)
    (guarded : fieldGuards instructions = some kinds) :
    ∃ stream grown, Runs (fieldPlan.guardStream (.ofInstructions instructions)) fieldPool
      (stream, kinds) grown := by
  rw [fieldGuards] at guarded
  cases ran : (fieldPlan.guardStream (.ofInstructions instructions)).run fieldPool with
  | mk result grown =>
    rw [ran] at guarded
    obtain ⟨⟨stream, found⟩, same, rfl⟩ := Option.map_eq_some_iff.1 guarded
    cases result with
    | error failure => cases same
    | ok value =>
      cases same
      exact ⟨stream, grown, ran⟩

/-- A field that is read and written. -/
def fieldUses : List (Instruction Label) :=
  [.withWord Opcode.getfield 6, .withWord Opcode.putfield 6]

/-- The field is read and written, so the answer found for the one is right for the other.
-/
theorem answered_by_first_fieldUses : ∃ stream grown insertions,
    fieldPool.size ≤ Pool.maxSize ∧
      Runs (fieldPlan.guardStream (.ofInstructions fieldUses)) fieldPool
        (stream, [.getField, .putField]) grown ∧
      List.Forall₂ (fieldPlan.FollowsFirst grown fieldUses) fieldUses insertions := by
  have small : fieldPool.size ≤ Pool.maxSize := by decide +kernel
  obtain ⟨stream, grown, ran⟩ :=
    runs_fieldGuards fieldUses [.getField, .putField] (by decide +kernel)
  obtain ⟨insertions, -, answered⟩ :=
    answered_by_first fieldPlan _ stream _ fieldPool grown small ran
  exact ⟨stream, grown, insertions, small, ran, answered⟩

/-- If a static field is read by the index of an instance field first, neither reading is
guarded, although the second one accesses a guarded field. In the other order both are
guarded, although the reading of a static field accesses none. -/
theorem answered_by_static_read :
    fieldPlan.Accesses fieldPool (.withWord Opcode.getfield 6) ∧
      ¬ fieldPlan.Accesses fieldPool (.withWord Opcode.getstatic 6) ∧
      (∃ stream grown, Runs (fieldPlan.guardStream (.ofInstructions
        [.withWord Opcode.getstatic 6, .withWord Opcode.getfield 6])) fieldPool
        (stream, []) grown) ∧
      ∃ stream grown, Runs (fieldPlan.guardStream (.ofInstructions
        [.withWord Opcode.getfield 6, .withWord Opcode.getstatic 6])) fieldPool
        (stream, [.getField, .getField]) grown := by
  have resolved : fieldPool.memberRef 6 = .ok ⟨"A", "f", "Ljava/lang/Object;"⟩ := by
    decide +kernel
  refine ⟨?_, ?_, runs_fieldGuards _ _ (by decide +kernel),
    runs_fieldGuards _ _ (by decide +kernel)⟩
  · exact ⟨6, _, rfl, resolved, rfl, .inl ⟨.inl rfl, List.mem_singleton.2 rfl⟩⟩
  · rw [fieldPlan.accesses_iff fieldPool _ 6 _ rfl resolved]
    rintro ⟨-, ⟨instanceAccess, -⟩ | ⟨-, static⟩⟩
    · exact not_instance_and_static _ instanceAccess (.inl rfl)
    · cases static

end MethodPlan

end NullGuard
