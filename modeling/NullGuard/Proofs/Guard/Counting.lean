import NullGuard.Proofs.Guard.Weave

/-!
# Counting guards

Weaving records the kind of every guard while it goes through the instructions of a method,
and puts the guards in afterwards. At an instruction the guard and its kind agree, since both
are what is demanded there (`MethodPlan.Inserts`). So over a method the calls of a check that
are put in are as many as are recorded (`Records.callsAmong`), and a check made at returns is
recorded as often as the method returns (`Records.count_exits`).

Checks of single fields are told the name of the field and stand in methods of their own.
All other checks are called where they are made, so their calls can be counted.
-/

namespace NullGuard

open Stateful

/-! ## Calls of checks -/

namespace Instruction

variable {τ σ : Type}

/-- Whether an instruction calls the check of a kind. -/
def callsCheck (pool : Pool) (kind : CheckKind) (instruction : Instruction τ) : Bool :=
  instruction.opcode == Opcode.invokestatic &&
    (instruction.poolIndex?.bind fun index => (pool.memberRef index).toOption) ==
      some ⟨helperClass, kind.methodName, kind.methodDescriptor⟩

/-- Whether an instruction returns without a value. -/
def returnsNothing (instruction : Instruction τ) : Bool := instruction.opcode == Opcode.vreturn

/-- An instruction with a word for its operand uses the constant at that index. -/
theorem poolIndex?_withWord (opcode : UInt8) (value : UInt16) :
    (withWord opcode value : Instruction τ).poolIndex? = some value :=
  congrArg (fun read : UInt16 × List UInt8 => some read.1)
    (Except.ok.inj (Reader.u16_written value []))

/-- A call is one wherever it stands. -/
theorem callsCheck_map (pool : Pool) (kind : CheckKind) (f : τ → σ)
    (instruction : Instruction τ) :
    (instruction.map f).callsCheck pool kind = instruction.callsCheck pool kind := by
  obtain ⟨opcode, operand⟩ := instruction
  cases operand with
  | fixed bytes => rcases bytes with _ | ⟨first, _ | ⟨second, rest⟩⟩ <;> rfl
  | _ => rfl

/-- Only a static call can be the call of a check. -/
theorem callsCheck_of_opcode (pool : Pool) (kind : CheckKind) (instruction : Instruction τ)
    (different : instruction.opcode ≠ Opcode.invokestatic) :
    instruction.callsCheck pool kind = false := by
  rw [callsCheck, beq_false_of_ne different, Bool.false_and]

/-- Only calls need a member. -/
theorem callsCheck_of_memberless (pool : Pool) (kind : CheckKind) (instruction : Instruction τ)
    (memberless : Opcode.Memberless instruction.opcode) :
    instruction.callsCheck pool kind = false := by
  apply callsCheck_of_opcode
  intro same
  exact memberless.2 (same ▸ by decide)

/-- The call of a method is the call of a check if it is the method of the check. -/
theorem callsCheck_withWord (pool : Pool) (kind : CheckKind) (index : UInt16)
    (member : MemberRef) (resolved : pool.memberRef index = .ok member) :
    (withWord Opcode.invokestatic index : Instruction τ).callsCheck pool kind =
      (member == ⟨helperClass, kind.methodName, kind.methodDescriptor⟩) := by
  rw [callsCheck, poolIndex?_withWord, Option.bind_some, resolved]
  rfl

end Instruction

namespace CheckKind

/-- Whether the check is called where it is made, and not for one field after the other in a
method of its own. -/
def isDirect (kind : CheckKind) : Bool := kind.detail != .fieldName

/-- Each check has a method of its own. -/
theorem methodName_injective : Function.Injective methodName := by
  intro first second same
  cases first <;> cases second <;> first | rfl | exact absurd same (by decide)

/-- The methods that are added to a class are not named like checks. -/
theorem methodName_ne (kind : CheckKind) :
    kind.methodName ≠ instanceCheckMethod ∧ kind.methodName ≠ staticCheckMethod := by
  cases kind <;> decide

end CheckKind

/-- The calls of a check among some instructions. -/
def callsAmong (pool : Pool) (kind : CheckKind) (instructions : List (Instruction Label)) : Nat :=
  instructions.countP (Instruction.callsCheck pool kind)

/-- Calls are as many when all labels have been changed. -/
theorem callsAmong_map (pool : Pool) (kind : CheckKind) (f : Label → Label)
    (instructions : List (Instruction Label)) :
    callsAmong pool kind (instructions.map (Instruction.map f)) =
      callsAmong pool kind instructions := by
  rw [callsAmong, List.countP_map]
  exact List.countP_congr fun instruction _ => by
    rw [Function.comp, Instruction.callsCheck_map]

section

variable {pool : Pool} {kind other : CheckKind}

/-- The call of a check counts for that check and for no other. -/
theorem IsCheckCall.callsCheck {instruction : Instruction Label}
    (call : IsCheckCall pool kind instruction) (other : CheckKind) :
    instruction.callsCheck pool other = (kind == other) := by
  obtain ⟨index, rfl, method⟩ := call
  rw [Instruction.callsCheck_withWord pool other index _ (method.memberRef_ofMember (.inr rfl))]
  by_cases same : kind = other
  · rw [same, beq_self_eq_true, beq_self_eq_true]
  · rw [beq_false_of_ne same]
    apply beq_false_of_ne
    intro equal
    exact same (CheckKind.methodName_injective (congrArg MemberRef.name equal))

/-- A group that ends with the call of a check, and calls no check before. -/
theorem callsAmong_of_front {call : Instruction Label} (isCall : IsCheckCall pool kind call)
    (front : List (Instruction Label))
    (quiet : ∀ instruction ∈ front, instruction.callsCheck pool other = false) :
    callsAmong pool other (front ++ [call]) = [kind].count other := by
  have none : front.countP (Instruction.callsCheck pool other) = 0 :=
    List.countP_eq_zero.2 fun instruction inside => by simp [quiet instruction inside]
  rw [callsAmong, List.countP_append, none, Nat.zero_add, List.countP_singleton,
    isCall.callsCheck other, List.count_singleton]

/-- The guard of the topmost value contains one call, that of its check. -/
theorem ChecksTop.callsAmong {group : List (Instruction Label)}
    (checks : ChecksTop pool kind group) : callsAmong pool other group = [kind].count other := by
  obtain ⟨call, rfl, isCall⟩ := checks
  refine callsAmong_of_front isCall [.plain Opcode.dup] ?_
  rw [List.forall_mem_singleton]
  exact Instruction.callsCheck_of_memberless _ _ _ (by decide)

/-- The guard of the topmost value is not empty. -/
theorem ChecksTop.ne_nil {group : List (Instruction Label)} (checks : ChecksTop pool kind group) :
    group ≠ [] := by
  obtain ⟨call, rfl, -⟩ := checks
  exact List.cons_ne_nil _ _

/-- The guard of a parameter contains one call, that of the check of arguments. -/
theorem ChecksParameter.callsAmong {parameter : ParameterModel} {group : List (Instruction Label)}
    (checks : ChecksParameter pool parameter group) :
    callsAmong pool other group = [CheckKind.argument].count other := by
  obtain ⟨-, call, isCall, rfl⟩ := checks
  refine callsAmong_of_front isCall [.loadLocal parameter.slot, .pushNumber _] ?_
  rw [List.forall_mem_cons, List.forall_mem_singleton]
  exact ⟨Instruction.callsCheck_of_memberless _ _ _ (Instruction.memberless_loadLocal _),
    Instruction.callsCheck_of_memberless _ _ _ (Instruction.memberless_pushNumber _)⟩

/-- The guard of a field contains one call, that of its check. -/
theorem ChecksField.callsAmong {className : String} {key : FieldKey}
    {group : List (Instruction Label)} (checks : ChecksField pool className kind key group) :
    callsAmong pool other group = [kind].count other := by
  obtain ⟨field, name, call, -, -, isCall, rfl⟩ := checks
  rw [List.append_cons]
  refine callsAmong_of_front isCall (fieldReading kind field ++ [.loadConstant name]) ?_
  rw [List.forall_mem_append, List.forall_mem_singleton]
  refine ⟨?_, Instruction.callsCheck_of_memberless _ _ _ (Instruction.memberless_loadConstant _)⟩
  rw [fieldReading]
  split
  · rw [List.forall_mem_cons, List.forall_mem_singleton]
    exact ⟨Instruction.callsCheck_of_opcode _ _ _ (by decide),
      Instruction.callsCheck_of_opcode _ _ _ (by decide : Opcode.getfield ≠ _)⟩
  · rw [List.forall_mem_singleton]
    exact Instruction.callsCheck_of_opcode _ _ _ (by decide : Opcode.getstatic ≠ _)

/-- Groups of one call each hold as many calls as there are groups. -/
theorem callsAmong_flatten {α : Type} {Checks : α → List (Instruction Label) → Prop}
    (single : ∀ item group, Checks item group → callsAmong pool other group = [kind].count other)
    (items : List α) (groups : List (List (Instruction Label)))
    (each : List.Forall₂ Checks items groups) :
    callsAmong pool other groups.flatten = (items.map fun _ => kind).count other := by
  induction each with
  | nil => rfl
  | @cons item group items groups checks _ inductionHypothesis =>
    have here := single item group checks
    rw [callsAmong] at here inductionHypothesis ⊢
    rw [List.flatten_cons, List.countP_append, here, inductionHypothesis]
    exact (List.count_append (a := other)).symm

end

namespace MethodPlan.IsGuard

variable {plan : MethodPlan} {pool : Pool} {group : List (Instruction Label)} {kind : CheckKind}

/-- The guard for arguments calls its check once for each parameter that is guarded. -/
theorem callsAmong_entry (guard : plan.IsGuard pool group .argument) (other : CheckKind) :
    callsAmong pool other group =
      (plan.guardedParameters.map fun _ => CheckKind.argument).count other := by
  obtain ⟨groups, rfl, each⟩ := guard
  exact callsAmong_flatten (fun _ _ checks => checks.callsAmong) _ groups each

/-- Any other guard calls its check once, if the check is called directly. -/
theorem callsAmong (guard : plan.IsGuard pool group kind) (inside : kind ≠ .argument)
    (other : CheckKind) (direct : other.isDirect = true) :
    callsAmong pool other group = [kind].count other := by
  have apart (told : kind.detail = .fieldName) : other ≠ kind := by
    rintro rfl
    rw [CheckKind.isDirect, told] at direct
    cases direct
  have uncounted (told : kind.detail = .fieldName) : [kind].count other = 0 :=
    List.count_eq_zero.2 fun inside => apart told (List.mem_singleton.1 inside)
  cases kind with
  | argument => exact (inside rfl).elim
  | result => exact ChecksTop.callsAmong guard
  | putField => exact ChecksTop.callsAmong guard
  | getField => exact ChecksTop.callsAmong guard
  | constructorField =>
    obtain ⟨check, rfl, -⟩ := guard
    rw [uncounted rfl, NullGuard.callsAmong, List.countP_eq_zero, List.forall_mem_cons,
      List.forall_mem_singleton, Bool.not_eq_true, Bool.not_eq_true]
    exact ⟨Instruction.callsCheck_of_opcode _ _ _ (by decide),
      Instruction.callsCheck_of_opcode _ _ _ (by decide : Opcode.invokespecial ≠ _)⟩
  | staticInitializerField =>
    rw [IsGuard] at guard
    split at guard
    next =>
      obtain ⟨groups, each, rfl⟩ := guard
      rw [callsAmong_flatten (fun _ _ checks => checks.callsAmong) _ groups each, uncounted rfl,
        List.count_eq_zero]
      intro inside
      obtain ⟨-, -, same⟩ := List.mem_map.1 inside
      exact apart rfl same.symm
    next =>
      obtain ⟨check, rfl, method⟩ := guard
      rw [uncounted rfl, NullGuard.callsAmong, List.countP_eq_zero, List.forall_mem_singleton,
        Instruction.callsCheck_withWord _ _ _ _ (method.memberRef_ofMember (.inr rfl)), beq_iff_eq]
      intro same
      exact other.methodName_ne.2 (congrArg MemberRef.name same).symm

/-- A guard that is wanted at an instruction is not empty. -/
theorem ne_nil (guard : plan.IsGuard pool group kind) {accessed : Prop}
    (wanted : plan.Wants accessed kind) : group ≠ [] := by
  cases kind with
  | argument => exact wanted.elim
  | result => exact ChecksTop.ne_nil guard
  | putField => exact ChecksTop.ne_nil guard
  | getField => exact ChecksTop.ne_nil guard
  | constructorField =>
    obtain ⟨check, rfl, -⟩ := guard
    exact List.cons_ne_nil _ _
  | staticInitializerField =>
    rw [IsGuard] at guard
    split at guard
    next =>
      obtain ⟨groups, each, rfl⟩ := guard
      obtain ⟨first, others, known⟩ := List.exists_cons_of_ne_nil wanted.2
      rw [known] at each
      cases each with
      | cons checks _ =>
        obtain ⟨field, name, call, -, -, -, rfl⟩ := checks
        simp
    next =>
      obtain ⟨check, rfl, -⟩ := guard
      exact List.cons_ne_nil _ _

end MethodPlan.IsGuard

/-! ## Insertions and their kinds -/

namespace MethodPlan.Inserts

variable {plan : MethodPlan} {pool : Pool} {opcode : UInt8} {accessed : Prop}
variable {insertion : Insertion} (inserts : plan.Inserts pool opcode accessed insertion)
include inserts

/-- What is demanded at an instruction is recorded there, once. -/
theorem kinds_of_demands (kind : CheckKind) (demanded : plan.Demands opcode accessed kind) :
    insertion.kinds = [kind] := by
  cases inserts with
  | nothing none => exact (none kind demanded).elim
  | before other _ _ => exact congrArg (fun kind => [kind]) (other.unique demanded)
  | after other _ => exact congrArg (fun kind => [kind]) (other.unique demanded)

/-- Nothing else is recorded. -/
theorem demands_of_mem (kind : CheckKind) (recorded : kind ∈ insertion.kinds) :
    plan.Demands opcode accessed kind := by
  cases inserts with
  | nothing none => cases recorded
  | before demanded _ _ => exact List.mem_singleton.1 recorded ▸ demanded
  | after demanded _ => exact List.mem_singleton.1 recorded ▸ demanded

/-- As many calls are put in as are recorded. -/
theorem callsAmong (kind : CheckKind) (direct : kind.isDirect = true) :
    callsAmong pool kind insertion.group = insertion.kinds.count kind := by
  cases inserts with
  | nothing none => rfl
  | before demanded _ guard =>
    refine guard.callsAmong ?_ kind direct
    rintro rfl
    exact demanded.2
  | after demanded guard => exact guard.callsAmong (by decide) kind direct

/-- A check that is made at every return of some methods is recorded at their returns. -/
theorem count_exit (kind : CheckKind) (exits : kind.opcodes = [Opcode.vreturn]) (wanted : Prop)
    [Decidable wanted] (settled : plan.Wants accessed kind ↔ wanted) :
    insertion.kinds.count kind = if wanted ∧ opcode = Opcode.vreturn then 1 else 0 := by
  have demands : plan.Demands opcode accessed kind ↔ wanted ∧ opcode = Opcode.vreturn := by
    rw [Demands, exits, List.mem_singleton, settled, and_comm]
  split
  next demanded =>
    rw [inserts.kinds_of_demands kind (demands.2 demanded), List.count_singleton_self]
  next undemanded =>
    exact List.count_eq_zero.2 fun recorded =>
      undemanded (demands.1 (inserts.demands_of_mem kind recorded))

/-- Something is put in where something is recorded. -/
theorem group_eq_nil_iff : insertion.group = [] ↔ insertion.kinds = [] := by
  cases inserts with
  | nothing none => exact iff_of_true rfl rfl
  | before demanded _ guard =>
    exact iff_of_false (guard.ne_nil demanded.2) (List.cons_ne_nil _ _)
  | after demanded guard =>
    exact iff_of_false (guard.ne_nil demanded.2) (List.cons_ne_nil _ _)

end MethodPlan.Inserts

/-- What has been put into a stream comes on top of its own instructions. -/
theorem Stream.countP_flat (stream : Stream) (p : Instruction Label → Bool) :
    stream.flat.countP p = stream.instructions.countP p + stream.inserted.countP p := by
  obtain ⟨entry, slots, landmarks, composed⟩ := stream
  simp only [flat, instructions, inserted, List.countP_append]
  induction slots with
  | nil => simp
  | cons slot slots inductionHypothesis =>
    simp only [List.flatMap_cons, List.map_cons, List.countP_append, List.countP_cons, Slot.all]
    omega

/-- A stream that was decoded differs from its bytes if something was put in. -/
theorem Stream.isModified_eq_false_iff (stream : Stream) (decoded : stream.composed = false) :
    stream.isModified = false ↔ stream.inserted = [] := by
  have bare (slot : Slot) : slot.isBare = true ↔ slot.before ++ slot.after = [] := by
    rw [Slot.isBare, Bool.and_eq_true, List.isEmpty_iff, List.isEmpty_iff, List.append_eq_nil_iff]
  rw [isModified, decoded, Bool.false_or, Bool.or_eq_false_iff, Bool.not_eq_false',
    Bool.not_eq_false', List.isEmpty_iff, List.all_eq_true, inserted, List.append_eq_nil_iff,
    List.flatMap_eq_nil_iff]
  simp only [bare]

/-- What has just been decoded has not been composed. -/
theorem Stream.composed_of_decode (code : List UInt8) (stream : Stream)
    (decoded : decode code = .ok stream) : stream.composed = false := by
  obtain ⟨found, -, ran⟩ := (Outcome.bind_eq_ok ..).1 decoded
  obtain ⟨instructions, -, returned⟩ := (Outcome.bind_eq_ok ..).1 ran
  exact congrArg composed (Except.ok.inj returned).symm

/-- The guards around the instructions of a stream are those that were put in. -/
theorem Insertion.flatMap_groups {R : Instruction Label → Insertion → Prop}
    (instructions : List (Instruction Label)) (insertions : List Insertion)
    (each : List.Forall₂ R instructions insertions) :
    (List.zipWith apply insertions (instructions.map Slot.bare)).flatMap
      (fun slot => slot.before ++ slot.after) = insertions.flatMap group := by
  induction each with
  | nil => rfl
  | @cons instruction insertion _ _ _ _ inductionHypothesis =>
    rw [List.map_cons, List.zipWith_cons_cons, List.flatMap_cons, List.flatMap_cons,
      inductionHypothesis, groups_apply]

namespace MethodPlan

/-- What is recorded about a stream are the kinds of the guards put into it. -/
structure Records (plan : MethodPlan) (pool : Pool) (original stream : Stream)
    (kinds : List CheckKind) : Prop where
  fills : plan.Fills pool original stream
  composed : stream.composed = original.composed
  recorded : ∃ insertions, List.Forall₂ (fun instruction insertion =>
      ∃ accessed, plan.Inserts pool instruction.opcode accessed insertion)
        original.instructions insertions ∧
    stream.inserted = stream.entry ++ insertions.flatMap Insertion.group ∧
    kinds = plan.guardedParameters.map (fun _ => .argument) ++ insertions.flatMap Insertion.kinds

/-- What is reported of a method is what has been put into its stream. -/
theorem records_of_guardStream (plan : MethodPlan) (original stream : Stream) (lengths : List Nat)
    (decoded : original.IsDecoded lengths) (kinds : List CheckKind) (pool grown : Pool)
    (small : pool.size ≤ Pool.maxSize)
    (ran : Runs (plan.guardStream original) pool (stream, kinds) grown) :
    pool.GrowsTo grown ∧ plan.Records grown original stream kinds := by
  obtain ⟨grows, fills⟩ :=
    plan.fills_of_guardStream original stream lengths decoded kinds pool grown small ran
  obtain ⟨-, groups, insertions, remembered, -, each, recorded, rfl⟩ :=
    plan.chosen_of_guardStream original stream kinds pool grown small ran
  refine ⟨grows, fills, rfl, insertions, ?_, ?_, recorded⟩
  · refine each.imp fun instruction insertion chosen => ?_
    obtain ⟨accessed, -, inserts⟩ := chosen
    exact ⟨accessed, inserts⟩
  · rw [Stream.inserted, decoded.bare, Insertion.flatMap_groups _ _ each]

/-- Over some instructions a check at returns is recorded once for each of their returns. -/
theorem count_exits_flatMap (plan : MethodPlan) (pool : Pool) (kind : CheckKind)
    (exits : kind.opcodes = [Opcode.vreturn]) (wanted : Prop) [Decidable wanted]
    (settled : ∀ accessed, plan.Wants accessed kind ↔ wanted)
    (instructions : List (Instruction Label)) (insertions : List Insertion)
    (each : List.Forall₂ (fun instruction insertion =>
      ∃ accessed, plan.Inserts pool instruction.opcode accessed insertion)
        instructions insertions) :
    (insertions.flatMap Insertion.kinds).count kind =
      if wanted then instructions.countP Instruction.returnsNothing else 0 := by
  induction each with
  | nil => exact (ite_self 0).symm
  | @cons instruction insertion instructions insertions inserted _ inductionHypothesis =>
    obtain ⟨accessed, inserts⟩ := inserted
    have here := inserts.count_exit kind exits wanted (settled accessed)
    rw [List.flatMap_cons, List.count_append, here, inductionHypothesis, List.countP_cons,
      Instruction.returnsNothing]
    by_cases isWanted : wanted
    · simp only [isWanted, true_and, if_true, beq_iff_eq]
      exact Nat.add_comm _ _
    · simp only [isWanted, false_and, if_false]

namespace Records

variable {plan : MethodPlan} {pool : Pool} {original stream : Stream} {kinds : List CheckKind}
variable (records : plan.Records pool original stream kinds)
include records

/-- What is recorded stays true as the pool grows. -/
theorem grow {grown : Pool} (grows : pool.GrowsTo grown) :
    plan.Records grown original stream kinds where
  fills := records.fills.grow grows
  composed := records.composed
  recorded := by
    obtain ⟨insertions, each, rest⟩ := records.recorded
    refine ⟨insertions, each.imp fun instruction insertion inserted => ?_, rest⟩
    obtain ⟨accessed, inserts⟩ := inserted
    exact ⟨accessed, inserts.grow grows⟩

/-- The calls of a check in the woven method are those that were there and those that are
recorded. -/
theorem callsAmong (kind : CheckKind) (direct : kind.isDirect = true) :
    callsAmong pool kind stream.flat =
      NullGuard.callsAmong pool kind original.instructions + kinds.count kind := by
  obtain ⟨insertions, each, inserted, rfl⟩ := records.recorded
  have atInstructions : NullGuard.callsAmong pool kind (insertions.flatMap Insertion.group) =
      (insertions.flatMap Insertion.kinds).count kind := by
    rw [NullGuard.callsAmong, List.countP_flatMap, List.count_flatMap]
    congr 1
    apply List.map_congr_left
    intro insertion member
    obtain ⟨instruction, -, accessed, inserts⟩ := Outcome.exists_of_forall₂ each insertion member
    exact inserts.callsAmong kind direct
  have atEntry := records.fills.entry.callsAmong_entry kind
  rw [NullGuard.callsAmong] at atInstructions atEntry ⊢
  rw [stream.countP_flat, records.fills.instructions, inserted, List.countP_append, atInstructions,
    atEntry, List.count_append]
  rfl

/-- Something has been put in if something is recorded. -/
theorem inserted_eq_nil_iff : stream.inserted = [] ↔ kinds = [] := by
  obtain ⟨insertions, each, inserted, rfl⟩ := records.recorded
  obtain ⟨groups, entry, checks⟩ := records.fills.entry
  have atEntry : stream.entry = [] ↔ plan.guardedParameters = [] := by
    rw [entry]
    generalize plan.guardedParameters = parameters at checks
    cases checks with
    | nil => exact iff_of_true rfl rfl
    | cons checks _ =>
      obtain ⟨-, call, -, rfl⟩ := checks
      exact iff_of_false (by simp) (List.cons_ne_nil _ _)
  have atInstructions : insertions.flatMap Insertion.group = [] ↔
      insertions.flatMap Insertion.kinds = [] := by
    rw [List.flatMap_eq_nil_iff, List.flatMap_eq_nil_iff]
    refine forall₂_congr fun insertion member => ?_
    obtain ⟨instruction, -, accessed, inserts⟩ := Outcome.exists_of_forall₂ each insertion member
    exact inserts.group_eq_nil_iff
  rw [inserted, List.append_eq_nil_iff, List.append_eq_nil_iff, List.map_eq_nil_iff, atEntry,
    atInstructions]

/-- The stream of a method is modified if something is recorded. -/
theorem isModified_eq_false_iff (code : List UInt8) (decoded : Stream.decode code = .ok original) :
    stream.isModified = false ↔ kinds = [] :=
  (stream.isModified_eq_false_iff
    (records.composed.trans (Stream.composed_of_decode _ _ decoded))).trans
      records.inserted_eq_nil_iff

/-- A check that is made at every return of some methods is recorded once for each return. -/
theorem count_exits (kind : CheckKind) (exits : kind.opcodes = [Opcode.vreturn]) (wanted : Prop)
    [Decidable wanted] (settled : ∀ accessed, plan.Wants accessed kind ↔ wanted) :
    kinds.count kind =
      if wanted then original.instructions.countP Instruction.returnsNothing else 0 := by
  obtain ⟨insertions, each, -, rfl⟩ := records.recorded
  have atEntry : (plan.guardedParameters.map fun _ => CheckKind.argument).count kind = 0 := by
    rw [List.count_eq_zero]
    intro inside
    obtain ⟨-, -, rfl⟩ := List.mem_map.1 inside
    cases exits
  rw [List.count_append, atEntry, Nat.zero_add]
  exact plan.count_exits_flatMap pool kind exits wanted settled _ _ each

end Records

end MethodPlan

end NullGuard
