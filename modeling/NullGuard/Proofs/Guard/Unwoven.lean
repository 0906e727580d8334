import NullGuard.Proofs.Guard.Memory
import NullGuard.Proofs.Guard.Report

/-!
# Classes without anything to guard

A class in which no field is guarded, and no method with code has a parameter or a result
to guard, is left alone. Weaving finds that out while it plans the methods, and planning
adds constants to the pool of the class. Every constant is added for a group that is put in,
so nothing is added where nothing is put in: one instruction first
(`MethodPlan.insertionAt_nothing`), then a method, then the class. Members that are only
looked up are found in the pool as it is.
-/

namespace NullGuard

open Stateful

/-! ## Methods -/

/-- In a method nothing is to be guarded besides fields: no parameter for an object is
forbidden to be null, and no reference is returned where null is forbidden as the result. -/
structure NothingForbidden (method : MethodModel) (verdicts : MethodVerdicts)
    (instructions : List (Instruction Label)) : Prop where
  parameters : ∀ pair ∈ method.parameters.zip verdicts.parameters,
    pair.1.isObject = true → pair.2 = false
  results : verdicts.result = true → method.returnKind = .reference →
    ∀ instruction ∈ instructions, instruction.opcode ≠ Opcode.areturn

/-- An insertion records no check exactly if nothing is put in. -/
theorem Insertion.kinds_eq_nil_iff (insertion : Insertion) :
    insertion.kinds = [] ↔ insertion = .nothing := by
  cases insertion <;> simp [kinds]

namespace MethodPlan

/-- No parameter is guarded exactly if no object among the parameters has a verdict against
it. -/
theorem guardedParameters_eq_nil_iff (plan : MethodPlan) :
    plan.guardedParameters = [] ↔
      ∀ pair ∈ plan.method.parameters.zip plan.verdicts.parameters,
        pair.1.isObject = true → pair.2 = false := by
  rw [guardedParameters, List.map_eq_nil_iff, List.filter_eq_nil_iff]
  simp only [Bool.and_eq_true, not_and, Bool.not_eq_true]
  refine forall₂_congr fun pair _ => ?_
  cases pair.2 <;> simp

/-- The result is guarded if it is a reference and its verdict says so. -/
theorem guardsResult_iff (plan : MethodPlan) :
    plan.guardsResult = true ↔
      plan.verdicts.result = true ∧ plan.method.returnKind = .reference := by
  rw [guardsResult, Bool.and_eq_true, beq_iff_eq]

/-- A method for which nothing is recorded has nothing to guard besides fields. -/
theorem Records.nothingForbidden {plan : MethodPlan} {pool : Pool} {original stream : Stream}
    (records : plan.Records pool original stream []) :
    NothingForbidden plan.method plan.verdicts original.instructions := by
  obtain ⟨insertions, each, -, nothing⟩ := records.recorded
  obtain ⟨noParameters, noKinds⟩ := List.append_eq_nil_iff.1 nothing.symm
  refine ⟨plan.guardedParameters_eq_nil_iff.1 (List.map_eq_nil_iff.1 noParameters), ?_⟩
  intro asked kind instruction inside returns
  obtain ⟨insertion, member, accessed, inserts⟩ :=
    Outcome.exists_of_forall₂ each.flip instruction inside
  have demanded : plan.Demands instruction.opcode accessed .result :=
    ⟨List.mem_singleton.2 returns, plan.guardsResult_iff.2 ⟨asked, kind⟩⟩
  have recorded := inserts.kinds_of_demands .result demanded
  rw [List.flatMap_eq_nil_iff.1 noKinds insertion member] at recorded
  cases recorded

/-! Without guarded fields in its class a method has nothing else to guard, either. -/

section

variable (plan : MethodPlan) (unguarded : plan.guarded.isEmpty = true)
include unguarded

/-- No instruction accesses a guarded field. -/
theorem not_accesses (pool : Pool) (instruction : Instruction Label) :
    ¬ plan.Accesses pool instruction := by
  obtain ⟨noInstances, noStatics⟩ := (Bool.and_eq_true ..).mp unguarded
  rintro ⟨_, _, _, _, _, ⟨_, within⟩ | ⟨_, within⟩⟩
  · rw [List.isEmpty_iff.1 noInstances] at within
    cases within
  · rw [List.isEmpty_iff.1 noStatics] at within
    cases within

/-- What is demanded at an instruction that accesses no field is the check of a result. -/
theorem demands_result (opcode : UInt8) (noAccess : opcode ∉ Opcode.fieldAccesses)
    (accessed : Prop) (kind : CheckKind) (demanded : plan.Demands opcode accessed kind) :
    opcode = Opcode.areturn ∧ plan.guardsResult = true := by
  obtain ⟨noInstances, noStatics⟩ := (Bool.and_eq_true ..).mp unguarded
  obtain ⟨here, wanted⟩ := demanded
  cases kind with
  | argument => cases here
  | result => exact ⟨List.mem_singleton.1 here, wanted⟩
  | getField =>
    refine (noAccess ?_).elim
    obtain same | same := List.mem_pair.1 here <;> rw [same] <;> decide
  | putField =>
    refine (noAccess ?_).elim
    obtain same | same := List.mem_pair.1 here <;> rw [same] <;> decide
  | constructorField => exact (wanted.2 (List.isEmpty_iff.1 noInstances)).elim
  | staticInitializerField => exact (wanted.2 (List.isEmpty_iff.1 noStatics)).elim

/-- Nothing is put in at an instruction unless a result is to be checked there. -/
theorem eq_nothing {instructions seen : List (Instruction Label)} {memory : Memory}
    {instruction : Instruction Label} {insertion : Insertion}
    (chosen : plan.Chosen instructions memory instruction insertion)
    (answered : instruction.opcode ∈ Opcode.fieldAccesses →
      plan.AnsweredAs memory.2 seen instruction (insertion ≠ .nothing))
    (noResult : ¬ (instruction.opcode = Opcode.areturn ∧ plan.guardsResult = true)) :
    insertion = .nothing := by
  obtain ⟨accessed, -, inserts⟩ := chosen
  by_cases access : instruction.opcode ∈ Opcode.fieldAccesses
  · obtain ⟨_, first, -, -, -, settled⟩ := answered access
    by_contra something
    exact plan.not_accesses unguarded memory.2 first (settled.1 something)
  · rw [← insertion.kinds_eq_nil_iff, List.eq_nil_iff_forall_not_mem]
    intro kind recorded
    exact noResult (plan.demands_result unguarded _ access accessed kind
      (inserts.demands_of_mem kind recorded))

/-- Nothing is recorded for a method if nothing in it is to be guarded. -/
theorem unrecorded_of_guardStream (original stream : Stream) (kinds : List CheckKind)
    (pool grown : Pool) (small : pool.size ≤ Pool.maxSize)
    (ran : Runs (plan.guardStream original) pool (stream, kinds) grown)
    (forbidden : NothingForbidden plan.method plan.verdicts original.instructions) :
    kinds = [] := by
  obtain ⟨groups, middle, insertions, remembered, -, begun, ⟨-, rfl⟩, walked, -⟩ :=
    plan.runs_guardStream original stream kinds pool grown small ran
  have smallMiddle := begun.bounded small
  obtain ⟨-, answered⟩ := Remembers.runsAll (runsAll_of_runsWith _ _ _ _ _ walked) []
    (plan.remembers_nothing middle) smallMiddle
  obtain ⟨-, chosen⟩ := plan.chosen_mapM original.instructions (∅, middle) (remembered, grown)
    insertions smallMiddle (plan.knows_nothing _ middle) walked
  rw [plan.guardedParameters_eq_nil_iff.2 forbidden.parameters, List.map_nil, List.nil_append,
    List.flatMap_eq_nil_iff]
  intro insertion inside
  obtain ⟨place, there⟩ := List.mem_iff_getElem?.1 inside
  obtain ⟨instruction, here, chosenHere⟩ :=
    Outcome.getElem?_of_forall₂ chosen.flip place insertion there
  obtain ⟨_, hereToo, answeredHere⟩ :=
    Outcome.getElem?_of_forall₂ answered.flip place insertion there
  obtain rfl := Option.some.inj (here.symm.trans hereToo)
  rw [insertion.kinds_eq_nil_iff]
  refine plan.eq_nothing unguarded chosenHere answeredHere fun both => ?_
  obtain ⟨asked, kind⟩ := plan.guardsResult_iff.1 both.2
  exact forbidden.results asked kind instruction (List.mem_of_getElem? here) both.1

end

/-! ## Constants -/

/-- Where nothing is put in, no constant is added. -/
theorem insertionAt_nothing (plan : MethodPlan) (instruction : Instruction Label)
    (before after : Memory) (ran : RunsWith (plan.insertionAt instruction) before .nothing after) :
    after.2 = before.2 := by
  have kept (pool : Pool) (puts : plan.Puts pool .nothing after.2) : after.2 = pool := by
    cases puts with
    | nothing => rfl
    | group _ something _ => exact (something rfl).elim
  obtain ⟨-, answer, middle, decided, -, -, puts⟩ | ⟨-, -, puts⟩ :=
    plan.insertionAt_cases before after .nothing instruction ran
  · rw [kept _ puts]
    obtain ⟨_, -, ⟨-, rfl⟩ | ⟨_, -, -, -, rfl⟩⟩ :=
      runsWith_isGuardedAccess plan instruction before middle answer decided
    · rfl
    · rfl
  · exact kept _ puts

/-- A stream for which nothing is recorded was made without adding a constant. -/
theorem pool_of_guardStream (plan : MethodPlan) (original stream : Stream) (pool grown : Pool)
    (small : pool.size ≤ Pool.maxSize)
    (ran : Runs (plan.guardStream original) pool (stream, []) grown) : grown = pool := by
  obtain ⟨groups, middle, insertions, remembered, composed, -, ⟨-, nothing⟩, walked, -⟩ :=
    plan.runs_guardStream original stream [] pool grown small ran
  obtain ⟨noParameters, noKinds⟩ := List.append_eq_nil_iff.1 nothing.symm
  rw [List.map_eq_nil_iff.1 noParameters, List.mapM_nil] at composed
  obtain ⟨-, rfl⟩ := (runs_pure ..).1 composed
  refine (runsAll_of_runsWith _ _ _ _ _ walked).stays Prod.snd (· = .nothing) ?_ ?_
  · exact fun insertion inside =>
      insertion.kinds_eq_nil_iff.1 (List.flatMap_eq_nil_iff.1 noKinds insertion inside)
  · rintro instruction before _ after - ran rfl
    exact plan.insertionAt_nothing instruction before after ran

/-! ## Members -/

/-- A member that is left as it is has nothing to guard in its code besides fields. Without
guarded fields a member that has nothing to guard is left as it is. -/
theorem unwoven_of_guardCode (plan : MethodPlan) (member : Member)
    (result : Option (List UInt8 × Statistics)) (pool grown : Pool)
    (small : pool.size ≤ Pool.maxSize) (ran : Runs (plan.guardCode member) pool result grown) :
    (result = none → grown = pool) ∧ ∃ body original, member.HasBody grown body original ∧
      (result = none → NothingForbidden plan.method plan.verdicts original.instructions) ∧
      (plan.guarded.isEmpty = true →
        NothingForbidden plan.method plan.verdicts original.instructions → result = none) := by
  obtain ⟨code, body, original, stream, kinds, found, parsed, decoded, guarded, ended⟩ :=
    plan.runs_guardCode member result pool grown ran
  obtain ⟨lengths, isDecoded, -⟩ := Stream.isDecoded_of_decode body.code original decoded
  obtain ⟨grows, records⟩ :=
    plan.records_of_guardStream original stream lengths isDecoded kinds pool grown small guarded
  have unmodified := records.isModified_eq_false_iff body.code decoded
  have unwoven : result = none ↔ kinds = [] := by
    rw [← unmodified]
    obtain ⟨same, rfl⟩ | ⟨modified, newBody, contents, -, -, rfl⟩ := ended
    · exact iff_of_true rfl same
    · exact iff_of_false nofun (by rw [modified]; exact Bool.noConfusion)
  rw [unwoven]
  refine ⟨?_, body, original, ⟨code, grows.findAttribute _ _ _ found, parsed, decoded⟩, ?_,
    fun unguarded => plan.unrecorded_of_guardStream unguarded original stream kinds pool grown
      small guarded⟩
  · rintro rfl
    exact plan.pool_of_guardStream original stream pool grown small guarded
  · rintro rfl
    exact records.nothingForbidden

end MethodPlan

/-! ## Classes -/

/-- In a class nothing is to be guarded: no field, and nothing in a method with code. -/
structure NothingToGuard (file : ClassFile) (model : ClassModel) (policy : Policy) : Prop where
  fields (isStatic : Bool) : file.guardedFields policy isStatic = []
  methods : ∀ item ∈ file.methods.zip (model.methods.zip policy.methods),
    item.2.1.hasCode = true → NothingForbidden item.2.1 item.2.2 (item.1.code file.pool)

/-- No field is guarded exactly if none is in the class. -/
theorem GuardedFields.isEmpty_iff (file : ClassFile) (model : ClassModel)
    (modelled : ClassModel.ofClass file = .ok model) (policy : Policy) :
    (ofPolicy model policy).isEmpty = true ↔
      ∀ isStatic, file.guardedFields policy isStatic = [] := by
  obtain ⟨instances, statics⟩ :=
    hasKey_of_ofPolicy file model (model.models_of_ofClass file modelled) policy
  have noInstances := Outcome.ne_nil_iff_of_forall₂ instances
  have noStatics := Outcome.ne_nil_iff_of_forall₂ statics
  rw [isEmpty, Bool.and_eq_true, List.isEmpty_iff, List.isEmpty_iff, Bool.forall_bool,
    not_iff_not.1 noInstances, not_iff_not.1 noStatics]

namespace Weaving

/-- The pool of a class in which no method is woven stays as it is. -/
theorem pool_of_guardMethods (file : ClassFile) (model : ClassModel) (policy : Policy)
    (small : file.pool.size ≤ Pool.maxSize) (grown : Pool)
    (results : List (Option (List UInt8 × Statistics)))
    (ran : Runs (guardMethods file.methods model policy (GuardedFields.ofPolicy model policy))
      file.pool results grown)
    (nothing : ∀ result ∈ results, result = none) : grown = file.pool := by
  rw [guardMethods_eq] at ran
  refine (runsAll_of_runs _ _ _ _ _ ran).stays id (· = none) nothing ?_
  rintro item pool _ next (rfl : pool = file.pool) stepRan rfl
  rw [guardMethod] at stepRan
  split at stepRan
  next =>
    rw [runs_during] at stepRan
    exact (MethodPlan.unwoven_of_guardCode _ item.1 none _ next small stepRan).1 rfl
  next =>
    exact ((runs_pure ..).1 stepRan).2

/-- The same for all methods of a class, in terms of the class as it was. -/
theorem unwoven_of_guardMethods (file : ClassFile) (model : ClassModel) (policy : Policy)
    (modelled : ClassModel.ofClass file = .ok model) (small : file.pool.size ≤ Pool.maxSize)
    (grown : Pool) (results : List (Option (List UInt8 × Statistics)))
    (ran : Runs (guardMethods file.methods model policy (GuardedFields.ofPolicy model policy))
      file.pool results grown) :
    List.Forall₂ (fun item result =>
        (result = none → item.2.1.hasCode = true →
          NothingForbidden item.2.1 item.2.2 (item.1.code file.pool)) ∧
        ((GuardedFields.ofPolicy model policy).isEmpty = true → (item.2.1.hasCode = true →
          NothingForbidden item.2.1 item.2.2 (item.1.code file.pool)) → result = none))
      (file.methods.zip (model.methods.zip policy.methods)) results := by
  obtain ⟨grows, each⟩ := holds_of_guardMethods
    (fun pool plan member result => ∃ body original, member.HasBody pool body original ∧
      (result = none → NothingForbidden plan.method plan.verdicts original.instructions) ∧
      (plan.guarded.isEmpty = true →
        NothingForbidden plan.method plan.verdicts original.instructions → result = none))
    (fun plan member result pool grown small ran =>
      ⟨(plan.rewrites_of_guardCode member result pool grown small ran).1,
        (plan.unwoven_of_guardCode member result pool grown small ran).2⟩)
    (fun _ _ _ _ _ grows holds => by
      obtain ⟨body, original, has, settled⟩ := holds
      exact ⟨body, original, has.grow grows, settled⟩)
    file model policy small grown results ran
  refine Outcome.forall₂_of_getElem? each.length_eq fun place item result here there => ?_
  obtain ⟨_, thereToo, planned, coded⟩ := Outcome.getElem?_of_forall₂ each place item here
  obtain rfl := Option.some.inj (there.symm.trans thereToo)
  by_cases hasCode : item.2.1.hasCode = true
  · obtain ⟨body, original, has, unneeded, unwoven⟩ := planned hasCode
    have before := has.of_grown grows
      (findAttribute_of_mem_zip file model policy modelled item (List.mem_of_getElem? here) hasCode)
    rw [Member.code_eq_of_decodes before.instructions_eq]
    exact ⟨fun none _ => unneeded none,
      fun unguarded forbidden => unwoven unguarded (forbidden hasCode)⟩
  · exact ⟨fun _ asked => (hasCode asked).elim, fun _ _ => coded.resolve_left hasCode⟩

end Weaving

/-- Weaving leaves a class as it is exactly if there is nothing to guard in it, and then the
class comes out as it went in, with the same constants. -/
theorem unwoven_iff (bytes : List UInt8) (file after : ClassFile) (model : ClassModel)
    (policy : Policy) (result : Option Statistics) (parsed : ClassFile.parse bytes = .ok file)
    (modelled : ClassModel.ofClass file = .ok model)
    (ran : (weave model policy).run file = (.ok result, after)) :
    (result = none ↔ NothingToGuard file model policy) ∧ (result = none → after = file) := by
  have small := file.size_of_parse bytes parsed
  obtain ⟨-, results, pool, guarded, ending⟩ :=
    Weaving.steps_of_weave file after model policy result ran
  have fields := GuardedFields.isEmpty_iff file model modelled policy
  have methods :=
    Weaving.unwoven_of_guardMethods file model policy modelled small pool results guarded
  obtain ⟨rfl, unguarded, rfl, unchanged⟩ | ⟨statistics, rfl, finishes⟩ := ending
  · have nothing : ∀ result ∈ results, result = none := List.filterMap_eq_nil_iff.1 unchanged
    refine ⟨iff_of_true rfl ⟨fields.1 unguarded, fun item inside coded => ?_⟩, fun _ => ?_⟩
    · obtain ⟨result, member, unneeded, -⟩ :=
        Outcome.exists_of_forall₂ methods.flip item inside
      exact unneeded (nothing result member) coded
    · rw [Weaving.pool_of_guardMethods file model policy small pool results guarded nothing]
  · refine ⟨iff_of_false nofun fun nothing => ?_, nofun⟩
    have unguarded := fields.2 nothing.fields
    have unchanged : results.filterMap id = [] := by
      rw [List.filterMap_eq_nil_iff]
      intro result member
      obtain ⟨item, inside, -, unwoven⟩ := Outcome.exists_of_forall₂ methods result member
      exact unwoven unguarded (nothing.methods item inside)
    have needed := finishes.needed unchanged
    rw [unguarded] at needed
    cases needed

/-- The class with one method, which returns a reference, if null is allowed everywhere. -/
theorem unwoven_holder : ∃ (file after : ClassFile) (model : ClassModel),
    ClassFile.parse holderBytes = .ok file ∧ ClassModel.ofClass file = .ok model ∧
      (weave model (Policy.ofPackageVerdict model false)).run file = (.ok none, after) ∧
      NothingToGuard file model (Policy.ofPackageVerdict model false) ∧ after = file := by
  obtain ⟨file, after, model, result, parsed, modelled, ran, unwoven⟩ :=
    exists_of_weavesTo holderBytes (Policy.ofPackageVerdict · false)
      (fun _ _ result _ => result.isNone) (by decide +kernel)
  obtain rfl := Option.isNone_iff_eq_none.1 unwoven
  obtain ⟨nothing, same⟩ := unwoven_iff holderBytes file after model _ none parsed modelled ran
  exact ⟨file, after, model, parsed, modelled, ran, nothing.1 rfl, same rfl⟩

end NullGuard
