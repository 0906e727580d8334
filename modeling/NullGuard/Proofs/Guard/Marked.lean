import NullGuard.Proofs.Guard.Coverage
import NullGuard.Proofs.Guard.Unwoven

/-!
# Classes that are only marked

Whether a class is reported as rewritten is decided before its methods are added, by
whether a method has got a guard or some field is guarded. A guarded field usually means
that a method is added which checks it. The static fields of an interface have no such
method, as they are checked where the static initializer returns. So an interface whose
guarded fields are all static, and in which nothing else is checked, is reported as
rewritten although no check has been added to it (`only_marks_constants`): it comes out
with the attribute of woven classes and a constant for the name of the attribute. In
every other class that is reported as rewritten there is a check that was not there before.
-/

namespace NullGuard

open Stateful

/-! ## Counts -/

namespace Statistics

/-- No guard is counted exactly if none of any kind is. -/
theorem guards_eq_zero_iff (counts : Statistics) :
    counts.guards = 0 ↔ ∀ kind, counts.counted kind = 0 := by
  simp only [guards, Nat.add_eq_zero_iff]
  constructor
  · rintro ⟨⟨⟨⟨⟨arguments, results⟩, reads⟩, writes⟩, constructors⟩, initializers⟩ kind
    cases kind <;> assumption
  · intro none
    exact ⟨⟨⟨⟨⟨none .argument, none .result⟩, none .getField⟩, none .putField⟩,
      none .constructorField⟩, none .staticInitializerField⟩

end Statistics

/-- A method that is rewritten is counted with a guard at least. -/
theorem MethodPlan.Accounts.exists_counted {plan : MethodPlan} {pool : Pool} {member : Member}
    {result : Option (List UInt8 × Statistics)} (accounts : plan.Accounts pool member result)
    (rewritten : result.isSome = true) : ∃ kind, (Statistics.ofResult result).counted kind ≠ 0 := by
  obtain ⟨body, original, stream, kinds, -, -, rest⟩ := accounts
  cases result with
  | none => cases rewritten
  | some rewriting =>
    obtain ⟨some, counted, -⟩ := rest
    obtain ⟨kind, others, rfl⟩ := List.exists_cons_of_ne_nil some
    refine ⟨kind, ?_⟩
    rw [Statistics.ofResult, Option.map_some, Option.getD_some, counted,
      Statistics.counted_ofKinds, List.count_cons_self]
    exact Nat.succ_ne_zero _

/-! ## Classes without a check -/

/-- A class comes out as it went in, but for the attribute of woven classes and constants. -/
def ClassFile.OnlyMarked (file woven : ClassFile) : Prop :=
  ∃ pool index, file.pool.GrowsTo pool ∧ pool.utf8Is index wovenAttribute = true ∧
    woven = { file with pool, attributes := file.attributes ++ [⟨index, []⟩] }

/-- An interface in which only static fields are guarded and nothing else is checked, also
because no static initializer returns. -/
structure UncheckedInterface (file : ClassFile) (model : ClassModel) (policy : Policy) : Prop where
  isInterface : file.isInterface = true
  instances : file.guardedFields policy false = []
  statics : file.guardedFields policy true ≠ []
  methods : ∀ item ∈ file.methods.zip (model.methods.zip policy.methods),
    item.2.1.hasCode = true → NothingForbidden item.2.1 item.2.2 (item.1.code file.pool)
  initializers : ∀ member ∈ file.methods, member.isNamed file.pool "<clinit>" = true →
    member.returns file.pool = 0

section

variable (file woven : ClassFile) (model : ClassModel) (policy : Policy) (statistics : Statistics)
variable (small : file.pool.size ≤ Pool.maxSize)
variable (modelled : ClassModel.ofClass file = .ok model)
variable (ran : Runs (weave model policy) file (some statistics) woven)
include small modelled ran

/-- If no guard is counted, no method was rewritten, so some field is guarded. -/
theorem unwoven_of_guards_eq_zero (uncounted : statistics.guards = 0) :
    statistics.rewrittenMethods = 0 ∧ (GuardedFields.ofPolicy model policy).isEmpty = false ∧
      ∀ item ∈ file.methods.zip (model.methods.zip policy.methods), item.2.1.hasCode = true →
        NothingForbidden item.2.1 item.2.2 (item.1.code file.pool) := by
  obtain ⟨-, results, pool, guarded, ⟨impossible, -⟩ | ⟨_, equal, finishes⟩⟩ :=
    Weaving.steps_of_weave file woven model policy _ ran
  · cases impossible
  obtain rfl := Option.some.inj equal
  obtain ⟨-, accounts⟩ := Weaving.holds_of_guardMethods (fun pool plan => plan.Accounts pool)
    (fun plan => plan.accounts_of_guardCode) (fun _ _ _ _ _ grows accounts => accounts.grow grows)
    file model policy small pool results guarded
  have total (kind : CheckKind) :
      (results.map fun result => (Statistics.ofResult result).counted kind).sum = 0 := by
    rw [← Statistics.counted_sum_filterMap, ← statistics.guards_eq_zero_iff.1 uncounted kind,
      finishes.reported]
    cases kind <;> rfl
  have unwoven : ∀ result ∈ results, result = none := by
    intro result member
    by_contra rewritten
    obtain ⟨item, -, planned, coded⟩ := Outcome.exists_of_forall₂ accounts result member
    obtain ⟨kind, counted⟩ := (planned (coded.resolve_right rewritten)).exists_counted
      (Option.isSome_iff_ne_none.2 rewritten)
    exact counted (List.sum_eq_zero_iff_forall_eq_nat.1 (total kind) _
      (List.mem_map_of_mem member))
  have unchanged : results.filterMap id = [] := List.filterMap_eq_nil_iff.2 unwoven
  refine ⟨?_, finishes.needed unchanged, fun item inside coded => ?_⟩
  · rw [finishes.reported, unchanged]
    rfl
  · obtain ⟨result, member, unneeded, -⟩ := Outcome.exists_of_forall₂
      (Weaving.unwoven_of_guardMethods file model policy modelled small pool results
        guarded).flip item inside
    exact unneeded (unwoven result member) coded

/-- If no method was rewritten, all methods are there as they were, and no static initializer
returns in a class with guarded static fields. -/
theorem kept_of_rewrittenMethods_eq_zero (unchanged : statistics.rewrittenMethods = 0) :
    (∃ added, woven.methods = file.methods ++ added ∧
      added.length = statistics.synthesizedMethods) ∧
      (file.guardedFields policy true ≠ [] → ∀ member ∈ file.methods,
        member.isNamed file.pool "<clinit>" = true → member.returns file.pool = 0) := by
  obtain ⟨kept, added, results, lists, sameCount, rfl, each⟩ :=
    contributes_of_weave file woven model policy statistics small modelled ran
  have unwoven : ∀ result ∈ results, result = none :=
    List.filterMap_eq_nil_iff.1 (List.length_eq_zero_iff.1 unchanged)
  have contributes : ∀ pair ∈ file.methods.zip kept,
      Contributes file woven policy pair.1 pair.2 .zero ∧
        pair.2.payload? woven.pool = pair.1.payload? woven.pool := by
    intro pair inside
    obtain ⟨result, member, contributes, settled⟩ := Outcome.exists_of_forall₂ each.flip pair inside
    obtain rfl := unwoven result member
    exact ⟨contributes, bne_eq_false_iff_eq.1 settled.symm⟩
  have same : ∀ pair ∈ file.methods.zip kept, pair.2 = pair.1 := by
    intro pair inside
    obtain ⟨contributed, equal⟩ := contributes pair inside
    exact (contributed.nothing
      (congrArg List.length (Member.code_eq_of_payload? _ _ _ equal))).1
  have firsts := List.map_fst_zip (Nat.le_of_eq sameCount.symm)
  have kept_eq : kept = file.methods := by
    rw [← List.map_snd_zip (Nat.le_of_eq sameCount), List.map_congr_left same, firsts]
  refine ⟨⟨added, kept_eq ▸ lists, rfl⟩, fun guarded member inside named => ?_⟩
  rw [← firsts] at inside
  obtain ⟨pair, zipped, rfl⟩ := List.mem_map.1 inside
  have exits := (contributes pair zipped).1.staticInitializerExits
  rw [if_pos ⟨named, guarded⟩] at exits
  exact exits.symm

omit small in
/-- If no method was added, the class needs none. -/
theorem unneeded_of_synthesizedMethods_eq_zero (unadded : statistics.synthesizedMethods = 0)
    (isStatic : Bool) : ¬ file.NeedsCheck policy isStatic := by
  obtain ⟨-, results, pool, guarded, ⟨impossible, -⟩ | ⟨_, equal, finishes⟩⟩ :=
    Weaving.steps_of_weave file woven model policy _ ran
  · cases impossible
  obtain rfl := Option.some.inj equal
  rw [finishes.reported] at unadded
  intro needed
  have present := AddedMethod.ofFields_mem_all _ model.isInterface isStatic
    ((file.needsCheck_iff model modelled policy isStatic).1 needed)
  rw [List.length_eq_zero_iff.1 unadded] at present
  cases present

omit modelled in
/-- A class that has kept its methods and got no other ones is only marked. -/
theorem onlyMarked_of_methods (same : woven.methods = file.methods) : file.OnlyMarked woven := by
  obtain ⟨results, pool, grown, methods, members, index, -, guarded, -, ended, -, -, named,
    rfl⟩ := runs_weave file woven model policy statistics small ran
  obtain ⟨begun, -⟩ :=
    Weaving.settled_of_guardMethods file model policy small pool results guarded
  refine ⟨grown, index, begun.trans _ _ _ ended, named, ?_⟩
  show ({ file with pool := grown, methods := methods ++ members, attributes := _ } : ClassFile) = _
  rw [show methods ++ members = file.methods from same]

/-- Nothing is counted for a class that has kept its methods and got no other ones. -/
theorem uncounted_of_methods (same : woven.methods = file.methods) :
    statistics.guards = 0 ∧ statistics.synthesizedMethods = 0 := by
  obtain ⟨kept, added, results, lists, sameCount, rfl, each⟩ :=
    contributes_of_weave file woven model policy statistics small modelled ran
  have together : kept ++ added = file.methods ++ [] := by
    rw [← lists, same, List.append_nil]
  obtain ⟨rfl, rfl⟩ := List.append_inj together sameCount
  have unchanged : results.filterMap id = [] := by
    rw [List.filterMap_eq_nil_iff]
    intro result member
    obtain ⟨pair, inside, -, settled⟩ := Outcome.exists_of_forall₂ each result member
    obtain ⟨place, here⟩ := List.mem_iff_getElem?.1 inside
    obtain ⟨firstHere, secondHere⟩ := List.getElem?_zip_eq_some.1 here
    rw [Option.some.inj (firstHere.symm.trans secondHere), bne_self_eq_false] at settled
    exact Option.not_isSome_iff_eq_none.1 (Bool.eq_false_iff.1 settled)
  rw [unchanged]
  exact ⟨rfl, rfl⟩

/-- Without a check a class is only marked, and the other way round. -/
theorem onlyMarked_iff :
    file.OnlyMarked woven ↔ statistics.guards = 0 ∧ statistics.synthesizedMethods = 0 := by
  constructor
  · rintro ⟨pool, index, -, -, same⟩
    exact uncounted_of_methods file woven model policy statistics small modelled ran
      (by rw [same])
  · rintro ⟨uncounted, unadded⟩
    obtain ⟨unchanged, -, -⟩ :=
      unwoven_of_guards_eq_zero file woven model policy statistics small modelled ran uncounted
    obtain ⟨⟨added, lists, counted⟩, -⟩ := kept_of_rewrittenMethods_eq_zero file woven model policy
      statistics small modelled ran unchanged
    rw [unadded, List.length_eq_zero_iff] at counted
    rw [counted, List.append_nil] at lists
    exact onlyMarked_of_methods file woven model policy statistics small ran lists

/-- A class without a check is an interface with nothing but static fields to guard. -/
theorem uncheckedInterface_of_uncounted (uncounted : statistics.guards = 0)
    (unadded : statistics.synthesizedMethods = 0) : UncheckedInterface file model policy := by
  obtain ⟨unchanged, guarded, methods⟩ :=
    unwoven_of_guards_eq_zero file woven model policy statistics small modelled ran uncounted
  obtain ⟨-, initializers⟩ := kept_of_rewrittenMethods_eq_zero file woven model policy
    statistics small modelled ran unchanged
  have unneeded := unneeded_of_synthesizedMethods_eq_zero file woven model policy statistics
    modelled ran unadded
  have instances : file.guardedFields policy false = [] := by
    by_contra some
    exact unneeded false ⟨some, nofun⟩
  have statics : file.guardedFields policy true ≠ [] := by
    intro none
    rw [Bool.eq_false_iff, ne_eq, GuardedFields.isEmpty_iff file model modelled policy] at guarded
    exact guarded (Bool.rec instances none)
  refine ⟨?_, instances, statics, methods, initializers statics⟩
  rw [← Bool.not_eq_false]
  exact fun isClass => unneeded true ⟨statics, fun _ => isClass⟩

end

/-! ## Reports -/

section

variable (bytes : List UInt8) (file woven : ClassFile) (model : ClassModel) (policy : Policy)
variable (statistics : Statistics)

/-- A class that is reported as rewritten has got a guard or a method, unless it is only
marked. That happens to interfaces only, if all fields guarded are static and nothing else
is checked in them. -/
theorem adds_check_of_weave (parsed : ClassFile.parse bytes = .ok file)
    (modelled : ClassModel.ofClass file = .ok model)
    (ran : (weave model policy).run file = (.ok (some statistics), woven)) :
    (1 ≤ statistics.guards + statistics.synthesizedMethods ↔ ¬ file.OnlyMarked woven) ∧
      (¬ UncheckedInterface file model policy →
        1 ≤ statistics.guards + statistics.synthesizedMethods) := by
  have small := file.size_of_parse bytes parsed
  have onlyMarked := onlyMarked_iff file woven model policy statistics small modelled ran
  have unchecked :=
    uncheckedInterface_of_uncounted file woven model policy statistics small modelled ran
  refine ⟨?_, fun checked => ?_⟩
  · rw [onlyMarked]
    omega
  · by_contra none
    exact checked (unchecked (by omega) (by omega))

/-- The class with one method gets three guards and a method. -/
theorem adds_check_of_weave_holder : ∃ (file woven : ClassFile) (model : ClassModel)
    (statistics : Statistics), ClassFile.parse holderBytes = .ok file ∧
      ClassModel.ofClass file = .ok model ∧
      (weave model holderPolicy).run file = (.ok (some statistics), woven) ∧
      statistics.guards + statistics.synthesizedMethods = 4 ∧ ¬ file.OnlyMarked woven := by
  obtain ⟨file, woven, model, statistics, -, -, -, parsed, modelled, ran, -⟩ := weave_holder
  obtain ⟨counted, -⟩ :=
    adds_check_of_weave holderBytes file woven model holderPolicy statistics parsed modelled ran
  have reported : holderStatistics? = some statistics := by
    simp [holderStatistics?, parsed, modelled, ran, Except.toOption]
  obtain rfl := Option.some.inj (reported.symm.trans holderStatistics?_eq)
  exact ⟨file, woven, model, _, parsed, modelled, ran, rfl, counted.1 (by decide)⟩

/-- An interface with one constant, a text. It needs no static initializer. -/
def constantsBytes : List UInt8 :=
  Written.u32 ClassFile.magic ++ [0, 0, 0, 49, 0, 9] ++
    holderText "A" ++ [7, 0, 1] ++ holderText "java/lang/Object" ++ [7, 0, 3] ++
    holderText "f" ++ holderText "Ljava/lang/String;" ++ holderText "ConstantValue" ++ [8, 0, 5] ++
    [6, 1, 0, 2, 0, 4, 0, 0] ++
    [0, 1, 0, 0x19, 0, 5, 0, 6, 0, 1, 0, 7, 0, 0, 0, 2, 0, 8] ++ [0, 0, 0, 0]

/-- The interface is reported as rewritten, but no check is counted, and it is only marked. -/
theorem only_marks_constants : ∃ (file woven : ClassFile) (model : ClassModel)
    (statistics : Statistics), ClassFile.parse constantsBytes = .ok file ∧
      ClassModel.ofClass file = .ok model ∧
      (weave model (Policy.ofPackageVerdict model true)).run file =
        (.ok (some statistics), woven) ∧
      ¬ 1 ≤ statistics.guards + statistics.synthesizedMethods ∧ file.OnlyMarked woven := by
  obtain ⟨file, woven, model, result, parsed, modelled, ran, unchecked⟩ :=
    exists_of_weavesTo constantsBytes (Policy.ofPackageVerdict · true)
      (fun _ _ result _ => result.any fun statistics =>
        statistics.guards + statistics.synthesizedMethods == 0) (by decide +kernel)
  cases result with
  | none => cases unchecked
  | some statistics =>
    have uncounted := beq_iff_eq.1 unchecked
    have onlyMarked := onlyMarked_iff file woven model _ statistics
      (file.size_of_parse constantsBytes parsed) modelled ran
    exact ⟨file, woven, model, statistics, parsed, modelled, ran, by omega, onlyMarked.2 (by omega)⟩

end

end NullGuard
