import NullGuard.Proofs.Guard.Counting

/-!
# What weaving reports

The statistics of a class are made up while its methods are planned and are added up only
for methods that have changed. They report what has been done: what each method contributes
is the number of calls that were put into it and of the returns at which it checks fields
(`Contributes`), and the totals are read off the class and the woven class (`Tallies`).
-/

namespace NullGuard

open Stateful

/-! ## Sums -/

/-- Numbers that make up the difference at each place make it up in total. -/
theorem sum_of_forall₂ {α β : Type} {R : α → β → Prop} (counts : β → Nat) (before after : α → Nat)
    (differ : ∀ item result, R item result → counts result + before item = after item)
    {items : List α} {results : List β} (each : List.Forall₂ R items results) :
    (results.map counts).sum + (items.map before).sum = (items.map after).sum := by
  induction each with
  | nil => rfl
  | cons related _ inductionHypothesis =>
    have here := differ _ _ related
    simp only [List.map_cons, List.sum_cons]
    omega

/-- A sum over those items only that have a property, if they count at all. -/
theorem sum_map_ite {α : Type} (p : α → Bool) (counting : Prop) [Decidable counting] (f : α → Nat)
    (items : List α) :
    (items.map fun item => if p item = true ∧ counting then f item else 0).sum =
      if counting then ((items.filter p).map f).sum else 0 := by
  induction items with
  | nil => exact (ite_self 0).symm
  | cons item items inductionHypothesis =>
    rw [List.map_cons, List.sum_cons, inductionHypothesis]
    by_cases holds : counting <;> by_cases counted : p item = true <;> simp [holds, counted]

/-! ## Statistics -/

namespace Statistics

/-- How many guards of a kind are counted. -/
def counted (counts : Statistics) : CheckKind → Nat
  | .argument => counts.arguments
  | .result => counts.results
  | .putField => counts.fieldWrites
  | .getField => counts.fieldReads
  | .constructorField => counts.constructorExits
  | .staticInitializerField => counts.staticInitializerExits

/-- A check that is recorded is counted once, under its kind. -/
theorem counted_record (counts : Statistics) (recorded kind : CheckKind) :
    (counts.record recorded).counted kind = counts.counted kind + [recorded].count kind := by
  cases recorded <;> cases kind <;> rfl

/-- Checks that are recorded one after the other are counted under their kinds. -/
theorem counted_foldl_record (counts : Statistics) (kinds : List CheckKind) (kind : CheckKind) :
    (kinds.foldl record counts).counted kind = counts.counted kind + kinds.count kind := by
  induction kinds generalizing counts with
  | nil => rfl
  | cons first kinds inductionHypothesis =>
    rw [List.foldl_cons, inductionHypothesis, counted_record, Nat.add_assoc, ← List.count_append]
    rfl

/-- The statistics of a method count the kinds recorded for it. -/
theorem counted_ofKinds (kinds : List CheckKind) (kind : CheckKind) :
    (ofKinds kinds).counted kind = kinds.count kind := by
  rw [ofKinds, counted_foldl_record]
  cases kind <;> exact Nat.zero_add _

/-- Counts are added kind by kind. -/
theorem counted_add (first second : Statistics) (kind : CheckKind) :
    (first.add second).counted kind = first.counted kind + second.counted kind := by
  cases kind <;> rfl

/-- Adding up counts adds up those of each kind. -/
theorem counted_foldl_add (counts : Statistics) (all : List Statistics) (kind : CheckKind) :
    (all.foldl add counts).counted kind =
      counts.counted kind + (all.map fun each => each.counted kind).sum := by
  induction all generalizing counts with
  | nil => rfl
  | cons first all inductionHypothesis =>
    rw [List.foldl_cons, inductionHypothesis, counted_add, Nat.add_assoc, List.map_cons,
      List.sum_cons]

/-- In the sum each kind is counted as often as in all parts. -/
theorem counted_sum (all : List Statistics) (kind : CheckKind) :
    (sum all).counted kind = (all.map fun each => each.counted kind).sum := by
  rw [sum, counted_foldl_add]
  cases kind <;> exact Nat.zero_add _

/-- What is counted for a method, nothing if it is left as it is. -/
def ofResult (result : Option (List UInt8 × Statistics)) : Statistics :=
  (result.map Prod.snd).getD zero

/-- Methods that are left as they are add nothing. -/
theorem counted_sum_filterMap (results : List (Option (List UInt8 × Statistics)))
    (kind : CheckKind) :
    (sum ((results.filterMap id).map Prod.snd)).counted kind =
      (results.map fun result => (ofResult result).counted kind).sum := by
  rw [counted_sum]
  induction results with
  | nil => rfl
  | cons result results inductionHypothesis =>
    cases result with
    | none =>
      rw [List.filterMap_cons_none rfl, inductionHypothesis, List.map_cons, List.sum_cons]
      cases kind <;> exact (Nat.zero_add _).symm
    | some rewriting =>
      exact congrArg (rewriting.2.counted kind + ·) inductionHypothesis

end Statistics

/-! ## Methods in numbers -/

namespace Member

/-- The instructions of a method, none if it has no code. -/
def code (pool : Pool) (member : Member) : List (Instruction Label) :=
  (member.instructions? pool).getD []

/-- How often the code of a method calls a check. -/
def calls (pool : Pool) (kind : CheckKind) (member : Member) : Nat :=
  callsAmong pool kind (member.code pool)

/-- How many instructions of a method return without a value. -/
def returns (pool : Pool) (member : Member) : Nat :=
  (member.code pool).countP Instruction.returnsNothing

/-- Whether a method has a name. -/
def isNamed (pool : Pool) (name : String) (member : Member) : Bool :=
  (pool.utf8 member.name).toOption == some name

/-- The contents of the code attribute of a method. -/
def payload? (pool : Pool) (member : Member) : Option (List UInt8) :=
  (pool.findAttribute ClassFile.codeName member.attributes).map Attribute.contents

/-- Equal contents hold equal instructions. -/
theorem code_eq_of_payload? (pool : Pool) (first second : Member)
    (same : first.payload? pool = second.payload? pool) : first.code pool = second.code pool := by
  have decoded (member : Member) : member.instructions? pool = (member.payload? pool).bind
      fun contents => do
        let body ← (Body.parse contents).toOption
        return (← (Stream.decode body.code).toOption).instructions := by
    rw [instructions?, payload?]
    cases pool.findAttribute ClassFile.codeName member.attributes <;> rfl
  rw [code, code, decoded, decoded, same]

/-- The code of a member that decodes is its instructions. -/
theorem code_eq_of_decodes {pool : Pool} {member : Member}
    {instructions : List (Instruction Label)}
    (decodes : member.instructions? pool = some instructions) :
    member.code pool = instructions := by
  rw [code, decodes, Option.getD_some]

end Member

/-- What a method contributes to the statistics of its class: the calls of checks that were
put into it, and its returns if fields are checked there. Its code can be decoded before and
after. A method into which nothing was put contributes nothing. -/
structure Contributes (file woven : ClassFile) (policy : Policy) (member newMember : Member)
    (counts : Statistics) : Prop where
  decodes : (member.payload? file.pool).isSome = true →
    (member.instructions? woven.pool).isSome = true ∧
      (newMember.instructions? woven.pool).isSome = true
  calls : ∀ kind : CheckKind, kind.isDirect = true →
    counts.counted kind + member.calls woven.pool kind = newMember.calls woven.pool kind
  constructorExits : counts.constructorExits =
    if member.isNamed file.pool "<init>" = true ∧ file.guardedFields policy false ≠ [] then
      member.returns file.pool
    else 0
  staticInitializerExits : counts.staticInitializerExits =
    if member.isNamed file.pool "<clinit>" = true ∧ file.guardedFields policy true ≠ [] then
      member.returns file.pool
    else 0
  nothing : (newMember.code woven.pool).length = (member.code woven.pool).length →
    newMember = member ∧ counts = .zero

namespace MethodPlan

/-- What weaving a member has come to, in numbers. -/
def Accounts (plan : MethodPlan) (pool : Pool) (member : Member)
    (result : Option (List UInt8 × Statistics)) : Prop :=
  ∃ body original stream kinds, member.HasBody pool body original ∧
    plan.Records pool original stream kinds ∧
    match result with
    | none => kinds = []
    | some (contents, counts) => kinds ≠ [] ∧ counts = .ofKinds kinds ∧ ∃ newBody again,
        Body.parse contents = .ok newBody ∧ Moves stream body newBody again

/-- What is accounted for a method stays right as the pool grows. -/
theorem Accounts.grow {plan : MethodPlan} {pool grown : Pool} {member : Member}
    {result : Option (List UInt8 × Statistics)} (accounts : plan.Accounts pool member result)
    (grows : pool.GrowsTo grown) : plan.Accounts grown member result := by
  obtain ⟨body, original, stream, kinds, holds, records, rest⟩ := accounts
  exact ⟨body, original, stream, kinds, holds.grow grows, records.grow grows, rest⟩

/-- What guarding a method reports accounts for what it has put in. -/
theorem accounts_of_guardCode (plan : MethodPlan) (member : Member)
    (result : Option (List UInt8 × Statistics)) (pool grown : Pool)
    (small : pool.size ≤ Pool.maxSize) (ran : Runs (plan.guardCode member) pool result grown) :
    pool.GrowsTo grown ∧ plan.Accounts grown member result := by
  obtain ⟨code, body, original, stream, kinds, found, parsed, decoded, guarded, ended⟩ :=
    plan.runs_guardCode member result pool grown ran
  obtain ⟨lengths, isDecoded, -⟩ := Stream.isDecoded_of_decode body.code original decoded
  obtain ⟨grows, records⟩ :=
    plan.records_of_guardStream original stream lengths isDecoded kinds pool grown small guarded
  have holds : member.HasBody grown body original :=
    ⟨code, grows.findAttribute _ _ _ found, parsed, decoded⟩
  have unmodified := records.isModified_eq_false_iff body.code decoded
  refine ⟨grows, body, original, stream, kinds, holds, records, ?_⟩
  obtain ⟨same, rfl⟩ | ⟨modified, newBody, contents, rearranged, wrote, rfl⟩ := ended
  · exact unmodified.1 same
  · obtain ⟨parsedAgain, moves, -⟩ := moves_of_rearranged isDecoded records.fills.isExtension body
      newBody grown contents rearranged wrote
    refine ⟨fun none => ?_, rfl, newBody, _, parsedAgain, moves⟩
    rw [unmodified.2 none] at modified
    cases modified

/-- The code of a member before and after it has been woven. What is counted for it are the
kinds recorded, and if there are none, it is left as it is. -/
theorem Accounts.exists_code {plan : MethodPlan} {pool middle wovenPool : Pool}
    (begun : pool.GrowsTo middle) (ended : middle.GrowsTo wovenPool) {member newMember : Member}
    (coded : (pool.findAttribute ClassFile.codeName member.attributes).isSome = true)
    {result : Option (List UInt8 × Statistics)} (accounts : plan.Accounts middle member result)
    (position : Nat)
    (replaced : Weaving.replaceCode middle position member result = .ok newMember) :
    ∃ original stream kinds, member.instructions? pool = some original.instructions ∧
      member.instructions? wovenPool = some original.instructions ∧
      plan.Records wovenPool original stream kinds ∧
      (∀ kind, (Statistics.ofResult result).counted kind = kinds.count kind) ∧
      ((kinds = [] ∧ result = none ∧ newMember = member) ∨
        (kinds ≠ [] ∧ result.isSome = true ∧
          newMember.instructions? wovenPool =
            some (stream.flat.map (Instruction.map stream.landing)))) := by
  obtain ⟨body, original, stream, kinds, holds, records, rest⟩ := accounts
  have before := holds.of_grown begun coded
  refine ⟨original, stream, kinds, before.instructions_eq, (holds.grow ended).instructions_eq,
    records.grow ended, ?_⟩
  cases result with
  | none =>
    obtain rfl : kinds = [] := rest
    obtain rfl := Except.ok.inj replaced
    exact ⟨fun kind => by cases kind <;> rfl, .inl ⟨rfl, rfl, rfl⟩⟩
  | some rewriting =>
    obtain ⟨contents, counts⟩ := rewriting
    obtain ⟨some, rfl, newBody, again, parsedAgain, moves⟩ := rest
    refine ⟨Statistics.counted_ofKinds kinds, .inr ⟨some, rfl, ?_⟩⟩
    have after := Weaving.hasBody_of_replaceCode middle position member newMember contents _ holds
      replaced newBody again parsedAgain moves.decoded
    rw [(after.grow ended).instructions_eq, moves.flattened, Stream.instructions_flattened]

/-- A method with code contributes what has been put into it, and its code changes if that
is anything at all. -/
theorem Accounts.contributes {plan : MethodPlan} {file woven : ClassFile} {policy : Policy}
    {middle : Pool} (begun : file.pool.GrowsTo middle) (ended : middle.GrowsTo woven.pool)
    (instances : plan.guarded.instances ≠ [] ↔ file.guardedFields policy false ≠ [])
    (statics : plan.guarded.statics ≠ [] ↔ file.guardedFields policy true ≠ [])
    {member newMember : Member} (named : file.pool.utf8 member.name = .ok plan.method.name)
    (coded : (file.pool.findAttribute ClassFile.codeName member.attributes).isSome = true)
    {result : Option (List UInt8 × Statistics)} (accounts : plan.Accounts middle member result)
    (position : Nat)
    (replaced : Weaving.replaceCode middle position member result = .ok newMember) :
    Contributes file woven policy member newMember (.ofResult result) ∧
      result.isSome = (newMember.payload? woven.pool != member.payload? woven.pool) := by
  obtain ⟨original, stream, kinds, decodesBefore, decodesStill, records, counted, changed⟩ :=
    accounts.exists_code begun ended coded position replaced
  have codeStill := Member.code_eq_of_decodes decodesStill
  have isNamed (name : String) :
      member.isNamed file.pool name = true ↔ (plan.method.name == name) = true := by
    rw [Member.isNamed, named]
    exact Iff.rfl
  have returns :
      member.returns file.pool = original.instructions.countP Instruction.returnsNothing := by
    rw [Member.returns, Member.code_eq_of_decodes decodesBefore]
  have constructorExits := records.count_exits .constructorField rfl
    (member.isNamed file.pool "<init>" = true ∧ file.guardedFields policy false ≠ [])
    fun _ => (and_congr (isNamed _) instances.symm).symm
  have staticInitializerExits := records.count_exits .staticInitializerField rfl
    (member.isNamed file.pool "<clinit>" = true ∧ file.guardedFields policy true ≠ [])
    fun _ => (and_congr (isNamed _) statics.symm).symm
  rw [← counted, ← returns] at constructorExits staticInitializerExits
  have decoded := Option.isSome_of_eq_some decodesStill
  obtain ⟨rfl, rfl, rfl⟩ | ⟨some, isSome, newDecodes⟩ := changed
  · exact ⟨⟨fun _ => ⟨decoded, decoded⟩, fun kind _ => by cases kind <;> exact Nat.zero_add _,
      constructorExits, staticInitializerExits, fun _ => ⟨rfl, rfl⟩⟩, (bne_self_eq_false _).symm⟩
  · have newCode := Member.code_eq_of_decodes newDecodes
    have longer : (newMember.code woven.pool).length ≠ (member.code woven.pool).length := by
      have all := stream.countP_flat fun _ => true
      have present : 0 < stream.inserted.length :=
        List.length_pos_iff.2 fun none => some (records.inserted_eq_nil_iff.1 none)
      simp only [List.countP_true, records.fills.instructions] at all
      rw [newCode, List.length_map, codeStill]
      omega
    have calls (kind : CheckKind) (direct : kind.isDirect = true) :
        (Statistics.ofResult result).counted kind + member.calls woven.pool kind =
          newMember.calls woven.pool kind := by
      rw [Member.calls, Member.calls, newCode, codeStill, callsAmong_map,
        records.callsAmong kind direct, counted, Nat.add_comm]
    refine ⟨⟨fun _ => ⟨decoded, Option.isSome_of_eq_some newDecodes⟩, calls, constructorExits,
      staticInitializerExits, fun same => (longer same).elim⟩, ?_⟩
    rw [isSome, Eq.comm, bne_iff_ne]
    intro same
    exact longer (congrArg List.length (Member.code_eq_of_payload? _ _ _ same))

end MethodPlan

/-- A method without code contributes nothing. -/
theorem contributes_uncoded (file woven : ClassFile) (policy : Policy) (member : Member)
    (uncoded : (file.pool.findAttribute ClassFile.codeName member.attributes).isSome = false) :
    Contributes file woven policy member member .zero := by
  rw [Bool.eq_false_iff, ne_eq, Option.isSome_iff_ne_none, not_not] at uncoded
  have returns : member.returns file.pool = 0 := by
    simp [Member.returns, Member.code, Member.instructions?, uncoded]
  constructor
  · rw [Member.payload?, uncoded]
    exact fun impossible => by cases impossible
  · intro kind _
    cases kind <;> exact Nat.zero_add _
  · rw [returns, ite_self]
    rfl
  · rw [returns, ite_self]
    rfl
  · exact fun _ => ⟨rfl, rfl⟩

/-! ## Classes in numbers -/

/-- A method contributes whether or not it has code to weave. -/
theorem contributes_of_accounts {file woven : ClassFile} {model : ClassModel} {policy : Policy}
    (models : model.Models file) {middle : Pool} (begun : file.pool.GrowsTo middle)
    (ended : middle.GrowsTo woven.pool) {member newMember : Member} {method : MethodModel}
    {verdicts : MethodVerdicts} (ofMember : MethodModel.ofMember file member = .ok method)
    {result : Option (List UInt8 × Statistics)}
    (accounts : method.hasCode = true →
      (model.planOf policy method verdicts).Accounts middle member result)
    (coded : method.hasCode = true ∨ result = none) (position : Nat)
    (replaced : Weaving.replaceCode middle position member result = .ok newMember) :
    Contributes file woven policy member newMember (.ofResult result) ∧
      result.isSome = (newMember.payload? woven.pool != member.payload? woven.pool) := by
  obtain ⟨named, hasCode⟩ := MethodModel.of_ofMember file member method ofMember
  by_cases isCoded : method.hasCode = true
  · obtain ⟨instances, statics⟩ := GuardedFields.hasKey_of_ofPolicy file model models policy
    exact (accounts isCoded).contributes begun ended
      (Outcome.ne_nil_iff_of_forall₂ instances).symm (Outcome.ne_nil_iff_of_forall₂ statics).symm
      named (hasCode ▸ isCoded) position replaced
  · obtain rfl := coded.resolve_left isCoded
    obtain rfl := Except.ok.inj replaced
    refine ⟨contributes_uncoded file woven policy member ?_, (bne_self_eq_false _).symm⟩
    rw [← hasCode, Bool.eq_false_iff]
    exact isCoded

/-- Every method of a class contributes to what weaving the class reports, and it is
rewritten if its code changes. -/
theorem contributes_of_weave (file woven : ClassFile) (model : ClassModel) (policy : Policy)
    (statistics : Statistics) (small : file.pool.size ≤ Pool.maxSize)
    (modelled : ClassModel.ofClass file = .ok model)
    (ran : Runs (weave model policy) file (some statistics) woven) :
    ∃ kept added results, woven.methods = kept ++ added ∧ kept.length = file.methods.length ∧
      statistics =
        { Statistics.sum ((results.filterMap id).map Prod.snd) with
          rewrittenMethods := (results.filterMap id).length
          synthesizedMethods := added.length } ∧
      List.Forall₂ (fun (pair : Member × Member) (result : Option (List UInt8 × Statistics)) =>
        Contributes file woven policy pair.1 pair.2 (.ofResult result) ∧
          result.isSome = (pair.2.payload? woven.pool != pair.1.payload? woven.pool))
        (file.methods.zip kept) results := by
  obtain ⟨results, pool, grown, methods, members, index, aligned, guarded, replaced, ended,
    areMembers, -, -, same⟩ := runs_weave file woven model policy statistics small ran
  obtain ⟨-, others, otherPool, guardedToo, ⟨impossible, -⟩ | ⟨_, equal, finishes⟩⟩ :=
    Weaving.steps_of_weave file woven model policy _ ran
  · cases impossible
  obtain rfl := Option.some.inj equal
  obtain rfl : results = others :=
    Except.ok.inj (congrArg Prod.fst (guarded.symm.trans guardedToo))
  obtain ⟨begun, accounts⟩ := Weaving.holds_of_guardMethods (fun pool plan => plan.Accounts pool)
    (fun plan => plan.accounts_of_guardCode) (fun _ _ _ _ _ grows accounts => accounts.grow grows)
    file model policy small pool results guarded
  obtain ⟨sameCount, resultCount, places⟩ := Weaving.places_of_replaceMethods file model policy
    aligned pool methods results accounts.length_eq replaced
  have pools : woven.pool = grown := congrArg ClassFile.pool same
  have lists : woven.methods = methods ++ members := congrArg ClassFile.methods same
  rw [← pools] at ended
  have models := model.models_of_ofClass file modelled
  refine ⟨methods, members, results, lists, sameCount, ?_, ?_⟩
  · rw [← areMembers.length_eq]
    exact finishes.reported
  refine Outcome.forall₂_of_getElem? (by rw [List.length_zip]; omega) ?_
  rintro place ⟨member, newMember⟩ result together resultHere
  obtain ⟨here, newHere⟩ := List.getElem?_zip_eq_some.1 together
  obtain ⟨method, verdicts, planned, replacedCode⟩ :=
    places place member newMember result here newHere resultHere
  obtain ⟨found, foundHere, accountsHere, coded⟩ :=
    Outcome.getElem?_of_forall₂ accounts place _ planned
  obtain rfl := Option.some.inj (resultHere.symm.trans foundHere)
  obtain ⟨-, others⟩ := List.getElem?_zip_eq_some.1 planned
  obtain ⟨methodHere, -⟩ := List.getElem?_zip_eq_some.1 others
  obtain ⟨known, knownHere, ofMember⟩ :=
    Outcome.getElem?_of_forall₂ models.methods place member here
  obtain rfl := Option.some.inj (methodHere.symm.trans knownHere)
  exact contributes_of_accounts models begun ended ofMember accountsHere coded place replacedCode

/-- What weaving a class reports, in terms of the class and the woven class. Calls are counted
in the code of the methods that the class had, with constants of the woven class. -/
structure Tallies (file woven : ClassFile) (policy : Policy) (kept added : List Member)
    (statistics : Statistics) : Prop where
  arguments : statistics.arguments + (file.methods.map (Member.calls woven.pool .argument)).sum =
    (kept.map (Member.calls woven.pool .argument)).sum
  results : statistics.results + (file.methods.map (Member.calls woven.pool .result)).sum =
    (kept.map (Member.calls woven.pool .result)).sum
  fieldReads : statistics.fieldReads + (file.methods.map (Member.calls woven.pool .getField)).sum =
    (kept.map (Member.calls woven.pool .getField)).sum
  fieldWrites :
    statistics.fieldWrites + (file.methods.map (Member.calls woven.pool .putField)).sum =
      (kept.map (Member.calls woven.pool .putField)).sum
  constructorExits : statistics.constructorExits =
    if file.guardedFields policy false ≠ [] then
      ((file.methods.filter (Member.isNamed file.pool "<init>")).map
        (Member.returns file.pool)).sum
    else 0
  staticInitializerExits : statistics.staticInitializerExits =
    if file.guardedFields policy true ≠ [] then
      ((file.methods.filter (Member.isNamed file.pool "<clinit>")).map
        (Member.returns file.pool)).sum
    else 0
  rewrittenMethods : statistics.rewrittenMethods = (file.methods.zip kept).countP
    fun (member, newMember) => newMember.payload? woven.pool != member.payload? woven.pool
  synthesizedMethods : statistics.synthesizedMethods = added.length

/-- The totals of a class are made up by what its methods contribute. -/
theorem tallies_of_contributes (file woven : ClassFile) (policy : Policy)
    (kept added : List Member) (results : List (Option (List UInt8 × Statistics)))
    (sameCount : kept.length = file.methods.length)
    (each : List.Forall₂ (fun (pair : Member × Member)
      (result : Option (List UInt8 × Statistics)) =>
        Contributes file woven policy pair.1 pair.2 (.ofResult result) ∧
          result.isSome = (pair.2.payload? woven.pool != pair.1.payload? woven.pool))
      (file.methods.zip kept) results) :
    Tallies file woven policy kept added
      { Statistics.sum ((results.filterMap id).map Prod.snd) with
        rewrittenMethods := (results.filterMap id).length
        synthesizedMethods := added.length } := by
  have firsts {γ : Type} (f : Member → γ) :
      (file.methods.zip kept).map (fun pair => f pair.1) = file.methods.map f :=
    List.map_map.symm.trans (congrArg (List.map f) (List.map_fst_zip (Nat.le_of_eq sameCount.symm)))
  have seconds {γ : Type} (f : Member → γ) :
      (file.methods.zip kept).map (fun pair => f pair.2) = kept.map f :=
    List.map_map.symm.trans (congrArg (List.map f) (List.map_snd_zip (Nat.le_of_eq sameCount)))
  have calls (kind : CheckKind) (direct : kind.isDirect = true) :
      (Statistics.sum ((results.filterMap id).map Prod.snd)).counted kind +
          (file.methods.map (Member.calls woven.pool kind)).sum =
        (kept.map (Member.calls woven.pool kind)).sum := by
    rw [Statistics.counted_sum_filterMap, ← firsts, ← seconds]
    exact sum_of_forall₂ _ _ _ (fun _ _ contributes => contributes.1.calls kind direct) each
  have exits (kind : CheckKind) (name : String) (counting : Prop) [Decidable counting]
      (settled : ∀ member newMember result,
        Contributes file woven policy member newMember (.ofResult result) →
          (Statistics.ofResult result).counted kind =
            if member.isNamed file.pool name = true ∧ counting then member.returns file.pool
            else 0) :
      (Statistics.sum ((results.filterMap id).map Prod.snd)).counted kind =
        if counting then
          ((file.methods.filter (Member.isNamed file.pool name)).map
            (Member.returns file.pool)).sum
        else 0 := by
    rw [Statistics.counted_sum_filterMap, ← sum_map_ite, ← firsts]
    exact congrArg List.sum
      (Outcome.map_eq_of_forall₂ _ _ (fun _ _ contributes => settled _ _ _ contributes.1) each)
  have rewritten : (results.filterMap id).length = (file.methods.zip kept).countP
      fun (member, newMember) => newMember.payload? woven.pool != member.payload? woven.pool := by
    have agree := Outcome.map_eq_of_forall₂ (fun pair : Member × Member =>
      pair.2.payload? woven.pool != pair.1.payload? woven.pool) Option.isSome
      (fun _ _ contributes => contributes.2) each
    have counted := congrArg (List.countP id) agree
    rw [List.countP_map, List.countP_map] at counted
    rw [List.length_filterMap_eq_countP]
    exact counted
  exact
    { arguments := calls .argument rfl
      results := calls .result rfl
      fieldReads := calls .getField rfl
      fieldWrites := calls .putField rfl
      constructorExits := exits .constructorField "<init>" _
        fun _ _ _ contributes => contributes.constructorExits
      staticInitializerExits := exits .staticInitializerField "<clinit>" _
        fun _ _ _ contributes => contributes.staticInitializerExits
      rewrittenMethods := rewritten
      synthesizedMethods := rfl }

/-! ## Reports of a woven class -/

section

variable (bytes : List UInt8) (file woven : ClassFile) (model : ClassModel) (policy : Policy)
variable (statistics : Statistics)

/-- What weaving reports is what it has done: for each kind of direct check the number of
calls that were put in, for constructors and static initializers the number of their returns
if fields are checked there, the methods whose code has changed and those that were added.
The guards counted are the sum of what each method contributes, and that is nothing for a
method that got no instruction. -/
theorem counts_of_weave (parsed : ClassFile.parse bytes = .ok file)
    (modelled : ClassModel.ofClass file = .ok model)
    (ran : (weave model policy).run file = (.ok (some statistics), woven)) :
    ∃ (kept added : List Member) (contributions : List Statistics),
      woven.methods = kept ++ added ∧ kept.length = file.methods.length ∧
      Tallies file woven policy kept added statistics ∧
      List.Forall₂ (fun (pair : Member × Member) counts =>
        Contributes file woven policy pair.1 pair.2 counts) (file.methods.zip kept)
        contributions ∧
      ∀ kind, statistics.counted kind =
        (contributions.map fun counts => counts.counted kind).sum := by
  obtain ⟨kept, added, results, lists, sameCount, rfl, each⟩ := contributes_of_weave file woven
    model policy statistics (file.size_of_parse bytes parsed) modelled ran
  refine ⟨kept, added, results.map .ofResult, lists, sameCount,
    tallies_of_contributes file woven policy kept added results sameCount each, ?_, ?_⟩
  · rw [List.forall₂_map_right_iff]
    exact each.imp fun _ _ contributes => contributes.1
  · intro kind
    rw [List.map_map]
    have total := Statistics.counted_sum_filterMap results kind
    cases kind <;> exact total

/-- What weaving the class with one method reports. -/
def holderStatistics? : Option Statistics := do
  let file ← (ClassFile.parse holderBytes).toOption
  let model ← (ClassModel.ofClass file).toOption
  ((weave model holderPolicy).run file).1.toOption.join

/-- An argument, a result and a read are checked; one method is rewritten and one is added.
-/
theorem holderStatistics?_eq : holderStatistics? = some ⟨1, 1, 1, 0, 0, 0, 1, 1⟩ := by
  decide +kernel

/-- In the class with one method a parameter, a result and a field that is read are guarded,
and a method is added. -/
theorem counts_of_weave_holder : ∃ (file woven : ClassFile) (model : ClassModel)
    (statistics : Statistics) (kept added : List Member) (contributions : List Statistics),
    ClassFile.parse holderBytes = .ok file ∧ ClassModel.ofClass file = .ok model ∧
      (weave model holderPolicy).run file = (.ok (some statistics), woven) ∧
      statistics = ⟨1, 1, 1, 0, 0, 0, 1, 1⟩ ∧ woven.methods = kept ++ added ∧
      kept.length = file.methods.length ∧
      Tallies file woven holderPolicy kept added statistics ∧
      List.Forall₂ (fun (pair : Member × Member) counts =>
        Contributes file woven holderPolicy pair.1 pair.2 counts) (file.methods.zip kept)
        contributions ∧
      ∀ kind, statistics.counted kind =
        (contributions.map fun counts => counts.counted kind).sum := by
  obtain ⟨file, woven, model, statistics, -, -, -, parsed, modelled, ran, -⟩ := weave_holder
  obtain ⟨kept, added, contributions, rest⟩ :=
    counts_of_weave holderBytes file woven model holderPolicy statistics parsed modelled ran
  have reported : holderStatistics? = some statistics := by
    simp [holderStatistics?, parsed, modelled, ran, Except.toOption]
  exact ⟨file, woven, model, statistics, kept, added, contributions, parsed, modelled, ran,
    Option.some.inj (reported.symm.trans holderStatistics?_eq), rest⟩

end

end NullGuard
