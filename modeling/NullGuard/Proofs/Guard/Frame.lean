import NullGuard.Proofs.Guard.Weave

/-!
# What weaving leaves alone

A woven class holds the class it was woven from. Its pool begins with the slots
that were there, its methods begin with the methods that were there, and a method
that got guards differs in the contents of one attribute only. What is new stands
behind everything else: the methods that check fields, and one attribute.
-/

namespace NullGuard

open Stateful

/-! ## Methods -/

/-- What may become of a method: it stays as it is, or the first attribute that is
named like code gets other contents. -/
inductive Member.Recoded (pool : Pool) (member : Member) : Member → Prop
  | same : Recoded pool member member
  | code {front back : List Attribute} {entry : Attribute} (contents : List UInt8)
      (split : member.attributes = front ++ entry :: back)
      (named : pool.utf8Is entry.name ClassFile.codeName = true)
      (first : ∀ other ∈ front, pool.utf8Is other.name ClassFile.codeName = false) :
      Recoded pool member { member with attributes := front ++ { entry with contents } :: back }

namespace Weaving

/-- New contents are put into the first attribute of the name. -/
theorem replaceContents_eq_some (pool : Pool) (name : String) (contents : List UInt8)
    (attributes replaced : List Attribute) :
    replaceContents pool name contents attributes = some replaced ↔
      ∃ front entry back, attributes = front ++ entry :: back ∧
        pool.utf8Is entry.name name = true ∧
        (∀ other ∈ front, pool.utf8Is other.name name = false) ∧
        replaced = front ++ { entry with contents } :: back := by
  induction attributes generalizing replaced with
  | nil => simp [replaceContents]
  | cons first others inductionHypothesis =>
    rw [replaceContents]
    split
    next named =>
      constructor
      · intro same
        obtain rfl := Option.some.inj same
        exact ⟨[], first, others, rfl, named, by simp, rfl⟩
      · rintro ⟨front, entry, back, split, namedEntry, unnamed, rfl⟩
        cases front with
        | nil =>
          obtain ⟨rfl, rfl⟩ := List.cons.inj split
          rfl
        | cons other front =>
          obtain ⟨rfl, -⟩ := List.cons.inj split
          rw [unnamed first List.mem_cons_self] at named
          cases named
    next unnamedFirst =>
      rw [Option.map_eq_some_iff]
      constructor
      · rintro ⟨rest, replacedRest, rfl⟩
        obtain ⟨front, entry, back, rfl, named, unnamed, rfl⟩ :=
          (inductionHypothesis rest).1 replacedRest
        exact ⟨first :: front, entry, back, rfl, named,
          List.forall_mem_cons.2 ⟨Bool.eq_false_iff.2 unnamedFirst, unnamed⟩, rfl⟩
      · rintro ⟨front, entry, back, split, named, unnamed, rfl⟩
        cases front with
        | nil =>
          obtain ⟨rfl, -⟩ := List.cons.inj split
          exact absurd named unnamedFirst
        | cons other front =>
          obtain ⟨rfl, rfl⟩ := List.cons.inj split
          exact ⟨_, (inductionHypothesis _).2 ⟨front, entry, back, rfl, named,
            (List.forall_mem_cons.1 unnamed).2, rfl⟩, rfl⟩

/-- A method gets new code where it had code before constants were added. -/
theorem recoded_of_replaceCode (pool grown : Pool) (grows : pool.GrowsTo grown)
    (member newMember : Member) (result : Option (List UInt8 × Statistics)) (position : Nat)
    (coded : result = none ∨
      (pool.findAttribute ClassFile.codeName member.attributes).isSome = true)
    (replaced : replaceCode grown position member result = .ok newMember) :
    Member.Recoded pool member newMember := by
  cases result with
  | none =>
    obtain rfl := Except.ok.inj replaced
    exact .same
  | some rewriting =>
    obtain ⟨entry, found⟩ := Option.isSome_iff_exists.1 (coded.resolve_left (Option.some_ne_none _))
    have present : pool.utf8Is entry.name ClassFile.codeName = true :=
      List.find?_some (p := fun entry : Attribute => pool.utf8Is entry.name ClassFile.codeName)
        found
    have same (index : UInt16) :
        grown.utf8Is index ClassFile.codeName = pool.utf8Is index ClassFile.codeName :=
      grows.holds_eq _ ⟨entry.name, present⟩ index
    rw [replaceCode] at replaced
    split at replaced
    next attributes ran =>
      obtain rfl := Except.ok.inj replaced
      obtain ⟨front, entry, back, split, named, first, rfl⟩ :=
        (replaceContents_eq_some ..).1 ran
      exact .code _ split (same _ ▸ named) fun other inside => same _ ▸ first other inside
    next => cases replaced

end Weaving

/-- Every method of a class stays as it is or gets new code. -/
theorem recoded_of_replaceMethods (file : ClassFile) (model : ClassModel) (policy : Policy)
    (modelled : ClassModel.ofClass file = .ok model) (aligned : Aligned file model policy)
    (small : file.pool.size ≤ Pool.maxSize) (pool : Pool) (methods : List Member)
    (results : List (Option (List UInt8 × Statistics)))
    (ran : Runs (Weaving.guardMethods file.methods model policy
      (GuardedFields.ofPolicy model policy)) file.pool results pool)
    (replaced : Weaving.replaceMethods { file with pool } results =
      .ok { file with pool, methods }) :
    List.Forall₂ (Member.Recoded file.pool) file.methods methods := by
  obtain ⟨grows, known⟩ := Weaving.settled_of_guardMethods file model policy small pool results ran
  obtain ⟨sameCount, resultCount, places⟩ := Weaving.places_of_replaceMethods file model policy
    aligned pool methods results known.length_eq replaced
  refine Outcome.forall₂_of_getElem? sameCount.symm fun place member newMember here newHere => ?_
  obtain ⟨result, resultHere⟩ : ∃ result, results[place]? = some result :=
    ⟨_, List.getElem?_eq_getElem (resultCount ▸ (List.getElem?_eq_some_iff.1 here).1)⟩
  obtain ⟨method, verdicts, together, replacedCode⟩ :=
    places place member newMember result here newHere resultHere
  obtain ⟨found, foundHere, -, coded⟩ := Outcome.getElem?_of_forall₂ known place _ together
  obtain rfl := Option.some.inj (resultHere.symm.trans foundHere)
  refine Weaving.recoded_of_replaceCode _ _ grows _ _ result place ?_ replacedCode
  refine coded.symm.imp_right fun coded => ?_
  obtain ⟨-, others⟩ := List.getElem?_zip_eq_some.1 together
  exact model.findAttribute_of_hasCode file modelled place _ _ here
    (List.getElem?_zip_eq_some.1 others).1 coded

/-! ## Classes -/

/-- A class is contained in another one that has been woven from it: only code has
changed, and everything new stands behind what was there. -/
structure ClassFile.Keeps (file woven : ClassFile) (className : String)
    (added : List AddedMethod) : Prop where
  slots : file.pool.slots.toList <+: woven.pool.slots.toList
  constants : ∀ index constant, file.pool.get? index = some constant →
    woven.pool.get? index = some constant
  version : woven.minor = file.minor ∧ woven.major = file.major
  access : woven.access = file.access
  thisClass : woven.thisClass = file.thisClass
  superClass : woven.superClass = file.superClass
  interfaces : woven.interfaces = file.interfaces
  fields : woven.fields = file.fields
  methods : ∃ kept members, woven.methods = kept ++ members ∧
    List.Forall₂ (Member.Recoded file.pool) file.methods kept ∧
    List.Forall₂ (AddedMethod.IsMember woven.pool className) added members
  attributes : ∃ index, woven.attributes = file.attributes ++ [⟨index, []⟩] ∧
    woven.pool.utf8Is index wovenAttribute = true

/-- The slots of a pool are the first ones of a pool that has grown from it. -/
theorem Pool.GrowsTo.isPrefix {pool grown : Pool} (grows : pool.GrowsTo grown) :
    pool.slots.toList <+: grown.slots.toList := by
  rw [List.prefix_iff_getElem?]
  intro index inside
  rw [Array.getElem?_toList]
  refine grows.kept index _ ?_
  rw [← Array.getElem?_toList]
  exact List.getElem?_eq_getElem inside

section

variable (bytes : List UInt8) (file woven : ClassFile) (model : ClassModel) (policy : Policy)
variable (statistics : Statistics)

/-- Weaving touches nothing in a class but the code of its methods, and adds constants,
the methods that check fields, and the attribute of woven classes. -/
theorem keeps_of_weave (parsed : ClassFile.parse bytes = .ok file)
    (modelled : ClassModel.ofClass file = .ok model)
    (ran : (weave model policy).run file = (.ok (some statistics), woven)) :
    file.Keeps woven model.name
      (AddedMethod.all (GuardedFields.ofPolicy model policy) model.isInterface) := by
  have small := file.size_of_parse bytes parsed
  obtain ⟨results, pool, grown, methods, members, index, aligned, wovenMethods, replaced, ended,
    isMember, -, named, rfl⟩ := runs_weave file woven model policy statistics small ran
  obtain ⟨begun, -⟩ := Weaving.settled_of_guardMethods file model policy small pool results
    wovenMethods
  have grows := begun.trans _ _ _ ended
  exact
    { slots := grows.isPrefix
      constants := grows.get?
      version := ⟨rfl, rfl⟩
      access := rfl
      thisClass := rfl
      superClass := rfl
      interfaces := rfl
      fields := rfl
      methods := ⟨methods, members, rfl, recoded_of_replaceMethods file model policy modelled
        aligned small pool methods results wovenMethods replaced, isMember⟩
      attributes := ⟨index, rfl, named⟩ }

/-- The class with one method gets a method that checks its field. -/
theorem keeps_of_weave_holder : ∃ (file woven : ClassFile) (model : ClassModel)
    (statistics : Statistics), ClassFile.parse holderBytes = .ok file ∧
      ClassModel.ofClass file = .ok model ∧
      (weave model holderPolicy).run file = (.ok (some statistics), woven) ∧
      file.Keeps woven model.name
        (AddedMethod.all (GuardedFields.ofPolicy model holderPolicy) model.isInterface) := by
  obtain ⟨file, woven, model, statistics, -, -, -, parsed, modelled, ran, -⟩ := weave_holder
  exact ⟨file, woven, model, statistics, parsed, modelled, ran,
    keeps_of_weave holderBytes file woven model holderPolicy statistics parsed modelled ran⟩

end

end NullGuard
