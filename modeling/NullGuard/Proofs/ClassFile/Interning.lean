import NullGuard.Proofs.ClassFile.Growth
import NullGuard.Proofs.ClassFile.WellFormed

/-!
# Interning over whole runs

A pool is asked for constants by the texts that they are made of. The constant of a
request stands at an index if the pool holds it there and nowhere further in front, and
the constants that it refers to stand at the indices that it refers to
(`Request.StandsAt`). In one pool an index and a request determine each other, growing
keeps all of that, and a request for something that stands in the pool is answered
without a change. So an answer that was given once is given for good
(`interning_sound`).

A pool that was read may hold a text twice. Then a class entry that refers to the second
copy resolves to the same name, but no request leads to it; this is why `StandsAt` asks
for the first slot everywhere, and why it says more than `Resolves`.
-/

namespace NullGuard.Pool

open Stateful

/-! ## Requests -/

/-- What can be asked of a pool: a constant, by the texts that it is made of. -/
inductive Request
  | utf8 (text : String)
  | classEntry (name : String)
  | stringEntry (text : String)
  | nameAndType (name descriptor : String)
  | fieldRef (member : MemberRef)
  | methodRef (member : MemberRef)
  deriving DecidableEq, Repr

namespace Request

/-- The step that answers a request with an index. -/
def add : Request → Growth UInt16
  | .utf8 text => addUtf8 text
  | .classEntry name => addClass name
  | .stringEntry text => addString text
  | .nameAndType name descriptor => addNameAndType name descriptor
  | .fieldRef member => addFieldRef member.owner member.name member.descriptor
  | .methodRef member => addMethodRef member.owner member.name member.descriptor

/-- The texts of a request. -/
def texts : Request → List String
  | .utf8 text | .classEntry text | .stringEntry text => [text]
  | .nameAndType name descriptor => [name, descriptor]
  | .fieldRef member | .methodRef member => [member.owner, member.name, member.descriptor]

/-- The requests whose constants a request needs, its own constant last. -/
def parts : Request → List Request
  | .utf8 text => [.utf8 text]
  | .classEntry name => [.utf8 name, .classEntry name]
  | .stringEntry text => [.utf8 text, .stringEntry text]
  | .nameAndType name descriptor =>
    [.utf8 name, .utf8 descriptor, .nameAndType name descriptor]
  | .fieldRef member =>
    [.utf8 member.owner, .classEntry member.owner, .utf8 member.name, .utf8 member.descriptor,
      .nameAndType member.name member.descriptor, .fieldRef member]
  | .methodRef member =>
    [.utf8 member.owner, .classEntry member.owner, .utf8 member.name, .utf8 member.descriptor,
      .nameAndType member.name member.descriptor, .methodRef member]

/-- An index resolves to what a request asks for. -/
def Resolves (pool : Pool) (index : UInt16) : Request → Prop
  | .utf8 text => pool.utf8 index = .ok text
  | .classEntry name => pool.className index = .ok name
  | .stringEntry text => pool.IsString index text
  | .nameAndType name descriptor => pool.nameAndType index = .ok (name, descriptor)
  | .fieldRef member => pool.IsFieldRef index member
  | .methodRef member => pool.IsMethodRef index member

/-- The constant of a request stands at an index, and nowhere further in front. -/
inductive StandsAt (pool : Pool) : Request → UInt16 → Prop
  | utf8 {text : String} {index : UInt16}
      (found : pool.indexOf? (.utf8 (Text.ModifiedUtf8.encode text)) = some index.toNat) :
      StandsAt pool (.utf8 text) index
  | classEntry {name : String} {text index : UInt16} (named : StandsAt pool (.utf8 name) text)
      (found : pool.indexOf? (.classEntry text) = some index.toNat) :
      StandsAt pool (.classEntry name) index
  | stringEntry {content : String} {text index : UInt16}
      (held : StandsAt pool (.utf8 content) text)
      (found : pool.indexOf? (.stringEntry text) = some index.toNat) :
      StandsAt pool (.stringEntry content) index
  | nameAndType {name descriptor : String} {first second index : UInt16}
      (named : StandsAt pool (.utf8 name) first)
      (described : StandsAt pool (.utf8 descriptor) second)
      (found : pool.indexOf? (.nameAndType first second) = some index.toNat) :
      StandsAt pool (.nameAndType name descriptor) index
  | fieldRef {member : MemberRef} {owner texts index : UInt16}
      (owned : StandsAt pool (.classEntry member.owner) owner)
      (named : StandsAt pool (.nameAndType member.name member.descriptor) texts)
      (found : pool.indexOf? (.fieldRef owner texts) = some index.toNat) :
      StandsAt pool (.fieldRef member) index
  | methodRef {member : MemberRef} {owner texts index : UInt16}
      (owned : StandsAt pool (.classEntry member.owner) owner)
      (named : StandsAt pool (.nameAndType member.name member.descriptor) texts)
      (found : pool.indexOf? (.methodRef owner texts) = some index.toNat) :
      StandsAt pool (.methodRef member) index

/-- Why a pool has no answer to a request: a text is too long, or a constant that is
needed is not there and no more constants can be added. -/
inductive Refused (pool : Pool) (request : Request) : Failure → Prop
  | tooLong (text : String) (member : text ∈ request.texts)
      (long : 65535 < (Text.ModifiedUtf8.encode text).length) :
      Refused pool request (.of .utf8TooLong)
  | full (part : Request) (member : part ∈ request.parts)
      (missing : ∀ index, ¬ StandsAt pool part index) (full : pool.size = maxSize) :
      Refused pool request (.of .poolFull)

end Request

/-! ## Places -/

/-- The place of a constant outlasts growing. -/
theorem GrowsTo.indexOf? {pool grown : Pool} (grows : pool.GrowsTo grown) (constant : Constant)
    (place : Nat) (found : pool.indexOf? constant = some place) :
    grown.indexOf? constant = some place := by
  rw [indexOf?_eq_some_iff] at found ⊢
  obtain ⟨held, first⟩ := found
  have inside : place < pool.slots.size := (Array.getElem?_eq_some_iff.1 held).1
  refine ⟨grows.kept _ _ held, fun earlier before here => first earlier before ?_⟩
  have there := Array.getElem?_eq_getElem (Nat.lt_trans before inside)
  rw [there, ← grows.kept _ _ there, here]

/-- A constant that is there already is found, and the pool stays as it is. -/
theorem runs_intern_of_indexOf? (pool : Pool) (constant : Constant) (index : UInt16)
    (found : pool.indexOf? constant = some index.toNat) :
    Runs (intern constant) pool index pool := by
  show pool.interned constant = (.ok index, pool)
  simp [interned, found]

/-- A constant is refused when it is not there and the pool is full. -/
theorem fails_intern (pool after : Pool) (constant : Constant) (failure : Failure)
    (small : pool.size ≤ maxSize) (failed : Fails (intern constant) pool failure after) :
    failure = .of .poolFull ∧ after = pool ∧ pool.size = maxSize ∧
      pool.indexOf? constant = none := by
  replace failed : pool.interned constant = (.error failure, after) := failed
  rw [interned] at failed
  split at failed
  next => cases failed
  next absent =>
    split at failed
    next => cases failed
    next room =>
      cases failed
      exact ⟨rfl, rfl, Nat.le_antisymm small (Nat.not_lt.1 room), absent⟩

/-- Every text of a well-formed pool can be counted. -/
theorem WellFormed.fits {pool : Pool} (wellFormed : pool.WellFormed) (place : Nat)
    (constant : Constant) (here : pool.slots[place]? = some (some constant)) :
    constant.Fits := by
  obtain ⟨constants, slots, filled⟩ := wellFormed.filled
  have member : some constant ∈ constants := by
    have inside := Array.mem_toList_iff.2 (Array.mem_of_getElem? here)
    rw [slots] at inside
    simpa using inside
  clear slots here
  induction filled with
  | nil => simp at member
  | narrow isNarrow fits rest inductionHypothesis =>
    simp only [List.mem_cons, Option.some.injEq] at member
    obtain rfl | member := member
    · exact fits
    · exact inductionHypothesis member
  | wide isWide fits rest inductionHypothesis =>
    simp only [List.mem_cons, Option.some.injEq, reduceCtorEq, false_or] at member
    obtain rfl | member := member
    · exact fits
    · exact inductionHypothesis member

/-! ## What stands at an index -/

namespace Request

section

variable {pool grown : Pool} {request other : Request} {index place : UInt16}

/-- What a request has been given stays at its index as the pool grows. -/
theorem StandsAt.grow (stands : request.StandsAt pool index) (grows : pool.GrowsTo grown) :
    request.StandsAt grown index := by
  induction stands with
  | utf8 found => exact .utf8 (grows.indexOf? _ _ found)
  | classEntry _ found named => exact .classEntry named (grows.indexOf? _ _ found)
  | stringEntry _ found held => exact .stringEntry held (grows.indexOf? _ _ found)
  | nameAndType _ _ found named described =>
    exact .nameAndType named described (grows.indexOf? _ _ found)
  | fieldRef _ _ found owned named => exact .fieldRef owned named (grows.indexOf? _ _ found)
  | methodRef _ _ found owned named => exact .methodRef owned named (grows.indexOf? _ _ found)

/-- A request leads to one index. -/
theorem StandsAt.index_eq (stands : request.StandsAt pool index)
    (again : request.StandsAt pool place) : index = place := by
  have same {constant : Constant} {one two : UInt16}
      (first : pool.indexOf? constant = some one.toNat)
      (second : pool.indexOf? constant = some two.toNat) : one = two :=
    UInt16.toNat_inj.1 (Option.some.inj (first.symm.trans second))
  induction stands generalizing place with
  | utf8 found =>
    cases again with
    | utf8 foundAgain => exact same found foundAgain
  | classEntry _ found named =>
    cases again with
    | classEntry namedAgain foundAgain =>
      rw [named namedAgain] at found
      exact same found foundAgain
  | stringEntry _ found held =>
    cases again with
    | stringEntry heldAgain foundAgain =>
      rw [held heldAgain] at found
      exact same found foundAgain
  | nameAndType _ _ found named described =>
    cases again with
    | nameAndType namedAgain describedAgain foundAgain =>
      rw [named namedAgain, described describedAgain] at found
      exact same found foundAgain
  | fieldRef _ _ found owned named =>
    cases again with
    | fieldRef ownedAgain namedAgain foundAgain =>
      rw [owned ownedAgain, named namedAgain] at found
      exact same found foundAgain
  | methodRef _ _ found owned named =>
    cases again with
    | methodRef ownedAgain namedAgain foundAgain =>
      rw [owned ownedAgain, named namedAgain] at found
      exact same found foundAgain

/-- An index where a request stands resolves to what was asked for. -/
theorem StandsAt.resolves (stands : request.StandsAt pool index) :
    request.Resolves pool index := by
  induction stands with
  | utf8 found =>
    have here := pool.get?_of_indexOf? _ _ found
    exact pool.utf8_of_utf8Is _ _ ((pool.holds_iff ..).2 here)
  | classEntry _ found named =>
    have here := pool.get?_of_indexOf? _ _ found
    exact (Outcome.bind_eq_ok ..).2 ⟨_, pool.get_of_get? _ _ here, named⟩
  | stringEntry _ found held => exact ⟨_, pool.get?_of_indexOf? _ _ found, held⟩
  | nameAndType _ _ found named described =>
    have here := pool.get?_of_indexOf? _ _ found
    refine (Outcome.bind_eq_ok ..).2 ⟨_, pool.get_of_get? _ _ here, ?_⟩
    exact (Outcome.bind_eq_ok ..).2 ⟨_, named, (Outcome.bind_eq_ok ..).2 ⟨_, described, rfl⟩⟩
  | fieldRef _ _ found owned named =>
    have here := pool.get?_of_indexOf? _ _ found
    refine ⟨⟨_, _, here⟩, (Outcome.bind_eq_ok ..).2 ⟨_, pool.get_of_get? _ _ here, ?_⟩⟩
    refine (Outcome.bind_eq_ok ..).2 ⟨_, (Outcome.during_eq_ok ..).2 owned, ?_⟩
    exact (Outcome.bind_eq_ok ..).2 ⟨_, (Outcome.during_eq_ok ..).2 named, rfl⟩
  | methodRef _ _ found owned named =>
    have here := pool.get?_of_indexOf? _ _ found
    refine ⟨⟨_, _, here⟩, (Outcome.bind_eq_ok ..).2 ⟨_, pool.get_of_get? _ _ here, ?_⟩⟩
    refine (Outcome.bind_eq_ok ..).2 ⟨_, (Outcome.during_eq_ok ..).2 owned, ?_⟩
    exact (Outcome.bind_eq_ok ..).2 ⟨_, (Outcome.during_eq_ok ..).2 named, rfl⟩

/-- The request that an index is an answer to. -/
def answered? (pool : Pool) (index : UInt16) : Option Request :=
  match pool.get? index with
  | some (.utf8 _) => (pool.utf8 index).toOption.map .utf8
  | some (.classEntry _) => (pool.className index).toOption.map .classEntry
  | some (.stringEntry text) => (pool.utf8 text).toOption.map .stringEntry
  | some (.nameAndType _ _) => (pool.nameAndType index).toOption.map fun texts =>
    .nameAndType texts.1 texts.2
  | some (.fieldRef _ _) => (pool.memberRef index).toOption.map .fieldRef
  | some (.methodRef _ _) => (pool.memberRef index).toOption.map .methodRef
  | _ => none

/-- What an index resolves to can be read off the pool. -/
theorem Resolves.answered? (resolves : request.Resolves pool index) :
    answered? pool index = some request := by
  cases request with
  | utf8 text =>
    replace resolves : pool.utf8 index = .ok text := resolves
    obtain ⟨bytes, held, -⟩ := pool.holds_of_utf8 _ _ resolves
    simp [Request.answered?, (pool.holds_iff ..).1 held, resolves, Except.toOption]
  | classEntry name =>
    replace resolves : pool.className index = .ok name := resolves
    obtain ⟨bytes, ⟨text, here, -⟩, -⟩ := namesClass_of_className resolves
    simp [Request.answered?, here, resolves, Except.toOption]
  | stringEntry content =>
    obtain ⟨text, here, held⟩ := resolves
    simp [Request.answered?, here, held, Except.toOption]
  | nameAndType name descriptor =>
    replace resolves : pool.nameAndType index = .ok (name, descriptor) := resolves
    obtain ⟨constant, present, named⟩ := (Outcome.bind_eq_ok ..).1 resolves
    split at named
    next => simp [Request.answered?, pool.get?_of_get _ _ present, resolves, Except.toOption]
    next => cases named
  | fieldRef member =>
    obtain ⟨⟨owner, texts, here⟩, resolved⟩ := resolves
    simp [Request.answered?, here, resolved, Except.toOption]
  | methodRef member =>
    obtain ⟨⟨owner, texts, here⟩, resolved⟩ := resolves
    simp [Request.answered?, here, resolved, Except.toOption]

/-- An index is the answer to one request. -/
theorem Resolves.request_eq (resolves : request.Resolves pool index)
    (others : other.Resolves pool index) : request = other :=
  Option.some.inj (resolves.answered?.symm.trans others.answered?)

end

/-! ## Answers -/

/-- What is wrong with a part of a request is wrong with the request. -/
theorem Refused.of_part {pool : Pool} {part whole : Request} {failure : Failure}
    (refused : part.Refused pool failure) (texts : part.texts ⊆ whole.texts)
    (parts : part.parts ⊆ whole.parts) : whole.Refused pool failure := by
  cases refused with
  | tooLong text member long => exact .tooLong text (texts member) long
  | full part member missing full => exact .full part (parts member) missing full

/-- How a pool deals with a request: it only grows, an answer is the index where the request
stands from then on, what stands in the pool is answered without a change, and nothing is
refused without a reason. -/
structure Behaves (request : Request) : Prop where
  grows : Keeps GrowsTo request.add
  answers : ∀ {pool grown : Pool} {index : UInt16}, pool.size ≤ maxSize →
    Runs request.add pool index grown → request.StandsAt grown index
  repeats : ∀ {pool : Pool} {index : UInt16}, pool.WellFormed → request.StandsAt pool index →
    Runs request.add pool index pool
  refuses : ∀ {pool after : Pool} {failure : Failure}, pool.size ≤ maxSize →
    Fails request.add pool failure after → request.Refused after failure

/-- A request that succeeds only makes the pool grow. -/
theorem Behaves.grows_of_runs {request : Request} (behaves : request.Behaves)
    {pool grown : Pool} {index : UInt16} (ran : Runs request.add pool index grown) :
    pool.GrowsTo grown := by
  have grows := behaves.grows pool
  rw [ran] at grows
  exact grows

/-- A text that is asked for is encoded first, and refused if its bytes are too many. -/
theorem add_utf8 (text : String) :
    add (.utf8 text) =
      if (Text.ModifiedUtf8.encode text).length < 65536 then
        intern (.utf8 (Text.ModifiedUtf8.encode text))
      else fail .utf8TooLong := rfl

/-- A text gets one index, and that of the first slot that holds it. -/
theorem behaves_utf8 (text : String) : (Request.utf8 text).Behaves where
  grows := by
    rw [add_utf8]
    split
    · exact fun pool => pool.growsTo_interned _
    · exact fun pool => .refl pool
  answers small ran := by
    rw [add_utf8] at ran
    split at ran
    · exact .utf8 (indexOf?_of_interned _ _ _ _ small ran)
    · exact (not_runs_fail _ _ _ _ ran).elim
  repeats wellFormed stands := by
    cases stands with
    | utf8 found =>
      have short : (Text.ModifiedUtf8.encode text).length < 65536 :=
        wellFormed.fits _ _ ((indexOf?_eq_some_iff ..).1 found).1
      rw [add_utf8, if_pos short]
      exact runs_intern_of_indexOf? _ _ _ found
  refuses small failed := by
    rw [add_utf8] at failed
    split at failed
    next =>
      obtain ⟨rfl, rfl, full, absent⟩ := fails_intern _ _ _ _ small failed
      refine .full (.utf8 text) (by simp [parts]) (fun index stands => ?_) full
      cases stands with
      | utf8 found =>
        rw [absent] at found
        cases found
    next long =>
      cases failed
      exact .tooLong text (by simp [texts]) (by omega)

section

variable {whole : Request}

/-- A request with one part: the index of the part is asked for first. -/
theorem Behaves.of_one {part : Request} (behaves : part.Behaves) (constant : UInt16 → Constant)
    (adds : whole.add = do intern (constant (← part.add)))
    (stands : ∀ pool index, whole.StandsAt pool index ↔ ∃ place, part.StandsAt pool place ∧
      pool.indexOf? (constant place) = some index.toNat)
    (texts : part.texts ⊆ whole.texts) (parts : part.parts ⊆ whole.parts)
    (self : whole ∈ whole.parts) : whole.Behaves where
  grows := by
    rw [adds]
    exact .bind GrowsTo.trans behaves.grows fun _ pool => pool.growsTo_interned _
  answers small ran := by
    rw [adds, runs_bind] at ran
    obtain ⟨place, middle, first, last⟩ := ran
    have begun := (behaves.grows_of_runs first).bounded small
    have ended := (interned_eq _ _ _ _ begun last).1
    rw [stands]
    exact ⟨place, (behaves.answers small first).grow ended,
      indexOf?_of_interned _ _ _ _ begun last⟩
  repeats wellFormed there := by
    obtain ⟨place, partThere, found⟩ := (stands ..).1 there
    rw [adds, runs_bind]
    exact ⟨place, _, behaves.repeats wellFormed partThere, runs_intern_of_indexOf? _ _ _ found⟩
  refuses small failed := by
    rw [adds, fails_bind] at failed
    obtain first | ⟨place, middle, first, last⟩ := failed
    · exact (behaves.refuses small first).of_part texts parts
    · have begun := (behaves.grows_of_runs first).bounded small
      obtain ⟨rfl, rfl, full, absent⟩ := fails_intern _ _ _ _ begun last
      refine .full whole self (fun index there => ?_) full
      obtain ⟨other, partThere, found⟩ := (stands ..).1 there
      rw [partThere.index_eq (behaves.answers small first), absent] at found
      cases found

/-- A request with two parts: their indices are asked for one after the other. -/
theorem Behaves.of_two {part second : Request} (behaves : part.Behaves)
    (behavesToo : second.Behaves) (constant : UInt16 → UInt16 → Constant)
    (adds : whole.add = do intern (constant (← part.add) (← second.add)))
    (stands : ∀ pool index, whole.StandsAt pool index ↔ ∃ place next,
      part.StandsAt pool place ∧ second.StandsAt pool next ∧
        pool.indexOf? (constant place next) = some index.toNat)
    (texts : part.texts ++ second.texts ⊆ whole.texts)
    (parts : part.parts ++ second.parts ⊆ whole.parts)
    (self : whole ∈ whole.parts) : whole.Behaves where
  grows := by
    rw [adds]
    exact .bind GrowsTo.trans behaves.grows fun _ => .bind GrowsTo.trans behavesToo.grows
      fun _ pool => pool.growsTo_interned _
  answers small ran := by
    rw [adds, runs_bind] at ran
    obtain ⟨place, middle, first, ran⟩ := ran
    obtain ⟨next, later, ranSecond, last⟩ := (runs_bind ..).1 ran
    have begun := (behaves.grows_of_runs first).bounded small
    have between := behavesToo.grows_of_runs ranSecond
    have ended := (interned_eq _ _ _ _ (between.bounded begun) last).1
    rw [stands]
    exact ⟨place, next, ((behaves.answers small first).grow between).grow ended,
      (behavesToo.answers begun ranSecond).grow ended,
      indexOf?_of_interned _ _ _ _ (between.bounded begun) last⟩
  repeats wellFormed there := by
    obtain ⟨place, next, partThere, secondThere, found⟩ := (stands ..).1 there
    rw [adds, runs_bind]
    refine ⟨place, _, behaves.repeats wellFormed partThere, (runs_bind ..).2 ?_⟩
    exact ⟨next, _, behavesToo.repeats wellFormed secondThere, runs_intern_of_indexOf? _ _ _ found⟩
  refuses small failed := by
    rw [List.append_subset] at texts parts
    rw [adds, fails_bind] at failed
    obtain first | ⟨place, middle, first, failed⟩ := failed
    · exact (behaves.refuses small first).of_part texts.1 parts.1
    have begun := (behaves.grows_of_runs first).bounded small
    obtain failedSecond | ⟨next, later, ranSecond, last⟩ := (fails_bind ..).1 failed
    · exact (behavesToo.refuses begun failedSecond).of_part texts.2 parts.2
    have between := behavesToo.grows_of_runs ranSecond
    obtain ⟨rfl, rfl, full, absent⟩ := fails_intern _ _ _ _ (between.bounded begun) last
    refine .full whole self (fun index there => ?_) full
    obtain ⟨one, two, partThere, secondThere, found⟩ := (stands ..).1 there
    rw [partThere.index_eq ((behaves.answers small first).grow between),
      secondThere.index_eq (behavesToo.answers begun ranSecond), absent] at found
    cases found

end

/-- A class entry gets one index. -/
theorem behaves_classEntry (name : String) : (Request.classEntry name).Behaves := by
  refine (behaves_utf8 name).of_one .classEntry rfl (fun pool index => ⟨?_, ?_⟩) (by simp [texts])
    (by simp [parts]) (by simp [parts])
  · rintro (_ | ⟨named, found⟩)
    exact ⟨_, named, found⟩
  · rintro ⟨text, named, found⟩
    exact .classEntry named found

/-- A name and type entry gets one index. -/
theorem behaves_nameAndType (name descriptor : String) :
    (Request.nameAndType name descriptor).Behaves := by
  refine (behaves_utf8 name).of_two (behaves_utf8 descriptor) .nameAndType rfl
    (fun pool index => ⟨?_, ?_⟩) (by simp [texts]) (by simp [parts]) (by simp [parts])
  · rintro (_ | _ | _ | ⟨named, described, found⟩)
    exact ⟨_, _, named, described, found⟩
  · rintro ⟨first, second, named, described, found⟩
    exact .nameAndType named described found

/-- Every request is dealt with in this way: one case for each way in which a request is
made of others. -/
theorem behaves (request : Request) : request.Behaves := by
  cases request with
  | utf8 text => exact behaves_utf8 text
  | classEntry name => exact behaves_classEntry name
  | stringEntry text =>
    refine (behaves_utf8 text).of_one .stringEntry rfl (fun pool index => ⟨?_, ?_⟩)
      (by simp [texts]) (by simp [parts]) (by simp [parts])
    · rintro (_ | _ | ⟨held, found⟩)
      exact ⟨_, held, found⟩
    · rintro ⟨place, held, found⟩
      exact .stringEntry held found
  | nameAndType name descriptor => exact behaves_nameAndType name descriptor
  | fieldRef member =>
    refine (behaves_classEntry member.owner).of_two
      (behaves_nameAndType member.name member.descriptor) .fieldRef rfl
      (fun pool index => ⟨?_, ?_⟩) (by simp [texts]) (by simp [parts]) (by simp [parts])
    · rintro (_ | _ | _ | _ | ⟨owned, named, found⟩)
      exact ⟨_, _, owned, named, found⟩
    · rintro ⟨owner, next, owned, named, found⟩
      exact .fieldRef owned named found
  | methodRef member =>
    refine (behaves_classEntry member.owner).of_two
      (behaves_nameAndType member.name member.descriptor) .methodRef rfl
      (fun pool index => ⟨?_, ?_⟩) (by simp [texts]) (by simp [parts]) (by simp [parts])
    · rintro (_ | _ | _ | _ | _ | ⟨owned, named, found⟩)
      exact ⟨_, _, owned, named, found⟩
    · rintro ⟨owner, next, owned, named, found⟩
      exact .methodRef owned named found

end Request

/-! ## Runs -/

/-- The pool behind a request, whether or not the request was answered. -/
def after (pool : Pool) (request : Request) : Pool := (request.add pool).2

/-- The pool behind some requests. -/
def afterAll (pool : Pool) (requests : List Request) : Pool := requests.foldl after pool

/-- The pools that come about when constants are added to the empty pool or to one that
was read. -/
inductive Obtained : Pool → Prop
  | empty : Obtained .empty
  | read {bytes rest : List UInt8} {pool : Pool} (ran : read bytes = .ok (pool, rest)) :
    Obtained pool
  | after {pool : Pool} (before : Obtained pool) (request : Request) :
    Obtained (pool.after request)

/-- No request spoils a pool. -/
instance (request : Request) : Upholds WellFormed request.add := by
  cases request <;> unfold Request.add <;> infer_instance

/-- A pool stays well formed whatever is asked of it. -/
theorem WellFormed.after {pool : Pool} (wellFormed : pool.WellFormed) (request : Request) :
    (pool.after request).WellFormed :=
  (upholds_iff request.add).1 inferInstance pool wellFormed

/-- The pools that can be obtained are well formed. -/
theorem Obtained.wellFormed {pool : Pool} (obtained : pool.Obtained) : pool.WellFormed := by
  induction obtained with
  | empty => exact ⟨⟨[], rfl, .nil⟩, by decide⟩
  | read ran =>
    obtain ⟨front, -, taken⟩ := (Reader.run_eq_ok ..).1 ran
    exact ((takes_read ..).1 taken).2
  | after _ request wellFormed => exact wellFormed.after request

/-- What any number of requests keep: a pool grows and stays well-formed. -/
theorem afterAll_keeps (pool : Pool) (wellFormed : pool.WellFormed) (requests : List Request) :
    pool.GrowsTo (pool.afterAll requests) ∧ (pool.afterAll requests).WellFormed := by
  induction requests generalizing pool with
  | nil => exact ⟨.refl pool, wellFormed⟩
  | cons request others inductionHypothesis =>
    obtain ⟨grows, last⟩ := inductionHypothesis (pool.after request) (wellFormed.after request)
    exact ⟨.trans _ _ _ (request.behaves.grows pool) grows, last⟩

/-- Whatever a pool has been asked for, it has at most 65535 slots, and what stands at an
index stands there for good. A request that is answered is answered with an index that
resolves to what was asked for, now and behind any further requests; there it is answered
with the same index again without any change, and another request never is. A request is
refused only if one of its texts is too long, or if it needs a constant that is not there
while the pool has as many slots as it can have. -/
theorem interning_sound (pool : Pool) (obtained : pool.Obtained) :
    pool.size ≤ 65535 ∧
      (∀ requests index constant, pool.get? index = some constant →
        (pool.afterAll requests).get? index = some constant) ∧
      ∀ request : Request,
        (∀ index grown, Runs request.add pool index grown →
          request.Resolves grown index ∧
            ∀ later, request.Resolves (grown.afterAll later) index ∧
              Runs request.add (grown.afterAll later) index (grown.afterAll later) ∧
              ∀ other place last, other ≠ request →
                Runs other.add (grown.afterAll later) place last → place ≠ index) ∧
        ∀ failure left, Fails request.add pool failure left → request.Refused left failure := by
  have wellFormed := obtained.wellFormed
  refine ⟨wellFormed.bounded, ?_, fun request => ⟨?_, ?_⟩⟩
  · intro requests index constant
    exact (pool.afterAll_keeps wellFormed requests).1.get? index constant
  · intro index grown ran
    have stands := request.behaves.answers wellFormed.bounded ran
    have grownWell : grown.WellFormed := Upholds.of_runs inferInstance ran wellFormed
    refine ⟨stands.resolves, fun later => ?_⟩
    obtain ⟨grows, laterWell⟩ := grown.afterAll_keeps grownWell later
    have stays := stands.grow grows
    refine ⟨stays.resolves, request.behaves.repeats laterWell stays, ?_⟩
    rintro other place last different ranOther rfl
    have standsOther := other.behaves.answers laterWell.bounded ranOther
    have staysLast := stays.grow (other.behaves.grows_of_runs ranOther)
    exact different (standsOther.resolves.request_eq staysLast.resolves)
  · intro failure left
    exact request.behaves.refuses wellFormed.bounded

/-- A pool in which the same text stands twice, with a class entry for the second copy. -/
def twice : Pool :=
  .ofSlots #[none, some (.utf8 [65]), some (.utf8 [65]), some (.classEntry 2)]

/-- No request is answered with the entry for the second copy. The class gets an entry of its
own, and that one it keeps. -/
theorem interning_sound_twice : ∃ grown, twice.Obtained ∧ twice.className 3 = .ok "A" ∧
    Runs (Request.classEntry "A").add twice 4 grown ∧ grown.className 4 = .ok "A" ∧
    Runs (Request.classEntry "A").add (grown.afterAll [.utf8 "B", .stringEntry "A"]) 4
      (grown.afterAll [.utf8 "B", .stringEntry "A"]) := by
  have parsed : Pool.read.run [0, 4, 1, 0, 1, 65, 1, 0, 1, 65, 7, 0, 2] = .ok (twice, []) := by
    decide +kernel
  have obtained : twice.Obtained := .read parsed
  have answer : ((Request.classEntry "A").add twice).1 = .ok 4 := by decide +kernel
  have ran : Runs (Request.classEntry "A").add twice 4 (twice.after (.classEntry "A")) :=
    Prod.ext answer rfl
  obtain ⟨-, -, answered⟩ := interning_sound twice obtained
  obtain ⟨resolves, later⟩ := (answered (.classEntry "A")).1 4 _ ran
  obtain ⟨-, again, -⟩ := later [.utf8 "B", .stringEntry "A"]
  exact ⟨_, obtained, by decide +kernel, ran, resolves, again⟩

end NullGuard.Pool
