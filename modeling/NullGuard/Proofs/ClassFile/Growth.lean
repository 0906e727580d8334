import NullGuard.ClassFile.Basic
import NullGuard.Proofs.Stateful
import NullGuard.Proofs.Text.ModifiedUtf8

/-!
# Growing pools

A pool grows at its end, and only by constants that it does not hold yet. So an
index keeps its meaning (`GrowsTo.memberRef`), and a text that is there already
stays at the indices where it was (`GrowsTo.holds_eq`). Each step that adds
constants yields an index under which the grown pool resolves to just what was
asked for. A reference that is added is spelled with the canonical bytes of its texts,
which says more than what it resolves to: several spellings are read as one text.
-/

namespace NullGuard.Pool

open Stateful

/-- A slot holds some bytes if the constant in it is a text of these bytes. -/
theorem holds_iff (pool : Pool) (bytes : List UInt8) (index : UInt16) :
    pool.holds bytes index = true ↔ pool.get? index = some (.utf8 bytes) := by
  rw [holds]
  split
  next held here => simp [here]
  next other =>
    constructor
    · intro impossible
      cases impossible
    · intro here
      exact absurd here (other bytes)

/-! ## What growth keeps -/

/-- The slots of a pool with new constants behind them. -/
structure GrowsTo (pool grown : Pool) : Prop where
  kept : ∀ (index : Nat) (slot : Option Constant), pool.slots[index]? = some slot →
    grown.slots[index]? = some slot
  bounded : pool.size ≤ maxSize → grown.size ≤ maxSize
  fresh : ∀ (index : Nat) (constant : Constant), pool.size ≤ index →
    grown.slots[index]? = some (some constant) → some constant ∉ pool.slots

namespace GrowsTo

/-- A pool grows to itself. -/
theorem refl (pool : Pool) : pool.GrowsTo pool where
  kept _ _ here := here
  bounded small := small
  fresh index constant behind here := by
    have absent : pool.slots[index]? = none := Array.getElem?_eq_none behind
    rw [absent] at here
    cases here

/-- A pool that grows twice has grown. -/
theorem trans (first second third : Pool) (begun : first.GrowsTo second)
    (ended : second.GrowsTo third) : first.GrowsTo third where
  kept index slot here := ended.kept index slot (begun.kept index slot here)
  bounded small := ended.bounded (begun.bounded small)
  fresh index constant behind here := by
    by_cases inside : index < second.size
    · have there := ended.kept index _ (Array.getElem?_eq_getElem inside)
      rw [here] at there
      exact begun.fresh index constant behind
        (by rw [Array.getElem?_eq_getElem inside, ← Option.some.inj there])
    · intro member
      obtain ⟨other, bound, held⟩ := Array.mem_iff_getElem.1 member
      have there := begun.kept other _ (by rw [Array.getElem?_eq_getElem bound, held])
      exact ended.fresh index constant (by omega) here (Array.mem_of_getElem? there)

variable {pool grown : Pool} (grows : pool.GrowsTo grown)
include grows

/-- What stands in a slot stays there as the pool grows. -/
theorem get? (index : UInt16) (constant : Constant) (here : pool.get? index = some constant) :
    grown.get? index = some constant := by
  rw [Pool.get?, Option.join_eq_some_iff] at here ⊢
  exact grows.kept _ _ here

/-- What a slot has to hold, it goes on holding. -/
theorem get (index : UInt16) (constant : Constant) (here : pool.get index = .ok constant) :
    grown.get index = .ok constant := by
  rw [Pool.get] at here ⊢
  split at here
  next found present =>
    obtain rfl := Except.ok.inj here
    rw [grows.get? index found present]
  next => cases here

/-- A text stays where it is. -/
theorem utf8Is (index : UInt16) (text : String) (here : pool.utf8Is index text = true) :
    grown.utf8Is index text = true :=
  (holds_iff ..).2 (grows.get? index _ ((holds_iff ..).1 here))

/-- A text stays at its index. -/
theorem utf8 (index : UInt16) (text : String) (here : pool.utf8 index = .ok text) :
    grown.utf8 index = .ok text := by
  obtain ⟨bytes, found, returned⟩ := (Outcome.bind_eq_ok ..).1 here
  obtain ⟨constant, present, matched⟩ := (Outcome.bind_eq_ok ..).1 found
  refine (Outcome.bind_eq_ok ..).2 ⟨bytes, ?_, returned⟩
  exact (Outcome.bind_eq_ok ..).2 ⟨constant, grows.get _ _ present, matched⟩

/-- The name of a class stays at its index. -/
theorem className (index : UInt16) (name : String) (here : pool.className index = .ok name) :
    grown.className index = .ok name := by
  obtain ⟨constant, present, matched⟩ := (Outcome.bind_eq_ok ..).1 here
  refine (Outcome.bind_eq_ok ..).2 ⟨constant, grows.get _ _ present, ?_⟩
  cases constant with
  | classEntry text => exact grows.utf8 _ _ matched
  | _ => cases matched

/-- The two texts of a name and type entry stay at its index. -/
theorem nameAndType (index : UInt16) (texts : String × String)
    (here : pool.nameAndType index = .ok texts) : grown.nameAndType index = .ok texts := by
  obtain ⟨constant, present, matched⟩ := (Outcome.bind_eq_ok ..).1 here
  refine (Outcome.bind_eq_ok ..).2 ⟨constant, grows.get _ _ present, ?_⟩
  cases constant with
  | nameAndType name descriptor =>
    obtain ⟨first, found, matched⟩ := (Outcome.bind_eq_ok ..).1 matched
    obtain ⟨second, foundAgain, returned⟩ := (Outcome.bind_eq_ok ..).1 matched
    exact (Outcome.bind_eq_ok ..).2 ⟨first, grows.utf8 _ _ found,
      (Outcome.bind_eq_ok ..).2 ⟨second, grows.utf8 _ _ foundAgain, returned⟩⟩
  | _ => cases matched

/-- A reference that can be resolved goes on to name the same member. -/
theorem memberRef (index : UInt16) (member : MemberRef) (here : pool.memberRef index = .ok member) :
    grown.memberRef index = .ok member := by
  obtain ⟨constant, present, matched⟩ := (Outcome.bind_eq_ok ..).1 here
  refine (Outcome.bind_eq_ok ..).2 ⟨constant, grows.get _ _ present, ?_⟩
  have resolved (owner texts : UInt16)
      (matched : (do
        let owner ← during .resolveOwner (pool.className owner)
        let found ← during .resolveNameAndType (pool.nameAndType texts)
        return ⟨owner, found.1, found.2⟩) = Except.ok member) :
      (do
        let owner ← during .resolveOwner (grown.className owner)
        let found ← during .resolveNameAndType (grown.nameAndType texts)
        return ⟨owner, found.1, found.2⟩) = Except.ok member := by
    obtain ⟨name, found, matched⟩ := (Outcome.bind_eq_ok ..).1 matched
    obtain ⟨pair, foundAgain, returned⟩ := (Outcome.bind_eq_ok ..).1 matched
    rw [Outcome.during_eq_ok] at found foundAgain
    refine (Outcome.bind_eq_ok ..).2 ⟨name, ?_, ?_⟩
    · exact (Outcome.during_eq_ok ..).2 (grows.className _ _ found)
    · refine (Outcome.bind_eq_ok ..).2 ⟨pair, ?_, returned⟩
      exact (Outcome.during_eq_ok ..).2 (grows.nameAndType _ _ foundAgain)
  cases constant with
  | fieldRef owner texts => exact resolved owner texts matched
  | methodRef owner texts => exact resolved owner texts matched
  | interfaceMethodRef owner texts => exact resolved owner texts matched
  | _ => cases matched

/-- A text that the pool holds somewhere is held nowhere else later on. -/
theorem holds_eq (bytes : List UInt8) (present : ∃ index, pool.holds bytes index = true)
    (index : UInt16) : grown.holds bytes index = pool.holds bytes index := by
  apply Bool.eq_iff_iff.2
  simp only [holds_iff]
  refine ⟨fun held => ?_, grows.get? index _⟩
  rw [Pool.get?, Option.join_eq_some_iff] at held ⊢
  by_cases inside : index.toNat < pool.size
  · have there := grows.kept _ _ (Array.getElem?_eq_getElem inside)
    rw [held] at there
    rw [Array.getElem?_eq_getElem inside, Option.some.inj there]
  · obtain ⟨other, heldBefore⟩ := present
    rw [holds_iff, Pool.get?, Option.join_eq_some_iff] at heldBefore
    exact absurd (Array.mem_of_getElem? heldBefore) (grows.fresh _ _ (by omega) held)

/-- An attribute of a name that the pool holds is found where it was. -/
theorem findAttribute_eq (name : String) (attributes : List Attribute)
    (present : ∃ index, pool.utf8Is index name = true) :
    grown.findAttribute name attributes = pool.findAttribute name attributes := by
  have same : (fun entry : Attribute => grown.holds (Text.ModifiedUtf8.encode name) entry.name) =
      fun entry : Attribute => pool.holds (Text.ModifiedUtf8.encode name) entry.name :=
    funext fun entry => grows.holds_eq _ present entry.name
  simp only [findAttribute, same]

end GrowsTo

/-! ## What an index resolves to -/

/-- A method reference that resolves to a member. -/
structure IsMethodRef (pool : Pool) (index : UInt16) (member : MemberRef) : Prop where
  tagged : ∃ owner texts, pool.get? index = some (.methodRef owner texts)
  resolved : pool.memberRef index = .ok member

/-- A field reference that resolves to a member. -/
structure IsFieldRef (pool : Pool) (index : UInt16) (member : MemberRef) : Prop where
  tagged : ∃ owner texts, pool.get? index = some (.fieldRef owner texts)
  resolved : pool.memberRef index = .ok member

/-- A string constant with a text. -/
def IsString (pool : Pool) (index : UInt16) (text : String) : Prop :=
  ∃ bytes, pool.get? index = some (.stringEntry bytes) ∧ pool.utf8 bytes = .ok text

/-- A slot that holds a constant does not fail to. -/
theorem get_of_get? (pool : Pool) (index : UInt16) (constant : Constant)
    (here : pool.get? index = some constant) : pool.get index = .ok constant := by
  rw [Pool.get, here]

/-- A slot that does not fail holds the constant. -/
theorem get?_of_get (pool : Pool) (index : UInt16) (constant : Constant)
    (present : pool.get index = .ok constant) : pool.get? index = some constant := by
  rw [Pool.get] at present
  split at present
  next other here => rw [here, Except.ok.inj present]
  next => cases present

/-- The bytes of a text are those that its slot holds. -/
theorem utf8Bytes_eq_ok (pool : Pool) (index : UInt16) (bytes : List UInt8) :
    pool.utf8Bytes index = .ok bytes ↔ pool.holds bytes index = true := by
  constructor
  · intro read
    obtain ⟨constant, present, held⟩ := (Outcome.bind_eq_ok ..).1 read
    split at held
    next =>
      obtain rfl := Except.ok.inj held
      exact (holds_iff ..).2 (pool.get?_of_get _ _ present)
    next => cases held
  · intro here
    rw [utf8Bytes, get_of_get? _ _ _ ((holds_iff ..).1 here)]
    rfl

/-- Bytes that were read are canonical for one text at most. -/
theorem utf8Is_iff_of_utf8Bytes (pool : Pool) (index : UInt16) (bytes : List UInt8)
    (read : pool.utf8Bytes index = .ok bytes) (text : String) :
    pool.utf8Is index text = true ↔ bytes = Text.ModifiedUtf8.encode text := by
  rw [utf8Is, ← utf8Bytes_eq_ok, read, Except.ok.injEq]

/-- Bytes resolve to what they are read as. -/
theorem utf8_of_holds (pool : Pool) (index : UInt16) (bytes : List UInt8)
    (here : pool.holds bytes index = true) :
    pool.utf8 index = .ok (Text.ModifiedUtf8.decode bytes) := by
  rw [utf8, (utf8Bytes_eq_ok ..).2 here]
  rfl

/-- A text that resolves is what some bytes are read as. -/
theorem holds_of_utf8 (pool : Pool) (index : UInt16) (text : String)
    (resolved : pool.utf8 index = .ok text) :
    ∃ bytes, pool.holds bytes index = true ∧ Text.ModifiedUtf8.decode bytes = text := by
  obtain ⟨bytes, read, returned⟩ := (Outcome.bind_eq_ok ..).1 resolved
  exact ⟨bytes, (utf8Bytes_eq_ok ..).1 read, Except.ok.inj returned⟩

/-- The canonical bytes of a text resolve to it. -/
theorem utf8_of_utf8Is (pool : Pool) (index : UInt16) (text : String)
    (here : pool.utf8Is index text = true) : pool.utf8 index = .ok text := by
  rw [utf8_of_holds _ _ _ here, Text.ModifiedUtf8.decode_encode]

/-! ## How an index is spelled -/

/-- The bytes of the texts that a reference is made of. -/
structure Spelling where
  owner : List UInt8
  name : List UInt8
  descriptor : List UInt8
  deriving DecidableEq, Repr

/-- The spelling of a member with canonical bytes. -/
def Spelling.ofMember (member : MemberRef) : Spelling :=
  ⟨Text.ModifiedUtf8.encode member.owner, Text.ModifiedUtf8.encode member.name,
    Text.ModifiedUtf8.encode member.descriptor⟩

/-- The owner is spelled with canonical bytes. -/
@[simp]
theorem Spelling.owner_ofMember (member : MemberRef) :
    (ofMember member).owner = Text.ModifiedUtf8.encode member.owner := rfl

/-- The name is spelled with canonical bytes. -/
@[simp]
theorem Spelling.name_ofMember (member : MemberRef) :
    (ofMember member).name = Text.ModifiedUtf8.encode member.name := rfl

/-- The descriptor is spelled with canonical bytes. -/
@[simp]
theorem Spelling.descriptor_ofMember (member : MemberRef) :
    (ofMember member).descriptor = Text.ModifiedUtf8.encode member.descriptor := rfl

/-- A class entry whose name has these bytes. -/
def NamesClass (pool : Pool) (index : UInt16) (bytes : List UInt8) : Prop :=
  ∃ name, pool.get? index = some (.classEntry name) ∧ pool.holds bytes name = true

/-- A name and type entry whose texts have these bytes. -/
def NamesMember (pool : Pool) (index : UInt16) (name descriptor : List UInt8) : Prop :=
  ∃ first second, pool.get? index = some (.nameAndType first second) ∧
    pool.holds name first = true ∧ pool.holds descriptor second = true

/-- A string constant whose text has these bytes. -/
def SpellsString (pool : Pool) (index : UInt16) (bytes : List UInt8) : Prop :=
  ∃ text, pool.get? index = some (.stringEntry text) ∧ pool.holds bytes text = true

/-- A reference of a kind that is spelled in a certain way. -/
def Spells (pool : Pool) (reference : UInt16 → UInt16 → Constant) (index : UInt16)
    (spelling : Spelling) : Prop :=
  ∃ owner texts, pool.get? index = some (reference owner texts) ∧
    pool.NamesClass owner spelling.owner ∧
    pool.NamesMember texts spelling.name spelling.descriptor

section

variable {pool grown : Pool} {index : UInt16}

/-- Bytes that a slot holds stay as the pool grows. -/
theorem GrowsTo.holds (grows : pool.GrowsTo grown) (bytes : List UInt8)
    (here : pool.holds bytes index = true) : grown.holds bytes index = true :=
  (holds_iff ..).2 (grows.get? _ _ ((holds_iff ..).1 here))

/-- An index holds one text. -/
theorem holds_unique {bytes more : List UInt8} (held : pool.holds bytes index = true)
    (heldToo : pool.holds more index = true) : bytes = more := by
  rw [holds_iff] at held heldToo
  exact Constant.utf8.inj (Option.some.inj (held.symm.trans heldToo))

/-- A string constant keeps its bytes as the pool grows. -/
theorem SpellsString.grow {bytes : List UInt8} (spells : pool.SpellsString index bytes)
    (grows : pool.GrowsTo grown) : grown.SpellsString index bytes := by
  obtain ⟨text, here, held⟩ := spells
  exact ⟨text, grows.get? _ _ here, grows.holds _ held⟩

/-- A string constant is spelled in one way. -/
theorem SpellsString.iff {bytes : List UInt8} (spells : pool.SpellsString index bytes)
    (other : List UInt8) : pool.SpellsString index other ↔ bytes = other := by
  constructor
  · rintro ⟨textToo, there, heldToo⟩
    obtain ⟨text, here, held⟩ := spells
    obtain rfl := Constant.stringEntry.inj (Option.some.inj (here.symm.trans there))
    exact holds_unique held heldToo
  · rintro rfl
    exact spells

/-- A class entry keeps its name as the pool grows. -/
theorem NamesClass.grow {bytes : List UInt8} (names : pool.NamesClass index bytes)
    (grows : pool.GrowsTo grown) : grown.NamesClass index bytes := by
  obtain ⟨name, here, held⟩ := names
  exact ⟨name, grows.get? _ _ here, grows.holds _ held⟩

/-- A name and type entry keeps its bytes as the pool grows. -/
theorem NamesMember.grow {name descriptor : List UInt8}
    (names : pool.NamesMember index name descriptor) (grows : pool.GrowsTo grown) :
    grown.NamesMember index name descriptor := by
  obtain ⟨first, second, here, heldName, heldDescriptor⟩ := names
  exact ⟨first, second, grows.get? _ _ here, grows.holds _ heldName, grows.holds _ heldDescriptor⟩

/-- A reference keeps its spelling as the pool grows. -/
theorem Spells.grow {reference : UInt16 → UInt16 → Constant} {spelling : Spelling}
    (spells : pool.Spells reference index spelling) (grows : pool.GrowsTo grown) :
    grown.Spells reference index spelling := by
  obtain ⟨owner, texts, here, ofOwner, ofTexts⟩ := spells
  exact ⟨owner, texts, grows.get? _ _ here, ofOwner.grow grows, ofTexts.grow grows⟩

/-- The name of a class is read from the bytes of its entry. -/
theorem NamesClass.className {bytes : List UInt8} (names : pool.NamesClass index bytes) :
    pool.className index = .ok (Text.ModifiedUtf8.decode bytes) := by
  obtain ⟨name, here, held⟩ := names
  rw [Pool.className, get_of_get? _ _ _ here]
  exact utf8_of_holds _ _ _ held

/-- A class entry that resolves has the name that some bytes are read as. -/
theorem namesClass_of_className {name : String} (resolved : pool.className index = .ok name) :
    ∃ bytes, pool.NamesClass index bytes ∧ Text.ModifiedUtf8.decode bytes = name := by
  obtain ⟨constant, present, named⟩ := (Outcome.bind_eq_ok ..).1 resolved
  split at named
  next =>
    obtain ⟨bytes, held, reads⟩ := pool.holds_of_utf8 _ _ named
    exact ⟨bytes, ⟨_, pool.get?_of_get _ _ present, held⟩, reads⟩
  next => cases named

/-- The name and the descriptor of a member are read from the bytes of their entry. -/
theorem NamesMember.nameAndType {name descriptor : List UInt8}
    (names : pool.NamesMember index name descriptor) :
    pool.nameAndType index =
      .ok (Text.ModifiedUtf8.decode name, Text.ModifiedUtf8.decode descriptor) := by
  obtain ⟨first, second, here, heldName, heldDescriptor⟩ := names
  rw [Pool.nameAndType, get_of_get? _ _ _ here]
  refine (Outcome.bind_eq_ok ..).2 ⟨_, rfl, ?_⟩
  refine (Outcome.bind_eq_ok ..).2 ⟨_, utf8_of_holds _ _ _ heldName, ?_⟩
  exact (Outcome.bind_eq_ok ..).2 ⟨_, utf8_of_holds _ _ _ heldDescriptor, rfl⟩

/-- A reference names the member that its bytes are read as. -/
theorem Spells.memberRef {reference : UInt16 → UInt16 → Constant}
    (kind : reference = .fieldRef ∨ reference = .methodRef) {spelling : Spelling}
    (spells : pool.Spells reference index spelling) :
    pool.memberRef index = .ok ⟨Text.ModifiedUtf8.decode spelling.owner,
      Text.ModifiedUtf8.decode spelling.name, Text.ModifiedUtf8.decode spelling.descriptor⟩ := by
  obtain ⟨owner, texts, here, ofOwner, ofTexts⟩ := spells
  refine (Outcome.bind_eq_ok ..).2 ⟨_, get_of_get? _ _ _ here, ?_⟩
  obtain rfl | rfl := kind <;>
  · refine (Outcome.bind_eq_ok ..).2 ⟨_, (Outcome.during_eq_ok ..).2 ofOwner.className, ?_⟩
    exact (Outcome.bind_eq_ok ..).2 ⟨_, (Outcome.during_eq_ok ..).2 ofTexts.nameAndType, rfl⟩

/-- With canonical bytes that is the member itself. -/
theorem Spells.memberRef_ofMember {reference : UInt16 → UInt16 → Constant}
    (kind : reference = .fieldRef ∨ reference = .methodRef) {member : MemberRef}
    (spells : pool.Spells reference index (.ofMember member)) :
    pool.memberRef index = .ok member := by
  rw [spells.memberRef kind, Spelling.ofMember]
  simp only [Text.ModifiedUtf8.decode_encode]

/-- An index has one spelling. -/
theorem Spells.unique {reference : UInt16 → UInt16 → Constant}
    (kind : reference = .fieldRef ∨ reference = .methodRef) {one other : Spelling}
    (first : pool.Spells reference index one) (second : pool.Spells reference index other) :
    one = other := by
  obtain ⟨owner, texts, here, ⟨entry, named, ownerHeld⟩, name, descriptor, described, nameHeld,
    descriptorHeld⟩ := first
  obtain ⟨ownerToo, textsToo, there, ⟨entryToo, namedToo, ownerHeldToo⟩, nameToo, descriptorToo,
    describedToo, nameHeldToo, descriptorHeldToo⟩ := second
  obtain ⟨rfl, rfl⟩ : owner = ownerToo ∧ texts = textsToo := by
    have equal := Option.some.inj (here.symm.trans there)
    obtain rfl | rfl := kind
    · exact Constant.fieldRef.inj equal
    · exact Constant.methodRef.inj equal
  obtain rfl := Constant.classEntry.inj (Option.some.inj (named.symm.trans namedToo))
  obtain ⟨rfl, rfl⟩ := Constant.nameAndType.inj
    (Option.some.inj (described.symm.trans describedToo))
  obtain ⟨_, _, _⟩ := one
  obtain ⟨_, _, _⟩ := other
  rw [Spelling.mk.injEq]
  exact ⟨holds_unique ownerHeld ownerHeldToo, holds_unique nameHeld nameHeldToo,
    holds_unique descriptorHeld descriptorHeldToo⟩

/-- A reference is spelled in any way that has the same bytes. -/
theorem Spells.iff {reference : UInt16 → UInt16 → Constant}
    (kind : reference = .fieldRef ∨ reference = .methodRef) {spelling : Spelling}
    (spells : pool.Spells reference index spelling) (other : Spelling) :
    pool.Spells reference index other ↔ spelling.owner = other.owner ∧
      spelling.name = other.name ∧ spelling.descriptor = other.descriptor := by
  constructor
  · intro spellsOther
    obtain rfl := spells.unique kind spellsOther
    exact ⟨rfl, rfl, rfl⟩
  · rintro ⟨owner, name, descriptor⟩
    have same : spelling = other := by
      cases spelling
      cases other
      rw [Spelling.mk.injEq]
      exact ⟨owner, name, descriptor⟩
    exact same ▸ spells

end

/-! ## Adding constants -/

/-- The place of a constant is the first slot that holds it. -/
theorem indexOf?_eq_some_iff (pool : Pool) (constant : Constant) (place : Nat) :
    pool.indexOf? constant = some place ↔
      pool.slots[place]? = some (some constant) ∧
        ∀ earlier < place, pool.slots[earlier]? ≠ some (some constant) := by
  rw [indexOf?_eq, List.findIdx?_eq_some_iff_getElem]
  constructor
  · rintro ⟨inside, held, first⟩
    rw [beq_iff_eq] at held
    refine ⟨by rw [← Array.getElem?_toList, List.getElem?_eq_getElem inside, held], ?_⟩
    intro earlier before here
    rw [← Array.getElem?_toList, List.getElem?_eq_getElem (Nat.lt_trans before inside)] at here
    exact first earlier before (beq_iff_eq.2 (Option.some.inj here))
  · rintro ⟨held, first⟩
    rw [← Array.getElem?_toList] at held
    obtain ⟨inside, same⟩ := List.getElem?_eq_some_iff.1 held
    refine ⟨inside, beq_iff_eq.2 same, fun earlier before here => first earlier before ?_⟩
    rw [← Array.getElem?_toList, List.getElem?_eq_getElem (Nat.lt_trans before inside),
      beq_iff_eq.1 here]

/-- A constant that has no place stands in no slot. -/
theorem not_mem_of_indexOf? (pool : Pool) (constant : Constant)
    (absent : pool.indexOf? constant = none) : some constant ∉ pool.slots := by
  rw [indexOf?_eq, List.findIdx?_eq_none_iff] at absent
  intro member
  simpa using absent _ (Array.mem_toList_iff.2 member)

/-- Whether or not there is room for a constant, the pool only grows. -/
theorem growsTo_interned (pool : Pool) (constant : Constant) :
    pool.GrowsTo (pool.interned constant).2 := by
  rw [interned]
  split
  next => exact .refl pool
  next absent =>
    split
    next room =>
      have slots : (pool.push constant).slots = pool.slots.push (some constant) := rfl
      refine ⟨?_, ?_, ?_⟩
      · intro index slot here
        have inside : index ≠ pool.slots.size := by
          rintro rfl
          simp at here
        rw [slots, Array.getElem?_push, if_neg inside, here]
      · intro _
        rw [size, slots, Array.size_push]
        exact room
      · intro index other behind here
        rw [slots, Array.getElem?_push] at here
        split at here
        next =>
          obtain rfl := Option.some.inj (Option.some.inj here)
          exact pool.not_mem_of_indexOf? _ absent
        next => simp [Array.getElem?_eq_none behind] at here
    next => exact .refl pool

/-- The index of an interned constant is the place that it has from then on. -/
theorem indexOf?_of_interned (pool grown : Pool) (constant : Constant) (index : UInt16)
    (small : pool.size ≤ maxSize) (ran : pool.interned constant = (.ok index, grown)) :
    grown.indexOf? constant = some index.toNat := by
  rw [maxSize] at small
  rw [interned] at ran
  split at ran
  next place found =>
    obtain ⟨same, rfl⟩ := Prod.mk.inj ran
    obtain rfl := Except.ok.inj same
    obtain ⟨held, -⟩ := (indexOf?_eq_some_iff ..).1 found
    have bound : place < pool.size := (Array.getElem?_eq_some_iff.1 held).1
    rw [UInt16.toNat_ofNat_of_lt' (by show _ < 65536; omega), found]
  next absent =>
    split at ran
    next room =>
      obtain ⟨same, rfl⟩ := Prod.mk.inj ran
      obtain rfl := Except.ok.inj same
      have slots : (pool.push constant).slots = pool.slots.push (some constant) := rfl
      rw [maxSize] at room
      rw [UInt16.toNat_ofNat_of_lt' (by show _ < 65536; omega), indexOf?_eq_some_iff, slots]
      refine ⟨by simp [size], fun earlier before here => ?_⟩
      have behind : earlier ≠ pool.slots.size := Nat.ne_of_lt before
      rw [Array.getElem?_push, if_neg behind] at here
      exact pool.not_mem_of_indexOf? _ absent (Array.mem_of_getElem? here)
    next => cases (Prod.mk.inj ran).1

/-- A constant that has a place stands there. -/
theorem get?_of_indexOf? (pool : Pool) (constant : Constant) (index : UInt16)
    (found : pool.indexOf? constant = some index.toNat) : pool.get? index = some constant := by
  rw [Pool.get?, Option.join_eq_some_iff]
  exact ((indexOf?_eq_some_iff ..).1 found).1

/-- An interned constant stands at its index. -/
theorem interned_eq (pool grown : Pool) (constant : Constant) (index : UInt16)
    (small : pool.size ≤ maxSize) (ran : pool.interned constant = (.ok index, grown)) :
    pool.GrowsTo grown ∧ grown.get? index = some constant := by
  have grows := pool.growsTo_interned constant
  rw [ran] at grows
  exact ⟨grows, grown.get?_of_indexOf? _ _ (indexOf?_of_interned _ _ _ _ small ran)⟩

/-- After a constant has been asked for it stands at the index given. -/
theorem runs_intern (pool grown : Pool) (constant : Constant) (index : UInt16)
    (small : pool.size ≤ maxSize) (ran : Runs (intern constant) pool index grown) :
    pool.GrowsTo grown ∧ grown.get? index = some constant :=
  interned_eq pool grown constant index small ran

/-- After a text has been asked for it stands at the index given. -/
theorem runs_addUtf8 (pool grown : Pool) (text : String) (index : UInt16)
    (small : pool.size ≤ maxSize) (ran : Runs (addUtf8 text) pool index grown) :
    pool.GrowsTo grown ∧ grown.utf8Is index text = true := by
  rw [addUtf8] at ran
  split at ran
  next =>
    obtain ⟨grows, here⟩ := runs_intern _ _ _ _ small ran
    exact ⟨grows, (holds_iff ..).2 here⟩
  next => exact (not_runs_fail _ _ _ _ ran).elim

/-- After a class entry has been asked for, the index given names the class with canonical
bytes. -/
theorem runs_addClass (pool grown : Pool) (name : String) (index : UInt16)
    (small : pool.size ≤ maxSize) (ran : Runs (addClass name) pool index grown) :
    pool.GrowsTo grown ∧ grown.NamesClass index (Text.ModifiedUtf8.encode name) := by
  obtain ⟨text, middle, first, ran⟩ := (runs_bind ..).1 ran
  obtain ⟨begun, held⟩ := runs_addUtf8 _ _ _ _ small first
  obtain ⟨ended, here⟩ := runs_intern _ _ _ _ (begun.bounded small) ran
  exact ⟨.trans _ _ _ begun ended, text, here, ended.holds _ held⟩

/-- After a string constant has been asked for, the index given spells it with canonical
bytes. -/
theorem runs_addString (pool grown : Pool) (text : String) (index : UInt16)
    (small : pool.size ≤ maxSize) (ran : Runs (addString text) pool index grown) :
    pool.GrowsTo grown ∧ grown.SpellsString index (Text.ModifiedUtf8.encode text) := by
  obtain ⟨bytes, middle, first, ran⟩ := (runs_bind ..).1 ran
  obtain ⟨begun, held⟩ := runs_addUtf8 _ _ _ _ small first
  obtain ⟨ended, here⟩ := runs_intern _ _ _ _ (begun.bounded small) ran
  exact ⟨.trans _ _ _ begun ended, bytes, here, ended.holds _ held⟩

/-- After a name and type entry has been asked for, the index given names the member with
canonical bytes. -/
theorem runs_addNameAndType (pool grown : Pool) (name descriptor : String) (index : UInt16)
    (small : pool.size ≤ maxSize) (ran : Runs (addNameAndType name descriptor) pool index grown) :
    pool.GrowsTo grown ∧ grown.NamesMember index (Text.ModifiedUtf8.encode name)
      (Text.ModifiedUtf8.encode descriptor) := by
  obtain ⟨first, middle, ranName, ran⟩ := (runs_bind ..).1 ran
  obtain ⟨begun, heldName⟩ := runs_addUtf8 _ _ _ _ small ranName
  obtain ⟨second, later, ranDescriptor, ran⟩ := (runs_bind ..).1 ran
  obtain ⟨between, heldDescriptor⟩ := runs_addUtf8 _ _ _ _ (begun.bounded small) ranDescriptor
  obtain ⟨ended, here⟩ :=
    runs_intern _ _ _ _ (between.bounded (begun.bounded small)) ran
  exact ⟨.trans _ _ _ begun (.trans _ _ _ between ended), first, second, here,
    ended.holds _ (between.holds _ heldName), ended.holds _ heldDescriptor⟩

/-- A field or method reference is added with its parts. -/
theorem runs_addMember (reference : UInt16 → UInt16 → Constant) (pool grown : Pool)
    (owner name descriptor : String) (index : UInt16) (small : pool.size ≤ maxSize)
    (ran : Runs (do
      let owner ← addClass owner
      let member ← addNameAndType name descriptor
      intern (reference owner member)) pool index grown) :
    pool.GrowsTo grown ∧ grown.Spells reference index (.ofMember ⟨owner, name, descriptor⟩) := by
  obtain ⟨first, middle, ranOwner, ran⟩ := (runs_bind ..).1 ran
  obtain ⟨begun, ofOwner⟩ := runs_addClass _ _ _ _ small ranOwner
  obtain ⟨second, later, ranTexts, ran⟩ := (runs_bind ..).1 ran
  obtain ⟨between, ofTexts⟩ := runs_addNameAndType _ _ _ _ _ (begun.bounded small) ranTexts
  obtain ⟨ended, here⟩ := runs_intern _ _ _ _ (between.bounded (begun.bounded small)) ran
  exact ⟨.trans _ _ _ begun (.trans _ _ _ between ended), first, second, here,
    (ofOwner.grow between).grow ended, ofTexts.grow ended⟩

end NullGuard.Pool
