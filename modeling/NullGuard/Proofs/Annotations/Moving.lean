import NullGuard.Proofs.Annotations.InCode

/-!
# Moving type annotations in code more than once

Moving leaves a table of type annotations well-formed and changes nothing in it but
offsets (`relocate_eq_ok`). So moving by one map and then by another is the same as moving
by both at once, and a map that moves nothing gives the table back (`relocate_functorial`).
The end of a range is moved like any other offset, so that the second map finds it where
the first has put it, even if it does not fit into two bytes.
-/

namespace NullGuard

namespace Relocation

variable {f : Nat → Nat} {start length middleStart middleLength newStart newLength : UInt16}

/-- A range that was moved moves on as its ends would have. -/
theorem MovesRange.comp_iff (g : Nat → Nat)
    (moves : (total f).MovesRange start length middleStart middleLength) :
    (total g).MovesRange middleStart middleLength newStart newLength ↔
      (total (g ∘ f)).MovesRange start length newStart newLength := by
  have first : f start.toNat = middleStart.toNat := Except.ok.inj moves.start
  have last : f (start.toNat + length.toNat) = middleStart.toNat + middleLength.toNat :=
    Except.ok.inj moves.stop
  have starts : total g middleStart.toNat = total (g ∘ f) start.toNat := by
    rw [total, total, Function.comp_apply, first]
  have stops : total g (middleStart.toNat + middleLength.toNat) =
      total (g ∘ f) (start.toNat + length.toNat) := by
    rw [total, total, Function.comp_apply, last]
  constructor
  · intro further
    exact ⟨starts.symm.trans further.start, stops.symm.trans further.stop⟩
  · intro both
    exact ⟨starts.trans both.start, stops.trans both.stop⟩

end Relocation

/-- Lists are related by two relations in a row if they are by both at once, place by place. -/
theorem forall₂_comp_iff {α : Type} {first second both : α → α → Prop}
    (comp : ∀ old middle new, first old middle → (second middle new ↔ both old new))
    {olds middles : List α} (each : List.Forall₂ first olds middles) (news : List α) :
    List.Forall₂ second middles news ↔ List.Forall₂ both olds news := by
  induction each generalizing news with
  | nil => simp
  | @cons old middle _ _ related _ inductionHypothesis =>
    cases news with
    | nil => simp
    | cons new others =>
      rw [List.forall₂_cons, List.forall₂_cons, comp old middle new related, inductionHypothesis]

section Twice

variable {f : Nat → Nat} (g : Nat → Nat)

/-- Moving a range twice is moving it once, by both steps together. -/
theorem LocalRange.Moved.comp_iff {old middle new : LocalRange}
    (moved : Moved (.total f) old middle) :
    Moved (.total g) middle new ↔ Moved (.total (g ∘ f)) old new := by
  constructor
  · intro further
    exact ⟨(moved.range.comp_iff g).1 further.range, further.slot.trans moved.slot⟩
  · intro both
    exact ⟨(moved.range.comp_iff g).2 both.range, both.slot.trans moved.slot.symm⟩

namespace CodeTarget

/-- Offsets that were moved move on as they would have before. -/
theorem Moved.comp_iff {old middle : CodeTarget} (moved : Moved (.total f) old middle)
    (new : CodeTarget) : Moved (.total g) middle new ↔ Moved (.total (g ∘ f)) old new := by
  have offset {old middle new : UInt16}
      (moved : Relocation.total f old.toNat = .ok middle.toNat) :
      Relocation.total g middle.toNat = .ok new.toNat ↔
        Relocation.total (g ∘ f) old.toNat = .ok new.toNat := by
    have here : f old.toNat = middle.toNat := Except.ok.inj moved
    rw [Relocation.total, Relocation.total, Function.comp_apply, here]
  cases moved with
  | ranges tag olds middles each =>
    have further (old middle new : LocalRange) (moved : LocalRange.Moved (.total f) old middle) :
        LocalRange.Moved (.total g) middle new ↔ LocalRange.Moved (.total (g ∘ f)) old new :=
      moved.comp_iff g
    have ranges := forall₂_comp_iff further each
    constructor
    · rintro (moved | _)
      next news moved => exact .ranges tag olds news ((ranges news).1 moved)
    · rintro (both | _)
      next news both => exact .ranges tag middles news ((ranges news).2 both)
  | handler row =>
    constructor
    · rintro (_ | _)
      exact .handler row
    · rintro (_ | _)
      exact .handler row
  | instruction tag old middle moved =>
    constructor
    · rintro (_ | _ | further)
      next new further => exact .instruction tag old new ((offset moved).1 further)
    · rintro (_ | _ | both)
      next new both => exact .instruction tag middle new ((offset moved).2 both)
  | argument tag old middle position moved =>
    constructor
    · rintro (_ | _ | _ | further)
      next new further => exact .argument tag old new position ((offset moved).1 further)
    · rintro (_ | _ | _ | both)
      next new both => exact .argument tag middle new position ((offset moved).2 both)

end CodeTarget

/-- Moving an annotation twice is moving it once, by both steps together. -/
theorem AnnotatedType.Moved.comp_iff {old middle new : AnnotatedType}
    (moved : Moved (.total f) old middle) :
    Moved (.total g) middle new ↔ Moved (.total (g ∘ f)) old new := by
  constructor
  · intro further
    exact
      { target := (moved.target.comp_iff g new.target).1 further.target
        path := further.path.trans moved.path
        tree := further.tree.trans moved.tree }
  · intro both
    exact
      { target := (moved.target.comp_iff g new.target).2 both.target
        path := both.path.trans moved.path.symm
        tree := both.tree.trans moved.tree.symm }

end Twice

namespace AnnotatedType

/-- Moving type annotations is functorial. If nothing moves, exactly the bytes that spell a
table of type annotations are accepted, and they come back. What one map has moved another
moves on as both together would have moved it at once, in particular with the same success.
Neither map has to keep the order of offsets. A moved table has as many bytes as before, and
its rows differ in offsets only: kinds of targets, counts, slots, paths and annotations are
the same, and ranges have moved with both of their ends. -/
theorem relocate_functorial (contents : List UInt8) :
    (∀ rewritten, relocate (.total id) contents = .ok rewritten ↔
      rewritten = contents ∧ ∃ entries, Spells contents entries) ∧
    ∀ f rewritten, relocate (.total f) contents = .ok rewritten →
      rewritten.length = contents.length ∧
      (∀ g result, relocate (.total g) rewritten = .ok result ↔
        relocate (.total (g ∘ f)) contents = .ok result) ∧
      ∃ olds news, Spells contents olds ∧ Spells rewritten news ∧
        List.Forall₂ (Moved (.total f)) olds news := by
  refine ⟨fun rewritten => ?_, fun f rewritten ran => ?_⟩
  · have still : Relocation.total id = Except.ok := rfl
    simp only [still, relocate_eq_ok, forall₂_moved_ok_iff]
    constructor
    · rintro ⟨olds, news, spells, rfl, rfl⟩
      exact ⟨spells.bytes.symm, _, spells⟩
    · rintro ⟨rfl, entries, spells⟩
      exact ⟨entries, entries, spells, rfl, spells.bytes⟩
  · obtain ⟨olds, middles, spells, each, rfl⟩ := (relocate_eq_ok ..).1 ran
    have again := spells.moved each
    refine ⟨?_, fun g result => ?_, olds, middles, spells, again, each⟩
    · rw [spells.bytes, writtenTable, writtenTable, List.length_append, List.length_append,
        length_flatMap_written each]
      rfl
    · simp only [relocate_eq_ok]
      have further (old middle new : AnnotatedType) (moved : Moved (.total f) old middle) :
          Moved (.total g) middle new ↔ Moved (.total (g ∘ f)) old new := moved.comp_iff g
      have comp := forall₂_comp_iff further each
      constructor
      · rintro ⟨others, news, spellsOthers, moved, rfl⟩
        obtain rfl := again.unique spellsOthers
        exact ⟨olds, news, spells, (comp news).1 moved, rfl⟩
      · rintro ⟨others, news, spellsOthers, both, rfl⟩
        obtain rfl := spells.unique spellsOthers
        exact ⟨middles, news, again, (comp news).2 both, rfl⟩

/-- A range that ends behind all offsets of two bytes, an instruction's type below a path,
with an annotation inside its annotation, and one type of a list of types. -/
def wideTable : List UInt8 :=
  [0, 3, 0x40, 0, 1, 0xff, 0xff, 0, 2, 0, 3, 0, 0, 5, 0, 0,
    0x43, 0, 6, 1, 3, 0, 0, 5, 0, 1, 0, 7, 64, 0, 9, 0, 0, 0x47, 0, 8, 1, 0, 0, 5, 0, 0]

/-- The table of a wide range, all offsets divided by two. -/
def halvedTable : List UInt8 :=
  [0, 3, 0x40, 0, 1, 0x7f, 0xff, 0, 1, 0, 3, 0, 0, 5, 0, 0,
    0x43, 0, 3, 1, 3, 0, 0, 5, 0, 1, 0, 7, 64, 0, 9, 0, 0, 0x47, 0, 4, 1, 0, 0, 5, 0, 0]

/-- Halving each offset of a table with ranges and further targets, and moving it on from
there. -/
theorem relocate_functorial_wideTable :
    relocate (.total (· / 2)) wideTable = .ok halvedTable ∧
      halvedTable.length = wideTable.length ∧
      (∀ g result, relocate (.total g) halvedTable = .ok result ↔
        relocate (.total (g ∘ (· / 2))) wideTable = .ok result) ∧
      ∃ olds news, Spells wideTable olds ∧ Spells halvedTable news ∧
        List.Forall₂ (Moved (.total (· / 2))) olds news := by
  have ran : relocate (.total (· / 2)) wideTable = .ok halvedTable := by decide +kernel
  exact ⟨ran, (relocate_functorial wideTable).2 (· / 2) halvedTable ran⟩

end AnnotatedType

end NullGuard
