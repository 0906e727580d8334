import NullGuard.Annotations.InCode
import NullGuard.Proofs.Annotations.Grammar
import NullGuard.Proofs.Code.Relocation

/-!
# Type annotations in bytes

A type annotation in code is read while its offsets move; the bytes taken are
the written form of the annotation before the move. So a table is moved exactly
if its bytes spell one and each of its rows can be moved, and the bytes that are
written then spell the moved rows (`relocate_eq_ok`, `Spells.moved`).
-/

namespace NullGuard

/-! ## Targets -/

namespace LocalRange

/-- The range moves and the slot stays. -/
structure Moved (relocation : Relocation) (old new : LocalRange) : Prop where
  range : relocation.MovesRange old.start old.length new.start new.length
  slot : new.slot = old.slot

/-- A range is read without a look at what follows. -/
instance (relocation : Relocation) : (readMoved relocation).Local := by
  unfold readMoved
  infer_instance

/-- The bytes taken as a moved range are the byte form of the range that has moved. -/
theorem takes_readMoved (relocation : Relocation) (front : List UInt8) (new : LocalRange) :
    (readMoved relocation).Takes front new ↔
      ∃ old, front = written old ∧ Moved relocation old new := by
  simp only [readMoved, Reader.takes_u16_bind, bind_pure_comp, Reader.takes_map, Reader.takes_lift,
    Prod.exists, Relocation.moveRange_eq_ok]
  constructor
  · rintro ⟨start, back, rfl, length, rest, rfl, slot, last, rfl, newStart, newLength,
      ⟨rfl, range⟩, rfl⟩
    exact ⟨⟨start, length, slot⟩, by simp [written], range, rfl⟩
  · rintro ⟨old, rfl, moved⟩
    exact ⟨old.start, _, by rw [written, List.append_assoc], old.length, _, rfl, old.slot, [],
      by simp, new.start, new.length, ⟨rfl, moved.range⟩, by rw [← moved.slot]⟩

/-- A range that stays where it is has moved nowhere. -/
theorem moved_ok (range : LocalRange) : Moved Except.ok range range :=
  ⟨Relocation.movesRange_ok .., rfl⟩

end LocalRange

namespace CodeTarget

/-- Every offset of a target moves. -/
inductive Moved (relocation : Relocation) : CodeTarget → CodeTarget → Prop
  | ranges (tag : UInt8) (olds news : List LocalRange)
      (each : List.Forall₂ (LocalRange.Moved relocation) olds news) :
    Moved relocation (.variable tag olds) (.variable tag news)
  | handler (row : UInt16) : Moved relocation (.handler row) (.handler row)
  | instruction (tag : UInt8) (old new : UInt16)
      (moved : relocation old.toNat = .ok new.toNat) :
    Moved relocation (.instruction tag old) (.instruction tag new)
  | argument (tag : UInt8) (old new : UInt16) (position : UInt8)
      (moved : relocation old.toNat = .ok new.toNat) :
    Moved relocation (.argument tag old position) (.argument tag new position)

/-- The tags that a target of each kind can have. -/
def Fits : CodeTarget → Prop
  | .variable tag ranges => (tag = 0x40 ∨ tag = 0x41) ∧ ranges.length < 65536
  | .handler _ => True
  | .instruction tag _ => 0x43 ≤ tag ∧ tag ≤ 0x46
  | .argument tag _ _ => 0x47 ≤ tag ∧ tag ≤ 0x4b

/-- What follows the tag of a target, its offsets moved. -/
def readTagged (relocation : Relocation) (tag : UInt8) : Reader CodeTarget :=
  if tag = 0x40 ∨ tag = 0x41 then do
    return .variable tag (← Reader.table (LocalRange.readMoved relocation))
  else if tag = 0x42 then do return .handler (← Reader.u16)
  else if 0x43 ≤ tag ∧ tag ≤ 0x46 then do
    return .instruction tag (← relocation.move (← Reader.u16))
  else if 0x47 ≤ tag ∧ tag ≤ 0x4b then do
    let offset ← relocation.move (← Reader.u16)
    return .argument tag offset (← Reader.u8)
  else fail (.unexpectedTarget tag)

/-- A target is its tag and what the tag asks for. -/
theorem readMoved_eq (relocation : Relocation) :
    readMoved relocation = Reader.u8 >>= readTagged relocation := rfl

/-- What follows a tag is read without a look behind it. -/
instance (relocation : Relocation) (tag : UInt8) : (readTagged relocation tag).Local := by
  unfold readTagged
  infer_instance

/-- A target is read without a look at what follows. -/
instance (relocation : Relocation) : (readMoved relocation).Local := by
  rw [readMoved_eq]
  infer_instance

/-- The bytes taken as a moved target are the byte form of the target that has moved. Its
tag fits its kind. -/
theorem takes_readMoved (relocation : Relocation) (front : List UInt8) (new : CodeTarget) :
    (readMoved relocation).Takes front new ↔
      ∃ old, front = old.written ∧ old.Fits ∧ Moved relocation old new := by
  rw [readMoved_eq, Reader.takes_u8_bind]
  constructor
  · rintro ⟨tag, back, rfl, taken⟩
    unfold readTagged at taken
    by_cases ranged : tag = 0x40 ∨ tag = 0x41
    · rw [if_pos ranged, bind_pure_comp, Reader.takes_map] at taken
      obtain ⟨ranges, taken, rfl⟩ := taken
      obtain ⟨olds, rfl, bound, each⟩ := (takes_table_moved LocalRange.takes_readMoved ..).1 taken
      exact ⟨.variable tag olds, by simp [written], ⟨ranged, bound⟩, .ranges tag olds ranges each⟩
    rw [if_neg ranged] at taken
    by_cases caught : tag = 0x42
    · rw [if_pos caught, bind_pure_comp, Reader.takes_map] at taken
      obtain ⟨row, taken, rfl⟩ := taken
      obtain rfl := (Reader.takes_u16 ..).1 taken
      exact ⟨.handler row, by rw [caught]; rfl, trivial, .handler row⟩
    rw [if_neg caught] at taken
    by_cases placed : 0x43 ≤ tag ∧ tag ≤ 0x46
    · rw [if_pos placed] at taken
      simp only [Reader.takes_u16_bind, bind_pure_comp, Reader.takes_map, Reader.takes_lift,
        Relocation.move_eq_ok] at taken
      obtain ⟨offset, rest, rfl, moved, ⟨rfl, reached⟩, rfl⟩ := taken
      exact ⟨.instruction tag offset, by simp [written], placed,
        .instruction tag offset moved reached⟩
    rw [if_neg placed] at taken
    by_cases listed : 0x47 ≤ tag ∧ tag ≤ 0x4b
    · rw [if_pos listed] at taken
      simp only [Reader.takes_u16_bind, Reader.takes_lift_bind, bind_pure_comp, Reader.takes_map,
        Reader.takes_u8, Relocation.move_eq_ok] at taken
      obtain ⟨offset, rest, rfl, moved, reached, position, rfl, rfl⟩ := taken
      exact ⟨.argument tag offset position, by simp [written], listed,
        .argument tag offset moved position reached⟩
    rw [if_neg listed] at taken
    exact (Reader.takes_fail _ _ _ taken).elim
  · rintro ⟨old, rfl, fits, moved⟩
    cases moved with
    | ranges tag olds news each =>
      refine ⟨tag, _, by rw [written, List.cons_append], ?_⟩
      rw [readTagged, if_pos fits.1, bind_pure_comp, Reader.takes_map]
      exact ⟨news, (takes_table_moved LocalRange.takes_readMoved ..).2 ⟨olds, rfl, fits.2, each⟩,
        rfl⟩
    | handler row =>
      refine ⟨0x42, Written.u16 row, rfl, ?_⟩
      exact (Reader.takes_bind ..).2 ⟨row, _, [], by simp, (Reader.takes_u16 ..).2 rfl,
        (Reader.takes_pure ..).2 ⟨rfl, rfl⟩⟩
    | instruction tag old new moved =>
      have placed : 0x43 ≤ tag ∧ tag ≤ 0x46 := fits
      refine ⟨tag, Written.u16 old, rfl, ?_⟩
      rw [readTagged, if_neg (by rintro (rfl | rfl) <;> simp [Fits] at fits),
        if_neg (by rintro rfl; simp [Fits] at fits), if_pos placed]
      simp only [Reader.takes_u16_bind, bind_pure_comp, Reader.takes_map, Reader.takes_lift,
        Relocation.move_eq_ok]
      exact ⟨old, [], by simp, new, ⟨rfl, moved⟩, rfl⟩
    | argument tag old new position moved =>
      have listed : 0x47 ≤ tag ∧ tag ≤ 0x4b := fits
      have notPlaced : ¬ (0x43 ≤ tag ∧ tag ≤ 0x46) := by
        rintro ⟨-, below⟩
        exact absurd (UInt8.le_trans listed.1 below) (by decide)
      refine ⟨tag, Written.u16 old ++ [position], rfl, ?_⟩
      rw [readTagged, if_neg (by rintro (rfl | rfl) <;> simp [Fits] at fits),
        if_neg (by rintro rfl; simp [Fits] at fits), if_neg notPlaced, if_pos listed]
      simp only [Reader.takes_u16_bind, Reader.takes_lift_bind, bind_pure_comp, Reader.takes_map,
        Reader.takes_u8, Relocation.move_eq_ok]
      exact ⟨old, [position], rfl, new, moved, position, rfl, rfl⟩

/-- A moved target has as many ranges as before. -/
theorem Moved.length_written {relocation : Relocation} {old new : CodeTarget}
    (moved : Moved relocation old new) : old.written.length = new.written.length := by
  cases moved with
  | ranges tag olds news each =>
    simp [written, LocalRange.written, List.length_flatMap, Written.u16, each.length_eq]
  | _ => rfl

/-- A target that can be moved is left as it is if nothing moves. -/
theorem moved_ok (target : CodeTarget) : Moved Except.ok target target := by
  cases target with
  | «variable» tag ranges =>
    exact .ranges tag ranges ranges (List.forall₂_same.2 fun range _ => range.moved_ok)
  | handler row => exact .handler row
  | instruction tag offset => exact .instruction tag offset offset rfl
  | argument tag offset position => exact .argument tag offset offset position rfl

/-- If nothing moves a target stays as it is. -/
theorem Moved.eq_of_ok {old new : CodeTarget} (moved : Moved Except.ok old new) :
    new = old := by
  cases moved with
  | ranges tag olds news each =>
    have same : olds = news := by
      rw [← List.forall₂_eq_eq_eq]
      refine each.imp fun old new moved => ?_
      obtain ⟨start, length, slot⟩ := new
      obtain ⟨rfl, rfl⟩ := moved.range.eq_of_ok
      obtain rfl : slot = old.slot := moved.slot
      rfl
    rw [same]
  | handler row => rfl
  | instruction tag old new moved =>
    obtain rfl := UInt16.toNat_inj.1 (Except.ok.inj moved)
    rfl
  | argument tag old new position moved =>
    obtain rfl := UInt16.toNat_inj.1 (Except.ok.inj moved)
    rfl

/-- Moving keeps the tag of a target and the number of its ranges. -/
theorem Moved.fits {relocation : Relocation} {old new : CodeTarget}
    (moved : Moved relocation old new) (fits : old.Fits) : new.Fits := by
  cases moved with
  | ranges tag olds news each =>
    rw [Fits, ← each.length_eq]
    exact fits
  | _ => exact fits

end CodeTarget

/-! ## Annotations -/

namespace AnnotatedType

/-- Every offset of the target moves; path and annotation stay. -/
structure Moved (relocation : Relocation) (old new : AnnotatedType) : Prop where
  target : old.target.Moved relocation new.target
  path : new.path = old.path
  tree : new.tree = old.tree

/-- What can be read again after it was written. -/
structure Fits (depth : Nat) (entry : AnnotatedType) : Prop where
  target : entry.target.Fits
  path : ∃ steps : UInt8, entry.path.length = 2 * steps.toNat
  tree : (AnnotationTree.read depth).Takes entry.tree.written entry.tree

/-- An annotation is read without a look at what follows. -/
instance (relocation : Relocation) (depth : Nat) : (readMoved relocation depth).Local := by
  unfold readMoved
  infer_instance

/-- The bytes taken as a moved annotation are the byte form of the annotation that has
moved. It is nested no deeper than is read. -/
theorem takes_readMoved (depth : Nat) (relocation : Relocation) (front : List UInt8)
    (new : AnnotatedType) :
    (readMoved relocation depth).Takes front new ↔
      ∃ old, front = written old ∧ old.Fits depth ∧ Moved relocation old new := by
  rw [readMoved, Reader.takes_bind]
  simp only [CodeTarget.takes_readMoved, Reader.takes_u8_bind, Reader.takes_bytes_bind,
    bind_pure_comp, Reader.takes_map]
  constructor
  · rintro ⟨target, front, back, rfl, ⟨old, rfl, fits, moved⟩, steps, rest, rfl, path, last, size,
      rfl, tree, taken, rfl⟩
    obtain ⟨form, -⟩ := AnnotationTree.of_takes_read depth last tree taken
    rw [form] at taken
    refine ⟨⟨old, path, tree⟩, ?_, ⟨fits, ⟨steps, size⟩, taken⟩, ⟨moved, rfl, rfl⟩⟩
    simp [written, size, form]
  · rintro ⟨old, rfl, fits, moved⟩
    obtain ⟨steps, size⟩ := fits.path
    refine ⟨new.target, old.target.written, steps :: (old.path ++ old.tree.written),
      by simp [written, size], ⟨old.target, rfl, fits.target, moved.target⟩, steps, _, rfl,
      old.path, old.tree.written, size, rfl, old.tree, fits.tree, ?_⟩
    rw [← moved.path, ← moved.tree]

/-- The type annotations in code that the contents of an attribute hold. -/
def parse (contents : List UInt8) : Except Failure (List AnnotatedType) :=
  Reader.whole "type annotations" (Reader.table (readMoved Except.ok contents.length)) contents

/-- An annotation that moves stays as long as it is. -/
theorem Moved.length_written {relocation : Relocation} {old new : AnnotatedType}
    (moved : Moved relocation old new) : old.written.length = new.written.length := by
  simp [written, moved.target.length_written, moved.path, moved.tree]

/-- Moving the rows of a table does not change its size. -/
theorem length_flatMap_written {relocation : Relocation} {olds news : List AnnotatedType}
    (each : List.Forall₂ (Moved relocation) olds news) :
    (olds.flatMap written).length = (news.flatMap written).length := by
  induction each with
  | nil => rfl
  | cons moved _ inductionHypothesis =>
    simp only [List.flatMap_cons, List.length_append, moved.length_written, inductionHypothesis]

/-! ## The form of a table -/

/-- A target of one of the kinds there are, a path of pairs of bytes that one byte can
count, and a well-formed annotation. -/
structure WellFormed (entry : AnnotatedType) : Prop where
  target : entry.target.Fits
  path : ∃ steps : UInt8, entry.path.length = 2 * steps.toNat
  tree : entry.tree.WellFormed

/-- The written form of a table of type annotations. -/
def writtenTable (entries : List AnnotatedType) : List UInt8 :=
  Written.u16 (UInt16.ofNat entries.length) ++ entries.flatMap written

/-- Bytes that are the written form of a table of type annotations. -/
structure Spells (contents : List UInt8) (entries : List AnnotatedType) : Prop where
  few : entries.length < 65536
  wellFormed : ∀ entry ∈ entries, entry.WellFormed
  bytes : contents = writtenTable entries

/-- What fits into a depth is well formed. -/
theorem Fits.wellFormed {depth : Nat} {entry : AnnotatedType} (fits : entry.Fits depth) :
    entry.WellFormed where
  target := fits.target
  path := fits.path
  tree := (AnnotationTree.of_takes_read depth _ _ fits.tree).2

/-- As deep as there are bytes every annotation of a table can be read. -/
theorem Spells.fits {contents : List UInt8} {entries : List AnnotatedType}
    (spells : Spells contents entries) : ∀ entry ∈ entries, entry.Fits contents.length := by
  intro entry member
  have wellFormed := spells.wellFormed entry member
  have part := length_le_flatMap written member
  have enough : entry.tree.written.length ≤ contents.length := by
    rw [spells.bytes, writtenTable, List.length_append]
    simp only [written, List.length_append] at part
    omega
  exact
    { target := wellFormed.target
      path := wellFormed.path
      tree := AnnotationTree.takes_read_written _ _ wellFormed.tree enough }

/-- Moving keeps an annotation well formed. -/
theorem Moved.wellFormed {relocation : Relocation} {old new : AnnotatedType}
    (moved : Moved relocation old new) (wellFormed : old.WellFormed) : new.WellFormed where
  target := moved.target.fits wellFormed.target
  path := by rw [moved.path]; exact wellFormed.path
  tree := by rw [moved.tree]; exact wellFormed.tree

/-- An annotation that stays where it is has moved nowhere. -/
theorem moved_ok (entry : AnnotatedType) : Moved Except.ok entry entry :=
  ⟨entry.target.moved_ok, rfl, rfl⟩

/-- If nothing moves an annotation stays as it is. -/
theorem Moved.eq_of_ok {old new : AnnotatedType} (moved : Moved Except.ok old new) :
    new = old := by
  obtain ⟨target, path, tree⟩ := new
  obtain rfl := moved.target.eq_of_ok
  obtain rfl : path = old.path := moved.path
  obtain rfl : tree = old.tree := moved.tree
  rfl

/-- Reading a table and moving its rows succeeds if the bytes spell a table and each of its
rows can be moved. -/
theorem whole_eq_ok (relocation : Relocation) (contents : List UInt8)
    (news : List AnnotatedType) :
    Reader.whole "type annotations" (Reader.table (readMoved relocation contents.length))
        contents = .ok news ↔
      ∃ olds, Spells contents olds ∧ List.Forall₂ (Moved relocation) olds news := by
  rw [Reader.whole_eq_ok, takes_table_moved (takes_readMoved contents.length)]
  constructor
  · rintro ⟨olds, bytes, few, each⟩
    refine ⟨olds, ⟨few, ?_, bytes⟩, each.imp fun _ _ moved => moved.2⟩
    intro old member
    obtain ⟨new, -, fits, -⟩ := Outcome.exists_of_forall₂ each.flip old member
    exact fits.wellFormed
  · rintro ⟨olds, spells, each⟩
    refine ⟨olds, spells.bytes, spells.few, ?_⟩
    exact (List.forall₂_and_left ..).2 ⟨spells.fits, each⟩

/-- Moving a table moves its rows and changes nothing else. -/
theorem relocate_eq_ok (relocation : Relocation) (contents rewritten : List UInt8) :
    relocate relocation contents = .ok rewritten ↔
      ∃ olds news, Spells contents olds ∧ List.Forall₂ (Moved relocation) olds news ∧
        rewritten = writtenTable news := by
  simp only [relocate, Outcome.bind_eq_ok, Outcome.pure_eq_ok, whole_eq_ok]
  constructor
  · rintro ⟨news, ⟨olds, spells, each⟩, rfl⟩
    exact ⟨olds, news, spells, each, rfl⟩
  · rintro ⟨olds, news, spells, each, rfl⟩
    exact ⟨news, ⟨olds, spells, each⟩, rfl⟩

/-- If nothing moves, the annotations are as before. -/
theorem forall₂_moved_ok_iff (olds news : List AnnotatedType) :
    List.Forall₂ (Moved Except.ok) olds news ↔ news = olds := by
  constructor
  · intro each
    have same : List.Forall₂ Eq olds news := each.imp fun _ _ moved => moved.eq_of_ok.symm
    rw [List.forall₂_eq_eq_eq] at same
    exact same.symm
  · rintro rfl
    exact List.forall₂_same.2 fun entry _ => entry.moved_ok

/-- The type annotations that some bytes hold are those that they spell. -/
theorem parse_eq_ok (contents : List UInt8) (entries : List AnnotatedType) :
    parse contents = .ok entries ↔ Spells contents entries := by
  simp only [parse, whole_eq_ok, forall₂_moved_ok_iff, exists_eq_right']

/-- Bytes spell at most one table. -/
theorem Spells.unique {contents : List UInt8} {entries others : List AnnotatedType}
    (spells : Spells contents entries) (spellsOthers : Spells contents others) :
    entries = others :=
  Except.ok.inj (((parse_eq_ok ..).2 spells).symm.trans ((parse_eq_ok ..).2 spellsOthers))

/-- The rows that a table was moved to are those of the table that is written. -/
theorem Spells.moved {relocation : Relocation} {contents : List UInt8}
    {olds news : List AnnotatedType} (spells : Spells contents olds)
    (each : List.Forall₂ (Moved relocation) olds news) : Spells (writtenTable news) news where
  few := by
    rw [← each.length_eq]
    exact spells.few
  wellFormed new member := by
    obtain ⟨old, inside, moved⟩ := Outcome.exists_of_forall₂ each new member
    exact moved.wellFormed (spells.wellFormed old inside)
  bytes := rfl

/-- The rows of a rewritten table are the moved rows of the table. -/
theorem relocate_moves (relocation : Relocation) (contents rewritten : List UInt8)
    (ran : relocate relocation contents = .ok rewritten) :
    ∃ olds news, parse contents = .ok olds ∧ parse rewritten = .ok news ∧
      List.Forall₂ (Moved relocation) olds news := by
  obtain ⟨olds, news, spells, each, rfl⟩ := (relocate_eq_ok ..).1 ran
  exact ⟨olds, news, (parse_eq_ok ..).2 spells, (parse_eq_ok ..).2 (spells.moved each), each⟩

end AnnotatedType

end NullGuard
