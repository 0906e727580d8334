import NullGuard.Code.Relocation
import NullGuard.Proofs.Bytes.Reading
import NullGuard.Proofs.Outcome

/-!
# Tables of offsets

A reader that moves offsets while it reads takes the written form of a row as
the moved row. `Moved` says for each kind of row what that means, and a table is
rewritten row by row (`rewriteRows_eq_ok`). To read a table as it is, nothing is
moved: the relocation `Except.ok` leaves every offset where it is.
-/

namespace NullGuard

namespace Relocation

/-- The relocation that moves every offset as a map says. -/
def total (f : Nat → Nat) : Relocation := fun offset => .ok (f offset)

/-- An offset is narrowed to the word that stands for it, if one does. -/
theorem narrow_eq_ok (offset : Nat) (word : UInt16) :
    narrow offset = .ok word ↔ offset = word.toNat := by
  rw [narrow]
  split
  next small =>
    rw [Except.ok.injEq]
    constructor
    · rintro rfl
      exact (UInt16.toNat_ofNat_of_lt' small).symm
    · rintro rfl
      exact UInt16.ofNat_toNat
  next large =>
    have bound := word.toNat_lt
    constructor
    · intro impossible
      cases impossible
    · intro same
      omega

/-- A word is moved as the offset that it stands for. -/
theorem move_eq_ok (relocation : Relocation) (offset moved : UInt16) :
    relocation.move offset = .ok moved ↔ relocation offset.toNat = .ok moved.toNat := by
  rw [move, Outcome.bind_eq_ok]
  simp only [narrow_eq_ok]
  constructor
  · rintro ⟨target, reached, rfl⟩
    exact reached
  · intro reached
    exact ⟨_, reached, rfl⟩

/-- Both ends of a range move. -/
structure MovesRange (relocation : Relocation) (first length newFirst newLength : UInt16) :
    Prop where
  start : relocation first.toNat = .ok newFirst.toNat
  stop : relocation (first.toNat + length.toNat) = .ok (newFirst.toNat + newLength.toNat)

/-- A range is moved exactly if both of its ends are, and the new length is the way between
them. -/
theorem moveRange_eq_ok (relocation : Relocation) (start length newStart newLength : UInt16) :
    relocation.moveRange start length = .ok (newStart, newLength) ↔
      relocation.MovesRange start length newStart newLength := by
  simp only [moveRange, Outcome.bind_eq_ok]
  constructor
  · rintro ⟨first, atStart, last, atStop, word, narrowed, ran⟩
    obtain rfl := (narrow_eq_ok ..).1 narrowed
    split at ran
    next => cases ran
    next ordered =>
      obtain ⟨size, narrowedAgain, returned⟩ := (Outcome.bind_eq_ok ..).1 ran
      obtain ⟨rfl, rfl⟩ := Prod.mk.inj (Except.ok.inj returned)
      have length := (narrow_eq_ok ..).1 narrowedAgain
      refine ⟨atStart, ?_⟩
      rw [atStop]
      congr 1
      omega
  · intro moves
    refine ⟨_, moves.start, newStart.toNat + newLength.toNat, moves.stop, newStart,
      (narrow_eq_ok ..).2 rfl, ?_⟩
    rw [if_neg (by omega)]
    exact (Outcome.bind_eq_ok ..).2 ⟨newLength, (narrow_eq_ok ..).2 (by omega), rfl⟩

/-- A range is left as it is if nothing moves. -/
theorem movesRange_ok (start length : UInt16) : MovesRange Except.ok start length start length :=
  ⟨rfl, rfl⟩

/-- If nothing moves a range stays as it is. -/
theorem MovesRange.eq_of_ok {start length newStart newLength : UInt16}
    (moves : MovesRange Except.ok start length newStart newLength) :
    newStart = start ∧ newLength = length := by
  have first := Except.ok.inj moves.start
  have last := Except.ok.inj moves.stop
  exact ⟨UInt16.toNat_inj.1 first.symm, UInt16.toNat_inj.1 (by omega)⟩

end Relocation

/-! ## Rewriting a table -/

section Rows

variable {α : Type}

/-- Rewrite a table whose rows are moved while they are read. -/
def rewriteRows (what : String) (row : Reader α) (written : α → List UInt8)
    (contents : List UInt8) : Except Failure (List UInt8) := do
  let rows ← Reader.whole what (Reader.table row) contents
  return Written.u16 (UInt16.ofNat rows.length) ++ rows.flatMap written

variable {row : Relocation → Reader α} {written : α → List UInt8}
  {Moved : Relocation → α → α → Prop} [∀ relocation, (row relocation).Local]
  (exactly : ∀ relocation front moved, (row relocation).Takes front moved ↔
    ∃ old, front = written old ∧ Moved relocation old moved)

include exactly

/-- A table is taken as the moved rows of a written table. -/
theorem takes_table_moved (relocation : Relocation) (bytes : List UInt8) (rows : List α) :
    (Reader.table (row relocation)).Takes bytes rows ↔
      ∃ olds, bytes = Written.u16 (UInt16.ofNat olds.length) ++ olds.flatMap written ∧
        olds.length < 65536 ∧ List.Forall₂ (Moved relocation) olds rows := by
  have split (fronts : List (List UInt8)) :
      List.Forall₂ (row relocation).Takes fronts rows ↔
        ∃ olds, fronts = olds.map written ∧ List.Forall₂ (Moved relocation) olds rows := by
    constructor
    · intro each
      induction each with
      | nil => exact ⟨[], rfl, .nil⟩
      | cons first _ inductionHypothesis =>
        obtain ⟨old, rfl, moved⟩ := (exactly ..).1 first
        obtain ⟨olds, rfl, others⟩ := inductionHypothesis
        exact ⟨old :: olds, rfl, .cons moved others⟩
    · rintro ⟨olds, rfl, each⟩
      rw [List.forall₂_map_left_iff]
      exact each.imp fun old new moved => (exactly ..).2 ⟨old, rfl, moved⟩
  simp only [Reader.takes_table, split]
  constructor
  · rintro ⟨bound, fronts, rfl, olds, rfl, each⟩
    rw [← each.length_eq] at bound ⊢
    exact ⟨olds, by rw [List.flatMap_def], bound, each⟩
  · rintro ⟨olds, rfl, bound, each⟩
    rw [← each.length_eq]
    exact ⟨bound, _, by rw [List.flatMap_def], olds, rfl, each⟩

/-- A rewritten table holds the moved rows of the table that was read. -/
theorem rewriteRows_moves
    (stays : ∀ relocation old new, Moved relocation old new →
      Moved Except.ok old old ∧ Moved Except.ok new new)
    (what : String) (relocation : Relocation) (contents rewritten : List UInt8)
    (ran : rewriteRows what (row relocation) written contents = .ok rewritten) :
    ∃ olds news, Reader.whole what (Reader.table (row Except.ok)) contents = .ok olds ∧
      Reader.whole what (Reader.table (row Except.ok)) rewritten = .ok news ∧
      List.Forall₂ (Moved relocation) olds news := by
  obtain ⟨news, read, returned⟩ := (Outcome.bind_eq_ok ..).1 ran
  have form := (Except.ok.inj returned).symm
  clear returned ran
  rw [Reader.whole_eq_ok, takes_table_moved exactly] at read
  obtain ⟨olds, rfl, bound, each⟩ := read
  have still : List.Forall₂ (Moved Except.ok) olds olds ∧
      List.Forall₂ (Moved Except.ok) news news := by
    clear bound form
    induction each with
    | nil => exact ⟨.nil, .nil⟩
    | cons moved _ inductionHypothesis =>
      obtain ⟨old, new⟩ := stays _ _ _ moved
      exact ⟨.cons old inductionHypothesis.1, .cons new inductionHypothesis.2⟩
  refine ⟨olds, news, ?_, ?_, each⟩
  · rw [Reader.whole_eq_ok, takes_table_moved exactly]
    exact ⟨olds, rfl, bound, still.1⟩
  · rw [Reader.whole_eq_ok, takes_table_moved exactly]
    refine ⟨news, form, ?_, still.2⟩
    rw [← each.length_eq]
    exact bound

end Rows

/-! ## Line numbers -/

namespace LineRow

/-- The offset moves and the line stays. -/
structure Moved (relocation : Relocation) (old new : LineRow) : Prop where
  start : relocation old.start.toNat = .ok new.start.toNat
  line : new.line = old.line

/-- A row of line numbers is read without a look at what follows. -/
instance (relocation : Relocation) : (readMoved relocation).Local := by
  unfold readMoved
  infer_instance

/-- The bytes taken as a moved row are the byte form of the row that has moved. -/
theorem takes_readMoved (relocation : Relocation) (front : List UInt8) (new : LineRow) :
    (readMoved relocation).Takes front new ↔
      ∃ old, front = written old ∧ Moved relocation old new := by
  simp only [readMoved, Reader.takes_u16_bind, bind_pure_comp, Reader.takes_map, Reader.takes_lift,
    Relocation.move_eq_ok]
  constructor
  · rintro ⟨start, back, rfl, line, last, rfl, moved, ⟨rfl, reached⟩, rfl⟩
    exact ⟨⟨start, line⟩, by simp [written], reached, rfl⟩
  · rintro ⟨old, rfl, moved⟩
    exact ⟨old.start, _, rfl, old.line, [], by simp, new.start, ⟨rfl, moved.start⟩,
      by rw [← moved.line]⟩

/-- A row that can be moved is left as it is if nothing moves. -/
theorem Moved.stays {relocation : Relocation} {old new : LineRow} (_ : Moved relocation old new) :
    Moved Except.ok old old ∧ Moved Except.ok new new :=
  ⟨⟨rfl, rfl⟩, rfl, rfl⟩

/-- The rows of a line number table. -/
def parse (contents : List UInt8) : Except Failure (List LineRow) :=
  Reader.whole "line number table" (Reader.table (readMoved Except.ok)) contents

/-- The rows of a rewritten table are the moved rows of the table. -/
theorem relocate_moves (relocation : Relocation) (contents rewritten : List UInt8)
    (ran : relocate relocation contents = .ok rewritten) :
    ∃ olds news, parse contents = .ok olds ∧ parse rewritten = .ok news ∧
      List.Forall₂ (Moved relocation) olds news :=
  rewriteRows_moves takes_readMoved (fun _ _ _ moved => moved.stays) _ relocation contents rewritten
    ran

end LineRow

/-! ## Local variables -/

namespace VariableRow

/-- The range moves and the rest of the row stays. -/
structure Moved (relocation : Relocation) (old new : VariableRow) : Prop where
  range : relocation.MovesRange old.start old.length new.start new.length
  details : new.details = old.details
  complete : old.details.length = 6

/-- A row of variables is read without a look at what follows. -/
instance (relocation : Relocation) : (readMoved relocation).Local := by
  unfold readMoved
  infer_instance

/-- The bytes taken as a moved row of variables are the byte form of the row that has moved.
-/
theorem takes_readMoved (relocation : Relocation) (front : List UInt8) (new : VariableRow) :
    (readMoved relocation).Takes front new ↔
      ∃ old, front = written old ∧ Moved relocation old new := by
  simp only [readMoved, Reader.takes_u16_bind, bind_pure_comp, Reader.takes_map,
    Reader.takes_lift_bind, Reader.takes_bytes, Prod.exists, Relocation.moveRange_eq_ok]
  constructor
  · rintro ⟨start, back, rfl, length, rest, rfl, newStart, newLength, range, _,
      ⟨rfl, complete⟩, rfl⟩
    exact ⟨⟨start, length, rest⟩, by simp [written], range, rfl, complete⟩
  · rintro ⟨old, rfl, moved⟩
    exact ⟨old.start, _, by rw [written, List.append_assoc], old.length, old.details, rfl,
      new.start, new.length, moved.range, old.details, ⟨rfl, moved.complete⟩,
      by rw [← moved.details]⟩

/-- A row that can be moved is left as it is if nothing moves. -/
theorem Moved.stays {relocation : Relocation} {old new : VariableRow}
    (moved : Moved relocation old new) : Moved Except.ok old old ∧ Moved Except.ok new new := by
  have complete : new.details.length = 6 := by
    rw [moved.details]
    exact moved.complete
  exact ⟨⟨Relocation.movesRange_ok .., rfl, moved.complete⟩, Relocation.movesRange_ok .., rfl,
    complete⟩

/-- The rows of a table of local variables or of their generic types. -/
def parse (contents : List UInt8) : Except Failure (List VariableRow) :=
  Reader.whole "local variable table" (Reader.table (readMoved Except.ok)) contents

/-- The rows of a rewritten table are the moved rows of the table. -/
theorem relocate_moves (relocation : Relocation) (contents rewritten : List UInt8)
    (ran : relocate relocation contents = .ok rewritten) :
    ∃ olds news, parse contents = .ok olds ∧ parse rewritten = .ok news ∧
      List.Forall₂ (Moved relocation) olds news :=
  rewriteRows_moves takes_readMoved (fun _ _ _ moved => moved.stays) _ relocation contents rewritten
    ran

end VariableRow

end NullGuard
