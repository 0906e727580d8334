import NullGuard.Proofs.Annotations.InCode
import NullGuard.Proofs.Code.StackMap

/-!
# Tables that can be moved

A relocation that keeps the order of the places it moves, and keeps them within two
bytes, can do anything with a table that the table itself allows: a table is moved
exactly if it can be read and all its offsets are such places. In particular ranges
keep an end behind their start, and the frames of a stack map stay in order.
-/

namespace NullGuard

/-- A relocation of some places that keeps their order and fits into two bytes. -/
structure Relocation.KeepsOrder (relocation : Relocation) (Stands : Nat → Prop) : Prop where
  reached : ∀ offset, (∃ target, relocation offset = .ok target) ↔ Stands offset
  bounded : ∀ offset target, relocation offset = .ok target → target < 65536
  increasing : ∀ first second newFirst newSecond, relocation first = .ok newFirst →
    relocation second = .ok newSecond → first < second → newFirst < newSecond

section Words

variable {relocation : Relocation} {Stands : Nat → Prop} (keeps : relocation.KeepsOrder Stands)

include keeps

/-- The end of a range does not get in front of its start. -/
theorem Relocation.KeepsOrder.le (first second newFirst newSecond : Nat)
    (firstMoved : relocation first = .ok newFirst) (secondMoved : relocation second = .ok newSecond)
    (ordered : first ≤ second) : newFirst ≤ newSecond := by
  obtain rfl | before := Nat.eq_or_lt_of_le ordered
  · exact Nat.le_of_eq (Except.ok.inj (firstMoved.symm.trans secondMoved))
  · exact Nat.le_of_lt (keeps.increasing _ _ _ _ firstMoved secondMoved before)

/-- A place goes to one that two bytes can hold. -/
theorem Relocation.KeepsOrder.exists_word (offset : Nat) :
    (∃ word : UInt16, relocation offset = .ok word.toNat) ↔ Stands offset := by
  rw [← keeps.reached]
  constructor
  · rintro ⟨word, moved⟩
    exact ⟨_, moved⟩
  · rintro ⟨target, moved⟩
    refine ⟨UInt16.ofNat target, ?_⟩
    rw [UInt16.toNat_ofNat_of_lt' (keeps.bounded _ _ moved)]
    exact moved

/-- A range can be moved if both of its ends can. -/
theorem Relocation.KeepsOrder.exists_range (start length : UInt16) :
    (∃ newStart newLength, relocation.MovesRange start length newStart newLength) ↔
      Stands start.toNat ∧ Stands (start.toNat + length.toNat) := by
  rw [← keeps.exists_word, ← keeps.exists_word]
  constructor
  · rintro ⟨newStart, newLength, moves⟩
    have bound := keeps.bounded _ _ moves.stop
    refine ⟨⟨newStart, moves.start⟩, UInt16.ofNat (newStart.toNat + newLength.toNat), ?_⟩
    rw [UInt16.toNat_ofNat_of_lt' bound]
    exact moves.stop
  · rintro ⟨⟨newStart, startMoved⟩, newStop, stopMoved⟩
    have ordered := keeps.le _ _ _ _ startMoved stopMoved (Nat.le_add_right ..)
    refine ⟨newStart, newStop - newStart, startMoved, ?_⟩
    rw [UInt16.toNat_sub_of_le _ _ (UInt16.le_iff_toNat_le.2 ordered), stopMoved]
    congr 1
    omega

end Words

/-! ## Tables of rows -/

section Rows

variable {α : Type} {row : Relocation → Reader α} {written : α → List UInt8}
  {Moved : Relocation → α → α → Prop} [∀ relocation, (row relocation).Local]
  (exactly : ∀ relocation front moved, (row relocation).Takes front moved ↔
    ∃ old, front = written old ∧ Moved relocation old moved)

include exactly

/-- A table is rewritten if it can be read as it is and each of its rows can be moved. -/
theorem rewriteRows_succeeds_iff
    (stays : ∀ relocation old new, Moved relocation old new →
      Moved Except.ok old old ∧ Moved Except.ok new new)
    (still : ∀ old new, Moved Except.ok old new → new = old)
    (what : String) (relocation : Relocation) (Movable : α → Prop)
    (movable : ∀ old, Moved Except.ok old old → ((∃ new, Moved relocation old new) ↔ Movable old))
    (contents : List UInt8) :
    (∃ rewritten, rewriteRows what (row relocation) written contents = .ok rewritten) ↔
      ∃ olds, Reader.whole what (Reader.table (row Except.ok)) contents = .ok olds ∧
        ∀ old ∈ olds, Movable old := by
  constructor
  · rintro ⟨rewritten, ran⟩
    obtain ⟨olds, news, read, -, each⟩ :=
      rewriteRows_moves exactly stays what relocation contents rewritten ran
    refine ⟨olds, read, ?_⟩
    intro old member
    obtain ⟨new, -, moved⟩ := Outcome.exists_of_forall₂ each.flip old member
    exact (movable old (stays _ _ _ moved).1).1 ⟨new, moved⟩
  · rintro ⟨olds, read, each⟩
    rw [Reader.whole_eq_ok, takes_table_moved exactly] at read
    obtain ⟨originals, rfl, bound, unmoved⟩ := read
    -- Reading without moving gives the rows that the bytes are the written form of.
    have same : originals = olds := by
      rw [← List.forall₂_eq_eq_eq]
      exact unmoved.imp fun old new moved => (still old new moved).symm
    subst same
    rw [List.forall₂_same] at unmoved
    obtain ⟨news, moved⟩ := Outcome.exists_forall₂ originals fun old member =>
      (movable old (unmoved old member)).2 (each old member)
    refine ⟨_, (Outcome.bind_eq_ok ..).2 ⟨news, ?_, rfl⟩⟩
    rw [Reader.whole_eq_ok, takes_table_moved exactly]
    exact ⟨originals, rfl, bound, moved⟩

end Rows

section Tables

variable {relocation : Relocation} {Stands : Nat → Prop} (keeps : relocation.KeepsOrder Stands)

include keeps

/-- A line number table is moved if it can be read and its offsets can be moved. -/
theorem LineRow.relocate_succeeds_iff (contents : List UInt8) :
    (∃ rewritten, LineRow.relocate relocation contents = .ok rewritten) ↔
      ∃ rows, LineRow.parse contents = .ok rows ∧ ∀ row ∈ rows, Stands row.start.toNat := by
  refine rewriteRows_succeeds_iff LineRow.takes_readMoved (fun _ _ _ moved => moved.stays) ?_
    "line number table" relocation _ ?_ contents
  · intro old new moved
    obtain ⟨start, line⟩ := new
    obtain rfl := UInt16.toNat_inj.1 (Except.ok.inj moved.start)
    obtain rfl : line = old.line := moved.line
    rfl
  · intro old _
    rw [← keeps.exists_word]
    constructor
    · rintro ⟨new, moved⟩
      exact ⟨_, moved.start⟩
    · rintro ⟨start, moved⟩
      exact ⟨⟨start, old.line⟩, moved, rfl⟩

/-- A table of local variables is moved if it can be read and both ends of its ranges can
be moved. -/
theorem VariableRow.relocate_succeeds_iff (contents : List UInt8) :
    (∃ rewritten, VariableRow.relocate relocation contents = .ok rewritten) ↔
      ∃ rows, VariableRow.parse contents = .ok rows ∧ ∀ row ∈ rows,
        Stands row.start.toNat ∧ Stands (row.start.toNat + row.length.toNat) := by
  refine rewriteRows_succeeds_iff VariableRow.takes_readMoved (fun _ _ _ moved => moved.stays) ?_
    "local variable table" relocation _ ?_ contents
  · intro old new moved
    obtain ⟨start, length, details⟩ := new
    obtain ⟨rfl, rfl⟩ := moved.range.eq_of_ok
    obtain rfl : details = old.details := moved.details
    rfl
  · intro old unmoved
    rw [← keeps.exists_range]
    constructor
    · rintro ⟨new, moved⟩
      exact ⟨_, _, moved.range⟩
    · rintro ⟨start, length, range⟩
      exact ⟨⟨start, length, old.details⟩, range, rfl, unmoved.complete⟩

end Tables

/-! ## Type annotations -/

/-- The offsets in a target, both ends of a range among them. -/
def CodeTarget.offsets : CodeTarget → List Nat
  | .variable _ ranges =>
    ranges.flatMap fun range => [range.start.toNat, range.start.toNat + range.length.toNat]
  | .handler _ => []
  | .instruction _ offset | .argument _ offset _ => [offset.toNat]

section Targets

variable {relocation : Relocation} {Stands : Nat → Prop} (keeps : relocation.KeepsOrder Stands)

include keeps

/-- A target is moved if its offsets can be moved. -/
theorem CodeTarget.exists_moved_iff (target : CodeTarget) :
    (∃ new, target.Moved relocation new) ↔ ∀ offset ∈ target.offsets, Stands offset := by
  cases target with
  | «variable» tag ranges =>
    have movable (range : LocalRange) : (∃ new, range.Moved relocation new) ↔
        Stands range.start.toNat ∧ Stands (range.start.toNat + range.length.toNat) := by
      rw [← keeps.exists_range]
      constructor
      · rintro ⟨new, moved⟩
        exact ⟨_, _, moved.range⟩
      · rintro ⟨start, length, moved⟩
        exact ⟨⟨start, length, range.slot⟩, moved, rfl⟩
    simp only [offsets, List.forall_mem_flatMap, List.forall_mem_cons, List.not_mem_nil,
      false_implies, implies_true, and_true, ← movable]
    constructor
    · rintro ⟨new, moved⟩
      cases moved with
      | ranges _ _ news each =>
        intro range member
        obtain ⟨new, -, moved⟩ := Outcome.exists_of_forall₂ each.flip range member
        exact ⟨new, moved⟩
    · intro each
      obtain ⟨news, moved⟩ := Outcome.exists_forall₂ ranges each
      exact ⟨_, .ranges tag ranges news moved⟩
  | handler row =>
    refine iff_of_true ⟨_, .handler row⟩ ?_
    simp [offsets]
  | instruction tag offset =>
    rw [offsets, List.forall_mem_singleton, ← keeps.exists_word]
    constructor
    · rintro ⟨new, moved⟩
      cases moved with
      | instruction _ _ new moved => exact ⟨new, moved⟩
    · rintro ⟨new, moved⟩
      exact ⟨_, .instruction tag offset new moved⟩
  | argument tag offset position =>
    rw [offsets, List.forall_mem_singleton, ← keeps.exists_word]
    constructor
    · rintro ⟨new, moved⟩
      cases moved with
      | argument _ _ new _ moved => exact ⟨new, moved⟩
    · rintro ⟨new, moved⟩
      exact ⟨_, .argument tag offset new position moved⟩

/-- An attribute of type annotations is moved if it can be read and all offsets in it can
be moved. -/
theorem AnnotatedType.relocate_succeeds_iff (contents : List UInt8) :
    (∃ rewritten, AnnotatedType.relocate relocation contents = .ok rewritten) ↔
      ∃ rows, AnnotatedType.parse contents = .ok rows ∧ ∀ row ∈ rows,
        ∀ offset ∈ row.target.offsets, Stands offset := by
  simp only [AnnotatedType.relocate_eq_ok, AnnotatedType.parse_eq_ok]
  constructor
  · rintro ⟨rewritten, olds, news, spells, each, rfl⟩
    refine ⟨olds, spells, fun row member => ?_⟩
    obtain ⟨new, -, moved⟩ := Outcome.exists_of_forall₂ each.flip row member
    exact (CodeTarget.exists_moved_iff keeps row.target).1 ⟨_, moved.target⟩
  · rintro ⟨rows, spells, stand⟩
    have movable (row : AnnotatedType) (member : row ∈ rows) :
        ∃ new, row.Moved relocation new := by
      obtain ⟨target, moved⟩ :=
        (CodeTarget.exists_moved_iff keeps row.target).2 (stand row member)
      exact ⟨⟨target, row.path, row.tree⟩, moved, rfl, rfl⟩
    obtain ⟨news, each⟩ := Outcome.exists_forall₂ rows movable
    exact ⟨_, rows, news, spells, each, rfl⟩

end Targets

end NullGuard
