import NullGuard.Proofs.Code.Movable

/-!
# Stack maps that can be moved

Moving a stack map fails only for an offset that cannot be moved, and writing it could
fail for frames out of order and for offsets that are too large. A relocation that
keeps the order of the offsets in the stack map rules out both, since the frames that
were read stand one behind the other (`exists_written_of_keepsOrderOf`, `rewrites_iff`).
-/

namespace NullGuard

/-- A relocation that moves some offsets to ones that two bytes can hold, in the same order. -/
structure Relocation.KeepsOrderOf (relocation : Relocation) (offsets : List Nat) : Prop where
  reached : ∀ offset ∈ offsets, ∃ target, relocation offset = .ok target
  bounded : ∀ offset ∈ offsets, ∀ target, relocation offset = .ok target → target < 65536
  increasing : ∀ first ∈ offsets, ∀ second ∈ offsets, ∀ newFirst newSecond,
    relocation first = .ok newFirst → relocation second = .ok newSecond →
      first < second → newFirst < newSecond

/-- A map of all offsets has to keep order and bound only where offsets occur. -/
theorem Relocation.keepsOrderOf_total (f : Nat → Nat) (offsets : List Nat)
    (bounded : ∀ offset ∈ offsets, f offset < 65536)
    (increasing : ∀ first ∈ offsets, ∀ second ∈ offsets, first < second → f first < f second) :
    (total f).KeepsOrderOf offsets where
  reached offset _ := ⟨f offset, rfl⟩
  bounded offset member target reached := by
    obtain rfl := Except.ok.inj reached
    exact bounded offset member
  increasing first firstMember second secondMember newFirst newSecond reached reachedSecond := by
    obtain rfl := Except.ok.inj reached
    obtain rfl := Except.ok.inj reachedSecond
    exact increasing first firstMember second secondMember

namespace VerificationType

/-- The offset of the `new` instruction in a type. -/
def offsets : VerificationType → List Nat
  | .uninitialized offset => [offset]
  | _ => []

/-- A type can be moved if the place in it can. -/
theorem relocate_succeeds_iff (relocation : Relocation) (type : VerificationType) :
    (∃ moved, type.relocate relocation = .ok moved) ↔
      ∀ offset ∈ type.offsets, ∃ target, relocation offset = .ok target := by
  cases type with
  | uninitialized offset =>
    rw [offsets, List.forall_mem_singleton]
    constructor
    · rintro ⟨moved, ran⟩
      obtain ⟨target, reached, -⟩ := (Outcome.bind_eq_ok ..).1 ran
      exact ⟨target, reached⟩
    · rintro ⟨target, reached⟩
      exact ⟨_, (Outcome.bind_eq_ok ..).2 ⟨target, reached, rfl⟩⟩
  | _ => simp [relocate, offsets]

/-- The offset in a moved type is one that an offset of the type has been moved to. -/
theorem Moved.exists_origin {relocation : Relocation} {old new : VerificationType}
    (moved : Moved relocation old new) :
    ∀ offset ∈ new.offsets, ∃ origin ∈ old.offsets, relocation origin = .ok offset := by
  cases moved with
  | created old new moved =>
    rw [offsets, List.forall_mem_singleton]
    exact ⟨old, List.mem_singleton_self old, moved⟩
  | other type fixed =>
    cases old with
    | uninitialized offset => exact absurd rfl (fixed offset)
    | _ => simp [offsets]

/-- A type can be written if the place in it is small enough. -/
theorem exists_written (type : VerificationType)
    (small : ∀ offset ∈ type.offsets, offset < 65536) : ∃ bytes, type.written = .ok bytes := by
  cases type with
  | uninitialized offset =>
    have bound := small offset (List.mem_singleton_self offset)
    exact ⟨_, if_pos bound⟩
  | _ => exact ⟨_, rfl⟩

end VerificationType

namespace FrameChange

/-- The offsets in a change, locals before stack. -/
def offsets : FrameChange → List Nat
  | .same | .chop _ => []
  | .oneItem item => item.offsets
  | .append locals => locals.flatMap VerificationType.offsets
  | .full locals stack =>
    locals.flatMap VerificationType.offsets ++ stack.flatMap VerificationType.offsets

/-- A change of a frame can be moved if all places in it can. -/
theorem relocate_succeeds_iff (relocation : Relocation) (change : FrameChange) :
    (∃ moved, change.relocate relocation = .ok moved) ↔
      ∀ offset ∈ change.offsets, ∃ target, relocation offset = .ok target := by
  have all (types : List VerificationType) :
      (∃ moved, types.mapM (·.relocate relocation) = .ok moved) ↔
        ∀ offset ∈ types.flatMap VerificationType.offsets, ∃ target,
          relocation offset = .ok target := by
    simp only [List.forall_mem_flatMap, ← VerificationType.relocate_succeeds_iff]
    constructor
    · rintro ⟨moved, ran⟩
      exact Outcome.exists_of_mapM _ _ _ ran
    · exact Outcome.exists_mapM_eq_ok _ types
  cases change with
  | same => simp [relocate, offsets]
  | chop count => simp [relocate, offsets]
  | oneItem item =>
    rw [offsets, ← VerificationType.relocate_succeeds_iff]
    constructor
    · rintro ⟨moved, ran⟩
      obtain ⟨item, reached, -⟩ := (Outcome.bind_eq_ok ..).1 ran
      exact ⟨item, reached⟩
    · rintro ⟨item, reached⟩
      exact ⟨_, (Outcome.bind_eq_ok ..).2 ⟨item, reached, rfl⟩⟩
  | append locals =>
    rw [offsets, ← all]
    constructor
    · rintro ⟨moved, ran⟩
      obtain ⟨types, reached, -⟩ := (Outcome.bind_eq_ok ..).1 ran
      exact ⟨types, reached⟩
    · rintro ⟨types, reached⟩
      exact ⟨_, (Outcome.bind_eq_ok ..).2 ⟨types, reached, rfl⟩⟩
  | full locals stack =>
    rw [offsets, List.forall_mem_append, ← all, ← all]
    constructor
    · rintro ⟨moved, ran⟩
      obtain ⟨types, reached, ran⟩ := (Outcome.bind_eq_ok ..).1 ran
      obtain ⟨items, reachedStack, -⟩ := (Outcome.bind_eq_ok ..).1 ran
      exact ⟨⟨types, reached⟩, items, reachedStack⟩
    · rintro ⟨⟨types, reached⟩, items, reachedStack⟩
      exact ⟨_, (Outcome.bind_eq_ok ..).2 ⟨types, reached,
        (Outcome.bind_eq_ok ..).2 ⟨items, reachedStack, rfl⟩⟩⟩

/-- The offsets in a moved change are those that the offsets of the change have been moved
to. -/
theorem Moved.exists_origin {relocation : Relocation} {old new : FrameChange}
    (moved : Moved relocation old new) :
    ∀ offset ∈ new.offsets, ∃ origin ∈ old.offsets, relocation origin = .ok offset := by
  have all {olds news : List VerificationType}
      (each : List.Forall₂ (VerificationType.Moved relocation) olds news) :
      ∀ offset ∈ news.flatMap VerificationType.offsets,
        ∃ origin ∈ olds.flatMap VerificationType.offsets, relocation origin = .ok offset := by
    rw [List.forall_mem_flatMap]
    intro new member offset inside
    obtain ⟨old, present, moved⟩ := Outcome.exists_of_forall₂ each new member
    obtain ⟨origin, occurs, reached⟩ := moved.exists_origin offset inside
    exact ⟨origin, List.mem_flatMap.2 ⟨old, present, occurs⟩, reached⟩
  cases moved with
  | same => simp [offsets]
  | chop count => simp [offsets]
  | oneItem old new item => exact item.exists_origin
  | append olds news locals => exact all locals
  | full olds news oldStack newStack locals stack =>
    rw [offsets, List.forall_mem_append]
    constructor
    · intro offset inside
      obtain ⟨origin, occurs, reached⟩ := all locals offset inside
      exact ⟨origin, List.mem_append_left _ occurs, reached⟩
    · intro offset inside
      obtain ⟨origin, occurs, reached⟩ := all stack offset inside
      exact ⟨origin, List.mem_append_right _ occurs, reached⟩

/-- A moved change has as many locals and items as before. -/
theorem Moved.readable {relocation : Relocation} {old new : FrameChange}
    (moved : Moved relocation old new) (readable : old.Readable) : new.Readable := by
  cases moved with
  | append olds news locals =>
    rw [Readable, ← locals.length_eq]
    exact readable
  | full olds news oldStack newStack locals stack =>
    rw [Readable, ← locals.length_eq, ← stack.length_eq]
    exact readable
  | chop count => exact readable
  | _ => trivial

/-- A change of a frame can be written if it can be read and the places in it are small
enough. -/
theorem exists_written (distance : Nat) (change : FrameChange) (readable : change.Readable)
    (small : ∀ offset ∈ change.offsets, offset < 65536) :
    ∃ bytes, change.written distance = .ok bytes := by
  have all (types : List VerificationType)
      (small : ∀ offset ∈ types.flatMap VerificationType.offsets, offset < 65536) :
      ∃ parts, types.mapM VerificationType.written = .ok parts := by
    rw [List.forall_mem_flatMap] at small
    exact Outcome.exists_mapM_eq_ok _ _ fun type member => type.exists_written (small type member)
  have table (what : String) (types : List VerificationType) (few : types.length < 65536)
      (small : ∀ offset ∈ types.flatMap VerificationType.offsets, offset < 65536) :
      ∃ bytes, Written.table what VerificationType.written types = .ok bytes := by
    obtain ⟨parts, wrote⟩ := all types small
    exact ⟨_, (Outcome.bind_eq_ok ..).2 ⟨_, if_pos few,
      (Outcome.bind_eq_ok ..).2 ⟨parts, wrote, rfl⟩⟩⟩
  cases change with
  | same =>
    rw [written]
    split
    next => exact ⟨_, rfl⟩
    next => exact ⟨_, rfl⟩
  | chop count => exact ⟨_, rfl⟩
  | oneItem item =>
    obtain ⟨bytes, wrote⟩ := item.exists_written small
    rw [written, wrote]
    simp only [bind, Except.bind]
    split
    next => exact ⟨_, rfl⟩
    next => exact ⟨_, rfl⟩
  | append locals =>
    obtain ⟨parts, wrote⟩ := all locals small
    exact ⟨_, (Outcome.bind_eq_ok ..).2 ⟨_, (Outcome.bind_eq_ok ..).2 ⟨parts, wrote, rfl⟩, rfl⟩⟩
  | full locals stack =>
    rw [offsets, List.forall_mem_append] at small
    obtain ⟨first, wroteLocals⟩ := table "frame locals" locals readable.1 small.1
    obtain ⟨second, wroteStack⟩ := table "frame stack items" stack readable.2 small.2
    exact ⟨_, (Outcome.bind_eq_ok ..).2 ⟨first, wroteLocals,
      (Outcome.bind_eq_ok ..).2 ⟨second, wroteStack, rfl⟩⟩⟩

end FrameChange

/-- The offset of a frame and those in its change. -/
def Frame.offsets (frame : Frame) : List Nat := frame.offset :: frame.change.offsets

/-- The offsets of a moved frame are those that the offsets of the frame have been moved to. -/
theorem Frame.Moved.exists_origin {relocation : Relocation} {old new : Frame}
    (moved : Moved relocation old new) :
    ∀ offset ∈ new.offsets, ∃ origin ∈ old.offsets, relocation origin = .ok offset := by
  refine List.forall_mem_cons.2 ⟨⟨old.offset, List.mem_cons_self, moved.offset⟩, ?_⟩
  intro offset inside
  obtain ⟨origin, occurs, reached⟩ := moved.change.exists_origin offset inside
  exact ⟨origin, List.mem_cons_of_mem _ occurs, reached⟩

namespace StackMap

/-- All offsets that occur in a stack map. -/
def offsets (map : StackMap) : List Nat := map.frames.flatMap Frame.offsets

/-- A table of frames can be moved if every place in it can, those of its frames included.
-/
theorem relocate_succeeds_iff (relocation : Relocation) (map : StackMap) :
    (∃ moved, map.relocate relocation = .ok moved) ↔
      ∀ frame ∈ map.frames, ∀ offset ∈ frame.offsets, ∃ target,
        relocation offset = .ok target := by
  have one (frame : Frame) : (∃ moved, relocateFrame relocation frame = .ok moved) ↔
      ∀ offset ∈ frame.offsets, ∃ target, relocation offset = .ok target := by
    rw [Frame.offsets, List.forall_mem_cons, ← FrameChange.relocate_succeeds_iff]
    constructor
    · rintro ⟨moved, ran⟩
      obtain ⟨target, reached, ran⟩ := (Outcome.bind_eq_ok ..).1 ran
      obtain ⟨change, changed, -⟩ := (Outcome.bind_eq_ok ..).1 ran
      exact ⟨⟨target, reached⟩, change, changed⟩
    · rintro ⟨⟨target, reached⟩, change, changed⟩
      exact ⟨_, (Outcome.bind_eq_ok ..).2 ⟨target, reached,
        (Outcome.bind_eq_ok ..).2 ⟨change, changed, rfl⟩⟩⟩
  simp only [← one]
  constructor
  · rintro ⟨moved, ran⟩
    obtain ⟨frames, each, -⟩ := (Outcome.bind_eq_ok ..).1 ran
    exact Outcome.exists_of_mapM _ _ _ each
  · intro each
    obtain ⟨frames, moved⟩ := Outcome.exists_mapM_eq_ok _ _ each
    exact ⟨_, (Outcome.bind_eq_ok ..).2 ⟨frames, moved, rfl⟩⟩

/-- Frames in order are written behind one another. -/
theorem exists_writtenFrames (previous : Option Nat) (frames : List Frame)
    (behind : ∀ before, previous = some before → ∀ frame ∈ frames, before < frame.offset)
    (ascending : frames.Pairwise fun earlier later => earlier.offset < later.offset)
    (readable : ∀ frame ∈ frames, frame.change.Readable)
    (small : ∀ frame ∈ frames, ∀ offset ∈ frame.offsets, offset < 65536) :
    ∃ parts, ((previous :: frames.map fun frame => some frame.offset).zip frames).mapM
      (fun (previous, frame) => writtenFrame previous frame) = .ok parts := by
  induction frames generalizing previous with
  | nil => exact ⟨[], rfl⟩
  | cons frame others inductionHypothesis =>
    obtain ⟨here, later⟩ := List.pairwise_cons.1 ascending
    obtain ⟨first, rest⟩ := List.forall_mem_cons.1 small
    obtain ⟨bound, smallChange⟩ := List.forall_mem_cons.1 first
    obtain ⟨readableFirst, readableRest⟩ := List.forall_mem_cons.1 readable
    have measured : ∃ distance, distanceFrom previous frame.offset = .ok distance ∧
        distance < 65536 := by
      cases previous with
      | none => exact ⟨frame.offset, rfl, bound⟩
      | some before =>
        have less := behind before rfl frame List.mem_cons_self
        exact ⟨frame.offset - (before + 1), if_neg (by omega), by omega⟩
    obtain ⟨distance, measured, near⟩ := measured
    obtain ⟨bytes, wrote⟩ := frame.change.exists_written distance readableFirst smallChange
    have wroteFrame : writtenFrame previous frame = .ok bytes := by
      refine (Outcome.bind_eq_ok ..).2 ⟨distance, measured, ?_⟩
      rw [if_neg (by omega)]
      exact wrote
    obtain ⟨parts, wroteOthers⟩ := inductionHypothesis (some frame.offset)
      (fun before same other member => by
        obtain rfl := Option.some.inj same
        exact here other member) later readableRest rest
    rw [List.map_cons, List.zip_cons_cons, List.mapM_cons]
    exact ⟨_, (Outcome.bind_eq_ok ..).2 ⟨bytes, wroteFrame,
      (Outcome.bind_eq_ok ..).2 ⟨parts, wroteOthers, rfl⟩⟩⟩

/-- Moved frames are in order and can be written if the order of the offsets that occur in
the stack map is kept. -/
theorem exists_written_of_keepsOrderOf (relocation : Relocation) (contents : List UInt8)
    (map moved : StackMap) (parsed : parse contents = .ok map)
    (keeps : relocation.KeepsOrderOf map.offsets) (ran : map.relocate relocation = .ok moved) :
    moved.frames.Pairwise (fun earlier later => earlier.offset < later.offset) ∧
      ∃ rewritten, moved.written = .ok rewritten := by
  obtain ⟨read, count⟩ := areRead_of_parse contents map parsed
  have each := moved_of_relocate relocation map moved ran
  have occurs (frame : Frame) (member : frame ∈ map.frames) :
      ∀ offset ∈ frame.offsets, offset ∈ map.offsets := fun offset inside =>
    List.mem_flatMap.2 ⟨frame, member, inside⟩
  have ascending : moved.frames.Pairwise fun earlier later => earlier.offset < later.offset := by
    have inside : List.Forall₂ (fun old new => old ∈ map.frames ∧ Frame.Moved relocation old new)
        map.frames moved.frames :=
      (List.forall₂_and_left ..).2 ⟨fun frame member => member, each⟩
    refine Outcome.pairwise_of_forall₂ ?_ inside (List.pairwise_reverse.1 read.ascending)
    rintro first second newFirst newSecond ⟨firstMember, firstMoved⟩ ⟨secondMember, secondMoved⟩
      before
    exact keeps.increasing _ (occurs first firstMember _ List.mem_cons_self) _
      (occurs second secondMember _ List.mem_cons_self) _ _ firstMoved.offset secondMoved.offset
      before
  have readable : ∀ frame ∈ moved.frames, frame.change.Readable := by
    intro frame member
    obtain ⟨old, present, moves⟩ := Outcome.exists_of_forall₂ each frame member
    exact moves.change.readable (read.changes old (List.mem_reverse.2 present))
  have small : ∀ frame ∈ moved.frames, ∀ offset ∈ frame.offsets, offset < 65536 := by
    intro frame member offset inside
    obtain ⟨old, present, moves⟩ := Outcome.exists_of_forall₂ each frame member
    obtain ⟨origin, old_offset, reached⟩ := moves.exists_origin offset inside
    exact keeps.bounded origin (occurs old present origin old_offset) offset reached
  refine ⟨ascending, ?_⟩
  obtain ⟨parts, wrote⟩ := exists_writtenFrames none moved.frames (fun _ none => nomatch none)
    ascending readable small
  rw [each.length_eq] at count
  exact ⟨_, (Outcome.bind_eq_ok ..).2 ⟨_, if_pos count,
    (Outcome.bind_eq_ok ..).2 ⟨parts, wrote, rfl⟩⟩⟩

section Order

variable {relocation : Relocation} {Stands : Nat → Prop} (keeps : relocation.KeepsOrder Stands)

include keeps

/-- Moved frames are in order and can be written. -/
theorem exists_written_moved (contents : List UInt8) (map moved : StackMap)
    (parsed : parse contents = .ok map) (ran : map.relocate relocation = .ok moved) :
    moved.frames.Pairwise (fun earlier later => earlier.offset < later.offset) ∧
      ∃ rewritten, moved.written = .ok rewritten := by
  have reached := (relocate_succeeds_iff relocation map).1 ⟨moved, ran⟩
  exact exists_written_of_keepsOrderOf relocation contents map moved parsed
    { reached := List.forall_mem_flatMap.2 reached
      bounded := fun offset _ => keeps.bounded offset
      increasing := fun first _ second _ => keeps.increasing first second } ran

/-- A stack map is moved and written again if it can be read and all its offsets can be
moved. -/
theorem rewrites_iff (contents : List UInt8) :
    (∃ map moved rewritten, parse contents = .ok map ∧ map.relocate relocation = .ok moved ∧
        moved.written = .ok rewritten) ↔
      ∃ map, parse contents = .ok map ∧
        ∀ frame ∈ map.frames, ∀ offset ∈ frame.offsets, Stands offset := by
  simp only [← keeps.reached, ← relocate_succeeds_iff]
  constructor
  · rintro ⟨map, moved, rewritten, parsed, ran, -⟩
    exact ⟨map, parsed, moved, ran⟩
  · rintro ⟨map, parsed, moved, ran⟩
    obtain ⟨-, rewritten, wrote⟩ := exists_written_moved keeps contents map moved parsed ran
    exact ⟨map, moved, rewritten, parsed, ran, wrote⟩

end Order

end StackMap

end NullGuard
