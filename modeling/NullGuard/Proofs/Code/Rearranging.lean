import NullGuard.Proofs.Code.Acceptance
import NullGuard.Proofs.Code.FrameOrder
import NullGuard.Proofs.Code.Metadata

/-!
# When a body can be rearranged

What can keep a body from getting the code of a stream is the stream itself, if it
cannot be encoded, and metadata that does not fit the code: a table that cannot be
read, or an offset at which no instruction stands (`rearranged_iff_wellPlaced`). The
layout keeps the order of offsets and stays within two bytes, so no arithmetic on
moved offsets goes wrong.
-/

namespace NullGuard

namespace Stream

/-- Whether an offset is where an instruction of some code begins or the code ends. -/
def IsBoundary (code : List UInt8) (offset : Nat) : Prop :=
  ∃ founds, Cut 0 code founds ∧ offset ∈ boundaries code founds

/-- The offsets with a label are the boundaries of the code. -/
theorem exists_label_iff {code : List UInt8} {stream : Stream} (decoded : decode code = .ok stream)
    (offset : Nat) : (∃ label, stream.labelAt offset = .ok label) ↔ IsBoundary code offset := by
  obtain ⟨founds, cut, isStream⟩ := isStreamOf_of_decode code stream decoded
  simp only [isStream.labelAt, ← List.mem_iff_getElem?]
  constructor
  · intro member
    exact ⟨founds, cut, member⟩
  · rintro ⟨others, another, member⟩
    rw [← cut_eq_ok] at cut another
    obtain rfl := Except.ok.inj (cut.symm.trans another)
    exact member

/-- The layout of an edited stream moves the boundaries of the code in order. -/
theorem keepsOrder_relocationOf {code : List UInt8} {original stream : Stream} {encoded : Encoded}
    (decoded : decode code = .ok original) (extended : stream.Extends original)
    (encodes : stream.Encodes encoded) :
    (Body.relocationOf stream encoded).KeepsOrder (IsBoundary code) := by
  obtain ⟨lengths, isDecoded, -⟩ := isDecoded_of_decode code original decoded
  have moves (offset target : Nat) : Body.relocationOf stream encoded offset = .ok target ↔
      ∃ label, original.labelAt offset = .ok label ∧
        target = stream.offsetAt (stream.landing label) := by
    simp only [relocationOf_eq_ok isDecoded extended encodes, labelAt_flattened,
      stream.landing_le, true_and]
  refine
    { reached := ?_
      bounded := ?_
      increasing := ?_ }
  · intro offset
    rw [← exists_label_iff decoded]
    simp only [moves]
    constructor
    · rintro ⟨target, label, here, -⟩
      exact ⟨label, here⟩
    · rintro ⟨label, here⟩
      exact ⟨_, label, here, rfl⟩
  · intro offset target moved
    obtain ⟨label, -, rfl⟩ := (moves ..).1 moved
    have bound := encodes.bounded
    have inside := stream.offsetAt_le (stream.landing label)
    rw [maxLength] at bound
    omega
  · intro first second newFirst newSecond firstMoved secondMoved before
    obtain ⟨firstLabel, here, rfl⟩ := (moves ..).1 firstMoved
    obtain ⟨secondLabel, there, rfl⟩ := (moves ..).1 secondMoved
    have ordered := isDecoded.offset_le_iff _ _ _ _ there here
    have inside := ((isDecoded.labelAt_eq_ok ..).1 there).1
    rw [← extended.count_eq] at inside
    apply stream.offsetAt_lt _ _ _ (stream.landing_le secondLabel)
    exact stream.landing_lt firstLabel secondLabel (by omega) inside

end Stream

/-! ## Metadata that fits the code -/

/-- Whether contents can be read as a table all of whose offsets are certain places; of
a range both ends count. -/
def Body.CodeTable.WellPlaced (Stands : Nat → Prop) (contents : List UInt8) : CodeTable → Prop
  | .lineNumbers =>
    ∃ rows, LineRow.parse contents = .ok rows ∧ ∀ row ∈ rows, Stands row.start.toNat
  | .localVariables =>
    ∃ rows, VariableRow.parse contents = .ok rows ∧ ∀ row ∈ rows,
      Stands row.start.toNat ∧ Stands (row.start.toNat + row.length.toNat)
  | .stackMap =>
    ∃ map, StackMap.parse contents = .ok map ∧
      ∀ frame ∈ map.frames, ∀ offset ∈ frame.offsets, Stands offset
  | .typeAnnotations =>
    ∃ rows, AnnotatedType.parse contents = .ok rows ∧ ∀ row ∈ rows,
      ∀ offset ∈ row.target.offsets, Stands offset

/-- Whether an attribute of a body that holds offsets is a table all of whose offsets are
certain places. -/
structure Attribute.WellPlaced (Stands : Nat → Prop) (pool : Pool) (entry : Attribute) : Prop where
  lineNumbers : pool.utf8Is entry.name "LineNumberTable" = true →
    Body.CodeTable.lineNumbers.WellPlaced Stands entry.contents
  localVariables : (pool.utf8Is entry.name "LocalVariableTable" = true ∨
      pool.utf8Is entry.name "LocalVariableTypeTable" = true) →
    Body.CodeTable.localVariables.WellPlaced Stands entry.contents
  stackMap : pool.utf8Is entry.name "StackMapTable" = true →
    Body.CodeTable.stackMap.WellPlaced Stands entry.contents
  typeAnnotations : (pool.utf8Is entry.name "RuntimeVisibleTypeAnnotations" = true ∨
      pool.utf8Is entry.name "RuntimeInvisibleTypeAnnotations" = true) →
    Body.CodeTable.typeAnnotations.WellPlaced Stands entry.contents

/-- Whether a handler and the ends of its stretch of code are certain places. -/
structure HandlerRow.WellPlaced (Stands : Nat → Prop) (row : HandlerRow) : Prop where
  start : Stands row.start.toNat
  stop : Stands row.stop.toNat
  handler : Stands row.handler.toNat

section Moving

variable {relocation : Relocation} {Stands : Nat → Prop} (keeps : relocation.KeepsOrder Stands)

include keeps

/-- A row of handlers can be moved exactly if it points to places that stand. -/
theorem HandlerRow.relocate_succeeds_iff (row : HandlerRow) :
    (∃ moved, row.relocate relocation = .ok moved) ↔ row.WellPlaced Stands := by
  constructor
  · rintro ⟨moved, ran⟩
    have moves := moved_of_relocate relocation row moved ran
    exact
      { start := (keeps.reached _).1 ⟨_, moves.start⟩
        stop := (keeps.reached _).1 ⟨_, moves.stop⟩
        handler := (keeps.reached _).1 ⟨_, moves.handler⟩ }
  · intro placed
    obtain ⟨start, startMoved⟩ := (keeps.exists_word _).2 placed.start
    obtain ⟨stop, stopMoved⟩ := (keeps.exists_word _).2 placed.stop
    obtain ⟨handler, handlerMoved⟩ := (keeps.exists_word _).2 placed.handler
    rw [← Relocation.move_eq_ok] at startMoved stopMoved handlerMoved
    exact ⟨_, (Outcome.bind_eq_ok ..).2 ⟨start, startMoved,
      (Outcome.bind_eq_ok ..).2 ⟨stop, stopMoved,
        (Outcome.bind_eq_ok ..).2 ⟨handler, handlerMoved, rfl⟩⟩⟩⟩

namespace Body

/-- The contents of a table can be moved exactly if they point to places that stand. -/
theorem relocateContents_succeeds_iff (contents : List UInt8) (table : CodeTable) :
    (∃ rewritten, relocateContents relocation contents table = .ok rewritten) ↔
      table.WellPlaced Stands contents := by
  cases table with
  | lineNumbers =>
    simp only [relocateContents, Outcome.during_eq_ok]
    exact LineRow.relocate_succeeds_iff keeps contents
  | localVariables =>
    simp only [relocateContents, Outcome.during_eq_ok]
    exact VariableRow.relocate_succeeds_iff keeps contents
  | stackMap =>
    rw [CodeTable.WellPlaced, ← StackMap.rewrites_iff keeps]
    simp only [relocateContents, Outcome.bind_eq_ok, Outcome.during_eq_ok]
    constructor
    · rintro ⟨rewritten, map, parsed, moved, ran, wrote⟩
      exact ⟨map, moved, rewritten, parsed, ran, wrote⟩
    · rintro ⟨map, moved, rewritten, parsed, ran, wrote⟩
      exact ⟨rewritten, map, parsed, moved, ran, wrote⟩
  | typeAnnotations =>
    simp only [relocateContents, Outcome.during_eq_ok]
    exact AnnotatedType.relocate_succeeds_iff keeps contents

omit keeps in
/-- An attribute that holds a table has one of the names of that table. -/
theorem exists_of_tableOf (pool : Pool) (entry : Attribute) (table : CodeTable)
    (found : tableOf pool entry = some table) :
    ∃ name, (name, table) ∈ tableNames ∧ pool.utf8Is entry.name name = true := by
  obtain ⟨known, here, rfl⟩ := Option.map_eq_some_iff.1 found
  obtain ⟨⟨name, table⟩, member, rfl⟩ := List.mem_map.1 (List.mem_of_find?_eq_some here)
  have named := List.find?_some here
  exact ⟨name, member, named⟩

/-- An attribute can be moved exactly if what it holds is well placed. -/
theorem relocateAttribute_succeeds_iff (pool : Pool) (entry : Attribute) :
    (∃ moved, relocateAttribute relocation pool entry = .ok moved) ↔
      entry.WellPlaced Stands pool := by
  constructor
  · rintro ⟨moved, ran⟩
    have known (name : String) (table : CodeTable) (member : (name, table) ∈ tableNames)
        (named : pool.utf8Is entry.name name = true) : table.WellPlaced Stands entry.contents := by
      rw [relocateAttribute, tableOf_eq_some pool entry name table member named] at ran
      obtain ⟨contents, rewritten, -⟩ := (Outcome.bind_eq_ok ..).1 ran
      exact (relocateContents_succeeds_iff keeps ..).1 ⟨contents, rewritten⟩
    refine
      { lineNumbers := known _ _ (by decide)
        localVariables := ?_
        stackMap := known _ _ (by decide)
        typeAnnotations := ?_ }
    · rintro (named | named)
      · exact known _ _ (by decide) named
      · exact known _ _ (by decide) named
    · rintro (named | named)
      · exact known _ _ (by decide) named
      · exact known _ _ (by decide) named
  · intro placed
    rw [relocateAttribute]
    cases found : tableOf pool entry with
    | none => exact ⟨entry, rfl⟩
    | some table =>
      obtain ⟨name, member, named⟩ := exists_of_tableOf pool entry table found
      have fits : table.WellPlaced Stands entry.contents := by
        simp only [tableNames, List.mem_cons, Prod.mk.injEq, List.not_mem_nil, or_false] at member
        obtain ⟨rfl, rfl⟩ | ⟨rfl, rfl⟩ | ⟨rfl, rfl⟩ | ⟨rfl, rfl⟩ | ⟨rfl, rfl⟩ | ⟨rfl, rfl⟩ := member
        · exact placed.lineNumbers named
        · exact placed.localVariables (.inl named)
        · exact placed.localVariables (.inr named)
        · exact placed.stackMap named
        · exact placed.typeAnnotations (.inl named)
        · exact placed.typeAnnotations (.inr named)
      obtain ⟨contents, rewritten⟩ := (relocateContents_succeeds_iff keeps ..).2 fits
      exact ⟨_, (Outcome.bind_eq_ok ..).2 ⟨contents, rewritten, rfl⟩⟩

end Body

end Moving

/-- Offsets of frames stay below what four bytes can hold while a stack map is read. -/
theorem StackMap.offset_lt_of_readFrames (count : UInt16) (input rest : List UInt8)
    (frames : List Frame) (ran : readFrames count.toNat [] input = .ok (frames, rest)) :
    ∀ frame ∈ frames, frame.offset < 4294967296 := by
  obtain ⟨front, -, taken⟩ := (Reader.run_eq_ok ..).1 ran
  obtain ⟨read, counted⟩ := areRead_of_takes_frames _ _ _ _ taken areRead_nil
  intro frame member
  have below := read.bounded frame (List.mem_reverse.2 member)
  have bound := count.toNat_lt
  rw [List.length_reverse, counted, List.length_nil] at below
  omega

namespace Body

/-- Rearranging a body succeeds if its stream is encoded and its metadata fits the code. -/
theorem rearranged_succeeds_iff (body : Body) (stream : Stream) (pool : Pool)
    (extraStack : UInt16) (Stands : Nat → Prop)
    (keeps : ∀ encoded, stream.encode = .ok encoded →
      (relocationOf stream encoded).KeepsOrder Stands) :
    (∃ moved, body.rearranged stream pool extraStack = .ok moved) ↔
      (∃ encoded, stream.encode = .ok encoded) ∧
        (∀ row ∈ body.handlers, row.WellPlaced Stands) ∧
        ∀ entry ∈ body.attributes, entry.WellPlaced Stands pool := by
  constructor
  · rintro ⟨moved, ran⟩
    obtain ⟨encoded, ranEncode, ran⟩ := (Outcome.bind_eq_ok ..).1 ran
    obtain ⟨handlers, ranHandlers, ran⟩ := (Outcome.bind_eq_ok ..).1 ran
    obtain ⟨attributes, ranAttributes, -⟩ := (Outcome.bind_eq_ok ..).1 ran
    refine ⟨⟨encoded, ranEncode⟩, ?_, ?_⟩
    · intro row member
      exact (HandlerRow.relocate_succeeds_iff (keeps encoded ranEncode) row).1
        (Outcome.exists_of_mapM _ _ _ ranHandlers row member)
    · intro entry member
      exact (relocateAttribute_succeeds_iff (keeps encoded ranEncode) pool entry).1
        (Outcome.exists_of_mapM _ _ _ ranAttributes entry member)
  · rintro ⟨⟨encoded, ranEncode⟩, placedHandlers, placedAttributes⟩
    obtain ⟨handlers, ranHandlers⟩ := Outcome.exists_mapM_eq_ok
      (HandlerRow.relocate (relocationOf stream encoded)) body.handlers fun row member =>
        (HandlerRow.relocate_succeeds_iff (keeps encoded ranEncode) row).2
          (placedHandlers row member)
    obtain ⟨attributes, ranAttributes⟩ := Outcome.exists_mapM_eq_ok
      (relocateAttribute (relocationOf stream encoded) pool) body.attributes fun entry member =>
        (relocateAttribute_succeeds_iff (keeps encoded ranEncode) pool entry).2
          (placedAttributes entry member)
    exact ⟨_, (Outcome.bind_eq_ok ..).2 ⟨encoded, ranEncode,
      (Outcome.bind_eq_ok ..).2 ⟨handlers, ranHandlers,
        (Outcome.bind_eq_ok ..).2 ⟨attributes, ranAttributes, rfl⟩⟩⟩⟩

/-- A body fails to be rearranged for nothing but bad metadata. Whatever groups of
independent instructions are put into its code, it is rearranged exactly if the stream
can be encoded and every table of offsets that the body has can be read and has only
starts of instructions and the end of the code as its offsets. No moved offset is too
large for its table, the end of a range is never moved in front of its start, moved
frames are in order, and the offsets reckoned with while frames are read stay small. -/
theorem rearranged_iff_wellPlaced (body : Body) (original : Stream)
    (decoded : Stream.decode body.code = .ok original) (edits : List Edit)
    (fit : ∀ edit ∈ edits, edit.FitsInto original) (pool : Pool) (extraStack : UInt16) :
    ∃ stream, Edit.applyAll edits original = .ok stream ∧
      ((∃ moved, body.rearranged stream pool extraStack = .ok moved) ↔
        (∃ encoded, stream.encode = .ok encoded) ∧
          (∀ row ∈ body.handlers, row.WellPlaced (Stream.IsBoundary body.code)) ∧
          ∀ entry ∈ body.attributes, entry.WellPlaced (Stream.IsBoundary body.code) pool) ∧
      (∀ encoded, stream.encode = .ok encoded →
        (∀ offset target, relocationOf stream encoded offset = .ok target → target ≤ 65535) ∧
        (∀ start stop newStart newStop, relocationOf stream encoded start = .ok newStart →
          relocationOf stream encoded stop = .ok newStop → start ≤ stop → newStart ≤ newStop) ∧
        ∀ contents map moved, StackMap.parse contents = .ok map →
          map.relocate (relocationOf stream encoded) = .ok moved →
          moved.frames.Pairwise (fun earlier later => earlier.offset < later.offset) ∧
            ∃ rewritten, moved.written = .ok rewritten) ∧
      ∀ (count : UInt16) (input rest : List UInt8) (frames : List Frame),
        StackMap.readFrames count.toNat [] input = .ok (frames, rest) →
          ∀ frame ∈ frames, frame.offset < 4294967296 := by
  obtain ⟨lengths, isDecoded, -⟩ := Stream.isDecoded_of_decode body.code original decoded
  have extended := Stream.extends_edited edits original fit isDecoded
  have keeps (encoded : Encoded) (ran : (original.edited edits).encode = .ok encoded) :=
    Stream.keepsOrder_relocationOf decoded extended ((Stream.encode_eq_ok ..).1 ran)
  refine ⟨_, Stream.applyAll_eq edits original fit,
    body.rearranged_succeeds_iff _ pool extraStack _ keeps, ?_, StackMap.offset_lt_of_readFrames⟩
  intro encoded ran
  refine ⟨?_, (keeps encoded ran).le, fun contents map moved =>
    StackMap.exists_written_moved (keeps encoded ran) contents map moved⟩
  intro offset target moved
  have bound := (keeps encoded ran).bounded offset target moved
  omega

/-- The body of the loop is well placed, and it can be rearranged. -/
theorem rearranged_iff_wellPlaced_switchLoop :
    ∃ stream encoded moved,
      Edit.applyAll Stream.switchLoopEdits Stream.switchLoop = .ok stream ∧
      stream.encode = .ok encoded ∧ switchLoopBody.rearranged stream switchLoopPool 2 = .ok moved ∧
      (∀ row ∈ switchLoopBody.handlers, row.WellPlaced (Stream.IsBoundary Stream.switchLoopCode)) ∧
      ∀ entry ∈ switchLoopBody.attributes,
        entry.WellPlaced (Stream.IsBoundary Stream.switchLoopCode) switchLoopPool := by
  obtain ⟨stream, applied, exactly, -, -⟩ := rearranged_iff_wellPlaced switchLoopBody
    Stream.switchLoop (by decide +kernel) Stream.switchLoopEdits (by decide +kernel)
    switchLoopPool 2
  have movable : (Edit.applyAll Stream.switchLoopEdits Stream.switchLoop >>= fun stream =>
      switchLoopBody.rearranged stream switchLoopPool 2).isOk = true := by
    decide +kernel
  rw [applied] at movable
  cases ran : switchLoopBody.rearranged stream switchLoopPool 2 with
  | error failure =>
    simp only [bind, Except.bind, ran] at movable
    cases movable
  | ok moved =>
    obtain ⟨⟨encoded, ranEncode⟩, handlers, attributes⟩ := exactly.1 ⟨moved, ran⟩
    exact ⟨stream, encoded, moved, applied, ranEncode, ran, handlers, attributes⟩

end Body

end NullGuard
