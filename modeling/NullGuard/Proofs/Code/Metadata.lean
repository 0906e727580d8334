import NullGuard.Proofs.Annotations.InCode
import NullGuard.Proofs.Code.Edits
import NullGuard.Proofs.Code.StackMap

/-!
# Metadata moves with the code

A method body is rearranged by one relocation: an offset goes to where the
encoder has put the label of the instruction that stood there. What a table of
the body holds afterwards is what it held before with exactly its offsets
replaced, for each of the ways in which tables write offsets down, and a range
covers an instruction with all groups around it if and only if it covered that
instruction.
-/

namespace NullGuard

/-- The three offsets of a handler move and the class that it catches stays. -/
structure HandlerRow.Moved (relocation : Relocation) (old new : HandlerRow) : Prop where
  start : relocation old.start.toNat = .ok new.start.toNat
  stop : relocation old.stop.toNat = .ok new.stop.toNat
  handler : relocation old.handler.toNat = .ok new.handler.toNat
  caught : new.caught = old.caught

/-- What a row of handlers is moved to protects the code that has moved. -/
theorem HandlerRow.moved_of_relocate (relocation : Relocation) (old new : HandlerRow)
    (ran : old.relocate relocation = .ok new) : Moved relocation old new := by
  obtain ⟨start, startMoved, ran⟩ := (Outcome.bind_eq_ok ..).1 ran
  obtain ⟨stop, stopMoved, ran⟩ := (Outcome.bind_eq_ok ..).1 ran
  obtain ⟨handler, handlerMoved, returned⟩ := (Outcome.bind_eq_ok ..).1 ran
  obtain rfl := Except.ok.inj returned
  simp only [Relocation.move_eq_ok] at startMoved stopMoved handlerMoved
  exact ⟨startMoved, stopMoved, handlerMoved, rfl⟩

namespace Body

/-! ## The attributes that hold offsets -/

/-- A slot of the pool holds one text only. -/
theorem holds_unique (pool : Pool) (first second : List UInt8) (index : UInt16)
    (one : pool.holds first index = true) (other : pool.holds second index = true) :
    first = second := by
  rw [Pool.holds] at one other
  split at one
  next held here =>
    rw [here] at other
    simp only [beq_iff_eq] at one other
    exact one.symm.trans other
  next => cases one

/-- An attribute of a known name holds the table of that name. -/
theorem tableOf_eq_some (pool : Pool) (entry : Attribute) (name : String) (table : CodeTable)
    (known : (name, table) ∈ tableNames) (named : pool.utf8Is entry.name name = true) :
    tableOf pool entry = some table := by
  have present : (Text.ModifiedUtf8.encode name, table) ∈ tableBytes :=
    List.mem_map.2 ⟨(name, table), known, rfl⟩
  have distinct : ∀ one ∈ tableBytes, ∀ other ∈ tableBytes, one.1 = other.1 → one.2 = other.2 := by
    decide +kernel
  rw [tableOf]
  cases found : tableBytes.find? fun known => pool.holds known.1 entry.name with
  | none => exact absurd named (List.find?_eq_none.1 found _ present)
  | some other =>
    have held := List.find?_some found
    have same := distinct other (List.mem_of_find?_eq_some found) _ present
      (holds_unique pool _ _ _ held named)
    rw [Option.map_some, same]

/-- An attribute without a known name is no table of the code. -/
theorem tableOf_eq_none (pool : Pool) (entry : Attribute)
    (unnamed : ∀ known ∈ tableNames, pool.utf8Is entry.name known.1 = false) :
    tableOf pool entry = none := by
  rw [tableOf, Option.map_eq_none_iff, List.find?_eq_none, tableBytes]
  simp only [List.forall_mem_map]
  intro known member
  rw [← Pool.utf8Is, unnamed known member]
  decide

end Body

/-- What becomes of an attribute of a body: each table has its offsets moved and
everything else stays as it is. -/
structure Attribute.Moved (relocation : Relocation) (pool : Pool) (old new : Attribute) : Prop where
  name : new.name = old.name
  lineNumbers : pool.utf8Is old.name "LineNumberTable" = true →
    ∃ olds news, LineRow.parse old.contents = .ok olds ∧ LineRow.parse new.contents = .ok news ∧
      List.Forall₂ (LineRow.Moved relocation) olds news
  localVariables : (pool.utf8Is old.name "LocalVariableTable" = true ∨
      pool.utf8Is old.name "LocalVariableTypeTable" = true) →
    ∃ olds news, VariableRow.parse old.contents = .ok olds ∧
      VariableRow.parse new.contents = .ok news ∧
      List.Forall₂ (VariableRow.Moved relocation) olds news
  stackMap : pool.utf8Is old.name "StackMapTable" = true →
    ∃ map moved, StackMap.parse old.contents = .ok map ∧ StackMap.parse new.contents = .ok moved ∧
      List.Forall₂ (Frame.Moved relocation) map.frames moved.frames
  typeAnnotations : (pool.utf8Is old.name "RuntimeVisibleTypeAnnotations" = true ∨
      pool.utf8Is old.name "RuntimeInvisibleTypeAnnotations" = true) →
    ∃ olds news, AnnotatedType.parse old.contents = .ok olds ∧
      AnnotatedType.parse new.contents = .ok news ∧
      List.Forall₂ (AnnotatedType.Moved relocation) olds news
  other : (∀ known ∈ Body.tableNames, pool.utf8Is old.name known.1 = false) →
    new.contents = old.contents

namespace Body

/-- Relocating an attribute moves what it holds. -/
theorem moved_of_relocateAttribute (relocation : Relocation) (pool : Pool) (old new : Attribute)
    (ran : relocateAttribute relocation pool old = .ok new) : old.Moved relocation pool new := by
  have known (name : String) (table : CodeTable) (member : (name, table) ∈ tableNames)
      (named : pool.utf8Is old.name name = true) :
      relocateContents relocation old.contents table = .ok new.contents := by
    rw [relocateAttribute, tableOf_eq_some pool old name table member named] at ran
    obtain ⟨contents, moved, returned⟩ := (Outcome.bind_eq_ok ..).1 ran
    obtain rfl := Except.ok.inj returned
    exact moved
  have locals (moved : relocateContents relocation old.contents .localVariables =
      .ok new.contents) := VariableRow.relocate_moves relocation old.contents new.contents
        ((Outcome.during_eq_ok ..).1 moved)
  have annotations (moved : relocateContents relocation old.contents .typeAnnotations =
      .ok new.contents) := AnnotatedType.relocate_moves relocation old.contents new.contents
        ((Outcome.during_eq_ok ..).1 moved)
  refine
    { name := ?_
      lineNumbers := ?_
      localVariables := ?_
      stackMap := ?_
      typeAnnotations := ?_
      other := ?_ }
  · rw [relocateAttribute] at ran
    split at ran
    next => rw [Except.ok.inj ran]
    next =>
      obtain ⟨contents, -, returned⟩ := (Outcome.bind_eq_ok ..).1 ran
      rw [← Except.ok.inj returned]
  · intro named
    have moved := known _ .lineNumbers (by decide) named
    exact LineRow.relocate_moves _ _ _ ((Outcome.during_eq_ok ..).1 moved)
  · rintro (named | named)
    · exact locals (known _ _ (by decide) named)
    · exact locals (known _ _ (by decide) named)
  · intro named
    have moved := known _ .stackMap (by decide) named
    obtain ⟨map, parsed, moved⟩ := (Outcome.bind_eq_ok ..).1 moved
    rw [Outcome.during_eq_ok] at parsed
    obtain ⟨relocated, ran, wrote⟩ := (Outcome.bind_eq_ok ..).1 moved
    obtain ⟨parsedAgain, each⟩ := StackMap.relocate_moves _ _ _ _ _ parsed ran wrote
    exact ⟨map, relocated, parsed, parsedAgain, each⟩
  · rintro (named | named)
    · exact annotations (known _ _ (by decide) named)
    · exact annotations (known _ _ (by decide) named)
  · intro unnamed
    rw [relocateAttribute, tableOf_eq_none pool old unnamed] at ran
    rw [Except.ok.inj ran]

/-- Rearranging a body takes its code from the encoder and moves the rest. -/
theorem moved_of_rearranged (body moved : Body) (stream : Stream) (pool : Pool)
    (extraStack : UInt16) (ran : body.rearranged stream pool extraStack = .ok moved) :
    ∃ encoded, stream.encode = .ok encoded ∧ moved.code = encoded.code ∧
      moved.maxStack = raisedStack body.maxStack extraStack ∧ moved.maxLocals = body.maxLocals ∧
      List.Forall₂ (HandlerRow.Moved (relocationOf stream encoded)) body.handlers moved.handlers ∧
      List.Forall₂ (fun old new => Attribute.Moved (relocationOf stream encoded) pool old new)
        body.attributes moved.attributes := by
  obtain ⟨encoded, ranEncode, ran⟩ := (Outcome.bind_eq_ok ..).1 ran
  obtain ⟨handlers, ranHandlers, ran⟩ := (Outcome.bind_eq_ok ..).1 ran
  obtain ⟨attributes, ranAttributes, returned⟩ := (Outcome.bind_eq_ok ..).1 ran
  obtain rfl := Except.ok.inj returned
  refine ⟨encoded, ranEncode, rfl, rfl, rfl, ?_, ?_⟩
  · exact ((Outcome.mapM_eq_ok ..).1 ranHandlers).imp fun old new ran =>
      HandlerRow.moved_of_relocate _ old new ran
  · exact ((Outcome.mapM_eq_ok ..).1 ranAttributes).imp fun old new ran =>
      moved_of_relocateAttribute _ pool old new ran

/-- All metadata moves with the code. Whatever groups of independent instructions
are put into the code of a body, each offset in its exception table and in its
attributes goes to where the encoder has put the label that stood at the offset;
nothing else in them changes. A moved range covers the whole block of an
instruction exactly if the range covered the instruction. -/
theorem rearranged_edited (body : Body) (original : Stream)
    (decoded : Stream.decode body.code = .ok original) (edits : List Edit)
    (fit : ∀ edit ∈ edits, edit.FitsInto original) (stream : Stream)
    (edited : Edit.applyAll edits original = .ok stream) (pool : Pool) (extraStack : UInt16)
    (moved : Body) (ran : body.rearranged stream pool extraStack = .ok moved) :
    ∃ encoded again, stream.encode = .ok encoded ∧ moved.code = encoded.code ∧
      Stream.decode moved.code = .ok again ∧ moved.maxLocals = body.maxLocals ∧
      List.Forall₂ (HandlerRow.Moved (relocationOf stream encoded)) body.handlers moved.handlers ∧
      List.Forall₂ (fun old new => Attribute.Moved (relocationOf stream encoded) pool old new)
        body.attributes moved.attributes ∧
      ∀ start stop newStart newStop, relocationOf stream encoded start = .ok newStart →
        relocationOf stream encoded stop = .ok newStop →
        ∀ label < original.count, ∀ position, arrangedAt edits label ≤ position →
          position < arrangedAt edits (label + 1) →
          (again.Covers newStart newStop position ↔ original.Covers start stop label) := by
  obtain ⟨lengths, isDecoded, -⟩ := Stream.isDecoded_of_decode body.code original decoded
  obtain rfl := Except.ok.inj ((Stream.applyAll_eq edits original fit).symm.trans edited)
  have extended := Stream.extends_edited edits original fit isDecoded
  obtain ⟨encoded, ranEncode, code, -, maxLocals, handlers, attributes⟩ :=
    moved_of_rearranged body moved _ pool extraStack ran
  have encodes := (Stream.encode_eq_ok ..).1 ranEncode
  refine ⟨encoded, (original.edited edits).flattened, ranEncode, code, ?_, maxLocals, handlers,
    attributes, ?_⟩
  · rw [code]
    exact encodes.decode (extended.fits isDecoded)
  · intro start stop newStart newStop startMoved stopMoved label inside position above below
    rw [← Stream.landing_edited edits original isDecoded label (by omega)] at above
    rw [← Stream.landing_edited edits original isDecoded (label + 1) (by omega)] at below
    exact Stream.covers_iff isDecoded extended encodes startMoved stopMoved inside ⟨above, below⟩

/-- A pool with the names of some attributes. -/
def switchLoopPool : Pool :=
  .ofSlots (#[none] ++ (["LineNumberTable", "LocalVariableTable", "StackMapTable",
    "RuntimeVisibleTypeAnnotations", "Custom"].map fun name =>
      some (Constant.utf8 (Text.ModifiedUtf8.encode name))).toArray)

/-- The loop with a switch as a body, with a handler at its return. -/
def switchLoopBody : Body :=
  { maxStack := 2
    maxLocals := 1
    code := Stream.switchLoopCode
    handlers := [⟨0, 20, 23, 0⟩]
    attributes :=
      [⟨1, [0, 2, 0, 0, 0, 7, 0, 20, 0, 8]⟩,
        ⟨2, [0, 1, 0, 1, 0, 23, 0, 5, 0, 6, 0, 0]⟩,
        ⟨3, [0, 2, 20, 66, 8, 0, 1]⟩,
        ⟨4, [0, 1, 0x40, 0, 1, 0, 20, 0, 4, 0, 0, 0, 0, 5, 0, 0]⟩,
        ⟨5, [1, 2, 3]⟩] }

/-- The tables of the loop, after its code has been edited and moved. -/
theorem rearranged_switchLoop :
    ∃ stream moved encoded, Edit.applyAll Stream.switchLoopEdits Stream.switchLoop = .ok stream ∧
      switchLoopBody.rearranged stream switchLoopPool 2 = .ok moved ∧
      moved.code = encoded.code ∧ moved.maxLocals = 1 ∧
      List.Forall₂ (HandlerRow.Moved (relocationOf stream encoded)) [⟨0, 20, 23, 0⟩]
        moved.handlers ∧
      List.Forall₂
        (fun old new => Attribute.Moved (relocationOf stream encoded) switchLoopPool old new)
        switchLoopBody.attributes moved.attributes := by
  have applied := Stream.applyAll_eq Stream.switchLoopEdits Stream.switchLoop (by decide +kernel)
  have movable : (switchLoopBody.rearranged (Stream.switchLoop.edited Stream.switchLoopEdits)
      switchLoopPool 2).isOk = true := by
    decide +kernel
  cases ran : switchLoopBody.rearranged (Stream.switchLoop.edited Stream.switchLoopEdits)
      switchLoopPool 2 with
  | error failure =>
    rw [ran] at movable
    cases movable
  | ok moved =>
    obtain ⟨encoded, again, -, code, -, maxLocals, handlers, attributes, -⟩ :=
      rearranged_edited switchLoopBody Stream.switchLoop (by decide +kernel)
        Stream.switchLoopEdits (by decide +kernel) _ applied switchLoopPool 2 moved ran
    exact ⟨_, moved, encoded, applied, ran, code, maxLocals, handlers, attributes⟩

end Body

end NullGuard
