import NullGuard.Proofs.Code.Edits

/-!
# Emission

Encoding takes two passes over the same instructions. The layout adds up sizes, and the
size of a switch depends on the offset at which it stands. Emission writes one instruction
behind the other and never looks at how far it has come. The two agree: in front of every
instruction emission has written as many bytes as the layout says, and for the instruction
itself it writes as many as its size there (`encode_emits`). So the offsets of labels are
those of places in the code.
-/

namespace NullGuard

namespace Layout

/-- An instruction is emitted in as many bytes as its size at its offset. -/
theorem length_emit (labels : Array Nat) (item : Nat × Instruction Label) (bytes : List UInt8)
    (emitted : emit labels item = .ok bytes) : bytes.length = item.2.size item.1 := by
  obtain ⟨displaced, replaced, written⟩ := (Outcome.bind_eq_ok ..).1 emitted
  obtain ⟨-, rfl⟩ := (Instruction.written_eq_ok ..).1 written
  have shape := (Instruction.of_traverse _ _ _ replaced).1
  calc (displaced.form (List.replicate (padding item.1) 0)).length
      = displaced.size item.1 := Instruction.length_form _ _ _ List.length_replicate
    _ = (displaced.map fun _ => ()).size item.1 := (Instruction.size_map ..).symm
    _ = (item.2.map fun _ => ()).size item.1 := by rw [shape]
    _ = item.2.size item.1 := Instruction.size_map ..

/-- What is emitted from an offset on ends where the layout ends. -/
theorem length_emitted (labels : Array Nat) (offset : Nat)
    (instructions : List (Instruction Label)) (pieces : List (List UInt8))
    (emitted : (placedFrom offset instructions).mapM (emit labels) = .ok pieces) :
    offset + pieces.flatten.length = endFrom offset instructions := by
  induction instructions generalizing offset pieces with
  | nil =>
    rw [placedFrom, List.mapM_nil, Outcome.pure_eq_ok] at emitted
    simp [← emitted, endFrom]
  | cons instruction others inductionHypothesis =>
    rw [placedFrom, List.mapM_cons] at emitted
    obtain ⟨bytes, first, rest⟩ := (Outcome.bind_eq_ok ..).1 emitted
    obtain ⟨behind, later, returned⟩ := (Outcome.bind_eq_ok ..).1 rest
    rw [Outcome.pure_eq_ok] at returned
    have size := length_emit labels _ bytes first
    have goesOn := inductionHypothesis _ behind later
    rw [endFrom, ← goesOn, ← returned, List.flatten_cons, List.length_append, size, Nat.add_assoc]

/-- Whatever stands in front of an item of a layout was placed on its own before. -/
theorem placedFrom_split (offset : Nat) (instructions : List (Instruction Label))
    (front back : List (Nat × Instruction Label)) (item : Nat × Instruction Label)
    (split : placedFrom offset instructions = front ++ item :: back) :
    front = placedFrom offset (instructions.take front.length) ∧
      item.1 = endFrom offset (instructions.take front.length) := by
  constructor
  · have whole : placedFrom offset instructions =
        placedFrom offset (instructions.take front.length) ++
          placedFrom (endFrom offset (instructions.take front.length))
            (instructions.drop front.length) := by
      rw [← placedFrom_append, List.take_append_drop]
    have inside : front.length < instructions.length := by
      have length := congrArg List.length split
      simp only [length_placedFrom, List.length_append, List.length_cons] at length
      omega
    refine (List.append_inj (split.symm.trans whole) ?_).1
    rw [length_placedFrom, List.length_take]
    omega
  · have here := mem_placedFrom offset front.length instructions
    rw [split, List.getElem?_append_right (Nat.le_refl _), Nat.sub_self,
      List.getElem?_cons_zero] at here
    obtain ⟨instruction, -, same⟩ := Option.map_eq_some_iff.1 here.symm
    rw [← same]

end Layout

namespace Stream

/-- In front of every instruction emission has come as far as the layout says, and for the
instruction itself it writes as many bytes as its size there. -/
theorem encode_emits (stream : Stream) (encoded : Encoded) (ran : stream.encode = .ok encoded)
    (front back : List (Nat × Instruction Label)) (item : Nat × Instruction Label)
    (split : stream.layout.placed.toList = front ++ item :: back) :
    ∃ before bytes after, front.mapM (Layout.emit stream.layout.labels) = .ok before ∧
      Layout.emit stream.layout.labels item = .ok bytes ∧
      encoded.code = before.flatten ++ bytes ++ after ∧
      before.flatten.length = item.1 ∧ bytes.length = item.2.size item.1 := by
  have placed : Layout.placedFrom 0 stream.flat = front ++ item :: back := by
    rw [← split, layout_eq]
  rw [encode] at ran
  split at ran
  next => cases ran
  next =>
    obtain ⟨pieces, emitted, returned⟩ := (Outcome.bind_eq_ok ..).1 ran
    rw [Outcome.pure_eq_ok] at returned
    rw [split, List.mapM_append, List.mapM_cons] at emitted
    obtain ⟨before, begun, emitted⟩ := (Outcome.bind_eq_ok ..).1 emitted
    obtain ⟨_, emitted, joined⟩ := (Outcome.bind_eq_ok ..).1 emitted
    obtain ⟨bytes, here, emitted⟩ := (Outcome.bind_eq_ok ..).1 emitted
    obtain ⟨after, -, ended⟩ := (Outcome.bind_eq_ok ..).1 emitted
    rw [Outcome.pure_eq_ok] at joined ended
    obtain ⟨alone, offset⟩ := Layout.placedFrom_split 0 stream.flat front back item placed
    refine ⟨before, bytes, after.flatten, begun, here, ?_, ?_, Layout.length_emit _ item bytes here⟩
    · simp [← returned, ← joined, ← ended]
    · rw [alone] at begun
      have length := Layout.length_emitted _ 0 _ before begun
      rw [offset, ← length, Nat.zero_add]

/-- Labels stand at rising offsets, and the last one at the end of the code. -/
theorem Encodes.offsetOf_rising {stream : Stream} {encoded : Encoded}
    (encodes : stream.Encodes encoded) (first second start stop : Nat) (before : first < second)
    (atStart : encoded.offsetOf first = .ok start) (atStop : encoded.offsetOf second = .ok stop) :
    start < stop := by
  obtain ⟨-, rfl⟩ := (encodes.offsetOf_eq_ok ..).1 atStart
  obtain ⟨inside, rfl⟩ := (encodes.offsetOf_eq_ok ..).1 atStop
  apply offsetAt_lt
  · exact stream.landing_lt first second before inside
  · exact stream.landing_le second

/-- Layout and emission agree. Whatever groups of independent instructions are put into
decoded code, the layout places the arrangement that the edits ask for. If that can be
encoded, then each of its instructions is emitted when the code so far is as long as the
offset that the layout gave it, and it takes the bytes that the layout reckoned for it
there; the code ends where the layout ends. The labels of the decoded code and its end
stand at rising offsets, the last of which is the end of the code. -/
theorem emits_as_laid_out (code : List UInt8) (original : Stream)
    (decoded : decode code = .ok original) (edits : List Edit)
    (fit : ∀ edit ∈ edits, edit.FitsInto original) :
    ∃ stream, Edit.applyAll edits original = .ok stream ∧
      stream.layout.placed.toList.map Prod.snd = arrangement edits original.instructions ∧
      ∀ encoded, stream.encode = .ok encoded →
        (∀ front offset instruction back,
          stream.layout.placed.toList = front ++ (offset, instruction) :: back →
          ∃ before bytes after, front.mapM (Layout.emit stream.layout.labels) = .ok before ∧
            Layout.emit stream.layout.labels (offset, instruction) = .ok bytes ∧
            encoded.code = before.flatten ++ bytes ++ after ∧
            before.flatten.length = offset ∧ bytes.length = instruction.size offset) ∧
        encoded.code.length = stream.layout.length ∧
        (∀ label, (∃ offset, encoded.offsetOf label = .ok offset) ↔ label ≤ original.count) ∧
        (∀ first second start stop, first < second → encoded.offsetOf first = .ok start →
          encoded.offsetOf second = .ok stop → start < stop) ∧
        encoded.offsetOf original.count = .ok encoded.code.length := by
  obtain ⟨lengths, isDecoded, -⟩ := isDecoded_of_decode code original decoded
  have extended := extends_edited edits original fit isDecoded
  refine ⟨_, applyAll_eq edits original fit, ?_, ?_⟩
  · rw [layout_eq, map_snd_placedFrom]
    exact flat_edited edits original isDecoded
  · intro encoded ran
    have encodes := (encode_eq_ok ..).1 ran
    have length := encodes.length_code (extended.fits isDecoded)
    refine ⟨?_, ?_, ?_, encodes.offsetOf_rising, ?_⟩
    · intro front offset instruction back
      exact encode_emits _ encoded ran front back (offset, instruction)
    · rw [layout_eq, length]
    · intro label
      simp [encodes.offsetOf_eq_ok, count_edited]
    · rw [encodes.offsetOf_eq_ok, length]
      refine ⟨Nat.le_of_eq (count_edited edits original).symm, ?_⟩
      rw [← count_edited edits original, landing_count, offsetAt, List.take_length]

/-- With the groups in front of it the switch begins at offset 4, where it takes three bytes
of padding. -/
theorem emits_as_laid_out_switchLoop :
    ∃ stream encoded, ∃ before : List (List UInt8), ∃ bytes after,
      Edit.applyAll switchLoopEdits switchLoop = .ok stream ∧ stream.encode = .ok encoded ∧
      encoded.code = before.flatten ++ bytes ++ after ∧ before.flatten.length = 4 ∧
      bytes.length = 20 ∧ encoded.offsetOf 4 = .ok encoded.code.length := by
  obtain ⟨stream, applied, -, exactly⟩ := emits_as_laid_out switchLoopCode switchLoop
    (by decide +kernel) switchLoopEdits (by decide +kernel)
  have edited := applyAll_eq switchLoopEdits switchLoop (by decide +kernel)
  obtain rfl := Except.ok.inj (edited.symm.trans applied)
  have encodable : (switchLoop.edited switchLoopEdits).encode.isOk = true := by decide +kernel
  cases ran : (switchLoop.edited switchLoopEdits).encode with
  | error failure =>
    rw [ran] at encodable
    cases encodable
  | ok encoded =>
    obtain ⟨emits, -, -, -, last⟩ := exactly encoded ran
    obtain ⟨before, bytes, after, -, -, code, offset, size⟩ := emits
      [(0, .plain 0x2a), (1, .plain 0), (2, .plain 0), (3, .plain 0x1a)] 4
      ⟨0xaa, .tableSwitch 3 0 0 [2]⟩
      ((switchLoop.edited switchLoopEdits).layout.placed.toList.drop 5) (by decide +kernel)
    exact ⟨_, encoded, before, bytes, after, applied, ran, code, offset, size, last⟩

end Stream

end NullGuard
