import NullGuard.Proofs.Code.Extension

/-!
# Edits of decoded code

An edit puts one group into a stream: at the entry, or before or after an
instruction. The list that a sequence of edits asks for is written down without
any layout: first the groups for the entry in the order of the edits, then each
instruction between its groups. Encoding an edited stream and decoding the bytes
yields exactly that list, and each label has become the position of what stands
first in its block.
-/

namespace NullGuard

/-- One call that puts a group into a stream. -/
inductive Edit
  | entry (group : List (Instruction Label))
  | before (place : Nat) (group : List (Instruction Label))
  | after (place : Nat) (group : List (Instruction Label))
  deriving DecidableEq, Repr

namespace Edit

/-- Put the group into a stream. -/
def apply : Edit → Stream → Except Failure Stream
  | .entry group, stream => .ok (stream.insertAtEntry group)
  | .before place group, stream => stream.insertBefore place group
  | .after place group, stream => stream.insertAfter place group

/-- Put groups into a stream one after the other. -/
def applyAll (edits : List Edit) (stream : Stream) : Except Failure Stream :=
  edits.foldlM (fun stream edit => edit.apply stream) stream

/-- Whether a group of independent instructions is put at a place that exists. -/
def FitsInto (stream : Stream) : Edit → Prop
  | .entry group => ∀ instruction ∈ group, instruction.isIndependent = true
  | .before place group | .after place group =>
    place < stream.count ∧ ∀ instruction ∈ group, instruction.isIndependent = true

/-- Whether an edit fits into a stream can be seen from its place and its group. -/
instance (stream : Stream) : (edit : Edit) → Decidable (edit.FitsInto stream)
  | .entry group =>
    inferInstanceAs (Decidable (∀ instruction ∈ group, instruction.isIndependent = true))
  | .before place group | .after place group =>
    inferInstanceAs (Decidable (place < stream.count ∧
      ∀ instruction ∈ group, instruction.isIndependent = true))

/-- What an edit puts at the entry. -/
def atEntry : Edit → List (Instruction Label)
  | .entry group => group
  | _ => []

/-- What an edit puts directly before an instruction. -/
def aheadOf (place : Nat) : Edit → List (Instruction Label)
  | .before other group => if other = place then group else []
  | _ => []

/-- What an edit puts directly after an instruction. -/
def behind (place : Nat) : Edit → List (Instruction Label)
  | .after other group => if other = place then group else []
  | _ => []

end Edit

/-! ## What the edits ask for -/

/-- The instructions with all groups among them, in the order of the edits. -/
def arrangement (edits : List Edit) (instructions : List (Instruction Label)) :
    List (Instruction Label) :=
  edits.flatMap Edit.atEntry ++ instructions.zipIdx.flatMap fun (instruction, place) =>
    edits.flatMap (Edit.aheadOf place) ++ instruction :: edits.flatMap (Edit.behind place)

/-- The position in the arrangement of the first instruction of a label: of the
groups before it, if there are any, and of the end for the last label. -/
def arrangedAt (edits : List Edit) (label : Nat) : Nat :=
  (edits.flatMap Edit.atEntry).length + ((List.range label).map fun place =>
    (edits.flatMap (Edit.aheadOf place)).length + 1 +
      (edits.flatMap (Edit.behind place)).length).sum

namespace Stream

/-- The stream with all groups put in. -/
def edited (edits : List Edit) (stream : Stream) : Stream :=
  { stream with
    entry := stream.entry ++ edits.flatMap Edit.atEntry
    slots := stream.slots.mapIdx fun place slot =>
      { slot with
        before := slot.before ++ edits.flatMap (Edit.aheadOf place)
        after := slot.after ++ edits.flatMap (Edit.behind place) } }

/-- Edits add no slot and remove none. -/
theorem count_edited (edits : List Edit) (stream : Stream) :
    (stream.edited edits).count = stream.count := by
  simp [edited, count]

/-- Editing goes on from what was edited before. -/
theorem edited_append (front back : List Edit) (stream : Stream) :
    (stream.edited front).edited back = stream.edited (front ++ back) := by
  simp [edited, List.mapIdx_mapIdx, Function.comp_def]

/-- Without edits a stream stays as it is. -/
theorem edited_nil (stream : Stream) : stream.edited [] = stream := by
  have slots : stream.slots.mapIdx (fun _ slot => slot) = stream.slots := by
    rw [List.mapIdx_eq_zipIdx_map]
    exact List.zipIdx_map_fst 0 stream.slots
  simpa [edited] using congrArg (fun slots => { stream with slots }) slots

/-- Changing the slot at one place, as a map over all places. -/
theorem modify_eq_mapIdx (slots : List Slot) (place : Nat) (change : Slot → Slot) :
    slots.modify place change =
      slots.mapIdx fun other slot => if place = other then change slot else slot := by
  apply List.ext_getElem?
  intro other
  rw [List.getElem?_modify, List.getElem?_mapIdx]
  by_cases same : place = other <;> simp [same]

/-- One call puts its group where the edit says. -/
theorem apply_eq (edit : Edit) (stream : Stream) (fit : edit.FitsInto stream) :
    edit.apply stream = .ok (stream.edited [edit]) := by
  cases edit with
  | entry group =>
    have nothing := stream.edited_nil
    simp only [edited, List.flatMap_nil, List.append_nil] at nothing
    simp only [Edit.apply, insertAtEntry, edited, List.flatMap_cons, List.flatMap_nil,
      List.append_nil, Edit.atEntry, Edit.aheadOf, Edit.behind]
    conv_lhs => rw [← nothing]
  | before place group =>
    rw [Edit.apply, insertBefore, modifySlot, if_pos fit.1, modify_eq_mapIdx]
    simp only [edited, List.flatMap_cons, List.flatMap_nil, List.append_nil, Edit.atEntry,
      Edit.aheadOf, Edit.behind]
    congr 3
    funext other slot
    by_cases same : place = other <;> simp [same]
  | after place group =>
    rw [Edit.apply, insertAfter, modifySlot, if_pos fit.1, modify_eq_mapIdx]
    simp only [edited, List.flatMap_cons, List.flatMap_nil, List.append_nil, Edit.atEntry,
      Edit.aheadOf, Edit.behind]
    congr 3
    funext other slot
    by_cases same : place = other <;> simp [same]

/-- Edits change nothing about which further edits fit. -/
theorem fitsInto_edited (edits : List Edit) (stream : Stream) (edit : Edit) :
    edit.FitsInto (stream.edited edits) ↔ edit.FitsInto stream := by
  cases edit <;> simp [Edit.FitsInto, count_edited]

/-- All calls succeed and put their groups where the edits say. -/
theorem applyAll_eq (edits : List Edit) (stream : Stream)
    (fit : ∀ edit ∈ edits, edit.FitsInto stream) :
    Edit.applyAll edits stream = .ok (stream.edited edits) := by
  induction edits generalizing stream with
  | nil =>
    rw [edited_nil]
    rfl
  | cons edit others inductionHypothesis =>
    obtain ⟨first, rest⟩ := List.forall_mem_cons.1 fit
    have next : Edit.applyAll others (stream.edited [edit]) =
        .ok ((stream.edited [edit]).edited others) := by
      apply inductionHypothesis
      intro other member
      exact (fitsInto_edited ..).2 (rest other member)
    rw [edited_append, List.singleton_append] at next
    rw [Edit.applyAll, List.foldlM_cons, apply_eq edit stream first]
    exact next

/-! ## The arrangement -/

/-- Edits leave the instructions of the slots alone. -/
theorem instructions_edited (edits : List Edit) (original : Stream) :
    (original.edited edits).instructions = original.instructions := by
  simp only [instructions, edited, List.mapIdx_eq_zipIdx_map, List.map_map]
  conv_rhs => rw [← List.zipIdx_map_fst 0 original.slots, List.map_map]
  rfl

/-- Edits that fit put in independent instructions only. -/
theorem extends_edited (edits : List Edit) (original : Stream)
    (fit : ∀ edit ∈ edits, edit.FitsInto original) {lengths : List Nat}
    (decoded : original.IsDecoded lengths) : (original.edited edits).Extends original := by
  have groups (part : Edit → List (Instruction Label))
      (within : ∀ edit, edit.FitsInto original → ∀ instruction ∈ part edit,
        instruction.isIndependent = true) :
      ∀ instruction ∈ edits.flatMap part, instruction.isIndependent = true := by
    intro instruction member
    obtain ⟨edit, asked, inside⟩ := List.mem_flatMap.1 member
    exact within edit (fit edit asked) instruction inside
  have slots : ∀ slot ∈ (original.edited edits).slots, ∃ place,
      slot.before = edits.flatMap (Edit.aheadOf place) ∧
        slot.after = edits.flatMap (Edit.behind place) := by
    intro slot member
    rw [edited, decoded.bare, List.mem_mapIdx] at member
    obtain ⟨place, inside, rfl⟩ := member
    exact ⟨place, by simp [Slot.bare]⟩
  refine
    { instructions := instructions_edited edits original
      landmarks := rfl
      entry := ?_
      before := ?_
      after := ?_ }
  · rw [edited, decoded.entry, List.nil_append]
    apply groups
    intro edit fits instruction member
    cases edit with
    | entry group => exact fits instruction member
    | _ => cases member
  · intro slot member
    obtain ⟨place, before, -⟩ := slots slot member
    rw [before]
    apply groups
    intro edit fits instruction member
    cases edit with
    | before other group =>
      simp only [Edit.aheadOf] at member
      split at member
      next => exact fits.2 instruction member
      next => cases member
    | _ => cases member
  · intro slot member
    obtain ⟨place, -, after⟩ := slots slot member
    rw [after]
    apply groups
    intro edit fits instruction member
    cases edit with
    | after other group =>
      simp only [Edit.behind] at member
      split at member
      next => exact fits.2 instruction member
      next => cases member
    | _ => cases member

/-- The edited stream has the instructions of the arrangement in order. -/
theorem flat_edited (edits : List Edit) (original : Stream) {lengths : List Nat}
    (decoded : original.IsDecoded lengths) :
    (original.edited edits).flat = arrangement edits original.instructions := by
  rw [flat, edited, decoded.entry, arrangement, decoded.bare]
  simp [List.mapIdx_eq_zipIdx_map, List.flatMap_map, Slot.all, Slot.bare, List.zipIdx_map]

/-- A block is as long as its instruction and the groups around it. -/
theorem landing_edited (edits : List Edit) (original : Stream) {lengths : List Nat}
    (decoded : original.IsDecoded lengths) (label : Nat) (inside : label ≤ original.count) :
    (original.edited edits).landing label = arrangedAt edits label := by
  have sizes : ((original.edited edits).slots.take label).map (fun slot => slot.all.length) =
      (List.range label).map fun place => (edits.flatMap (Edit.aheadOf place)).length + 1 +
        (edits.flatMap (Edit.behind place)).length := by
    apply List.ext_getElem?
    intro place
    rw [List.getElem?_map, List.getElem?_map, List.getElem?_take, edited, decoded.bare]
    by_cases small : place < label
    · have present : place < original.instructions.length := by
        rw [length_instructions]
        omega
      simp [small, List.getElem?_eq_getElem present, Slot.all, Slot.bare]
      omega
    · simp [small]
  rw [landing, List.length_flatMap, sizes, edited, decoded.entry, arrangedAt, List.nil_append]

/-- Relocation is exact. Whatever groups of independent instructions are put into
decoded code, the calls succeed, and if the result can be encoded, decoding the
bytes yields the arrangement that the edits ask for, with every label replaced by
the position of what stands first in its block. The encoder reports for a label
the offset at which that position begins in the bytes. -/
theorem decode_encode_edited (code : List UInt8) (original : Stream)
    (decoded : decode code = .ok original) (edits : List Edit)
    (fit : ∀ edit ∈ edits, edit.FitsInto original) :
    ∃ stream, Edit.applyAll edits original = .ok stream ∧
      ∀ encoded, stream.encode = .ok encoded →
        ∃ again founds, decode encoded.code = .ok again ∧ cut encoded.code = .ok founds ∧
          again.entry = [] ∧
          again.slots = ((arrangement edits original.instructions).map
            (Instruction.map (arrangedAt edits))).map Slot.bare ∧
          ∀ label ≤ original.count, ∃ offset, encoded.offsetOf label = .ok offset ∧
            (founds.map Found.offset ++ [encoded.code.length])[arrangedAt edits label]? =
              some offset := by
  obtain ⟨lengths, isDecoded, -⟩ := isDecoded_of_decode code original decoded
  have extended := extends_edited edits original fit isDecoded
  have fits := extended.fits isDecoded
  have flat := flat_edited edits original isDecoded
  have landings : ∀ label ≤ original.count,
      (original.edited edits).landing label = arrangedAt edits label :=
    landing_edited edits original isDecoded
  refine ⟨_, applyAll_eq edits original fit, ?_⟩
  intro encoded ran
  have encodes := (encode_eq_ok ..).1 ran
  refine ⟨_, _, encodes.decode fits, (cut_eq_ok ..).2 (encodes.cut fits), rfl, ?_, ?_⟩
  · have replaced : (original.edited edits).flat.map
        (Instruction.map (original.edited edits).landing) =
          (original.edited edits).flat.map (Instruction.map (arrangedAt edits)) := by
      apply List.map_congr_left
      intro instruction member
      apply Instruction.map_congr
      intro label target
      exact landings label (extended.inside isDecoded instruction member label target)
    rw [flattened, replaced, flat]
  · intro label inside
    refine ⟨_, (encodes.offsetOf_eq_ok ..).2 ⟨?_, rfl⟩, ?_⟩
    · rw [count_edited]
      exact inside
    · rw [← landings label inside]
      exact encodes.boundary fits _ (landing_le ..)

/-- A loop with a table switch: a load, the switch, a jump back to the load and a
return. -/
def switchLoopCode : List UInt8 :=
  [0x1a, 0xaa, 0, 0, 0, 0, 0, 22, 0, 0, 0, 0, 0, 0, 0, 0, 0, 0, 0, 19, 0xa7, 0xff, 0xec, 0xb0]

/-- The stream that the loop is decoded to. -/
def switchLoop : Stream :=
  { entry := []
    slots := [.plain 0x1a, ⟨0xaa, .tableSwitch 3 0 0 [2]⟩, .jump 0xa7 0, .plain 0xb0].map Slot.bare
    landmarks := landmarksOf [1, 19, 3, 1]
    composed := false }

/-- A group at the entry and groups that change the padding of the switch. -/
def switchLoopEdits : List Edit :=
  [.entry [.plain 0x2a], .before 3 [.plain 0x59], .before 0 [.plain 0, .plain 0],
    .after 2 [.plain 0], .before 3 [.withWord 0xb8 7]]

/-- The loop with the groups in it. The switch leads to the group in front of the return,
the jump to that in front of the load, and each has moved. -/
theorem decode_encode_switchLoop :
    ∃ stream encoded again, Edit.applyAll switchLoopEdits switchLoop = .ok stream ∧
      stream.encode = .ok encoded ∧ decode encoded.code = .ok again ∧
      again.instructions = [.plain 0x2a, .plain 0, .plain 0, .plain 0x1a,
        ⟨0xaa, .tableSwitch 7 0 0 [5]⟩, .jump 0xa7 1, .plain 0, .plain 0x59, .withWord 0xb8 7,
        .plain 0xb0] := by
  obtain ⟨stream, applied, exactly⟩ := decode_encode_edited switchLoopCode switchLoop
    (by decide +kernel) switchLoopEdits (by decide +kernel)
  have encodable : (Edit.applyAll switchLoopEdits switchLoop >>= encode).isOk = true := by
    decide +kernel
  rw [applied] at encodable
  cases ran : stream.encode with
  | error failure =>
    simp only [bind, Except.bind, ran] at encodable
    cases encodable
  | ok encoded =>
    obtain ⟨again, founds, decoded, -, -, slots, -⟩ := exactly encoded ran
    refine ⟨stream, encoded, again, applied, ran, decoded, ?_⟩
    rw [instructions, slots]
    decide +kernel

end Stream

end NullGuard
