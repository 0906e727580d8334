import NullGuard.Code.Layout
import NullGuard.Proofs.Code.Cut
import NullGuard.Proofs.Code.Target

/-!
# Where a stream puts its instructions

A stream is laid out as one list, in which every label stands at a position:
in front of the group before its instruction. The layout gives each position
the offset that the sizes of everything before it add up to. An encoded stream
is cut into exactly that list again, and each of its targets leads to the
position at which its label stands (`decode_encode`).
-/

namespace NullGuard

namespace Layout

/-- The offset behind some instructions that stand from an offset on. -/
def endFrom (offset : Nat) : List (Instruction Label) → Nat
  | [] => offset
  | instruction :: others => endFrom (offset + instruction.size offset) others

/-- Instructions with their offsets from the first one's on. -/
def placedFrom (offset : Nat) : List (Instruction Label) → List (Nat × Instruction Label)
  | [] => []
  | instruction :: others =>
    (offset, instruction) :: placedFrom (offset + instruction.size offset) others

/-- Placing instructions in two parts ends where placing them at once does. -/
theorem endFrom_append (offset : Nat) (front back : List (Instruction Label)) :
    endFrom offset (front ++ back) = endFrom (endFrom offset front) back := by
  induction front generalizing offset with
  | nil => rfl
  | cons instruction others inductionHypothesis => exact inductionHypothesis _

/-- Instructions are placed in two parts as they are at once, the second part where the
first one ends. -/
theorem placedFrom_append (offset : Nat) (front back : List (Instruction Label)) :
    placedFrom offset (front ++ back) =
      placedFrom offset front ++ placedFrom (endFrom offset front) back := by
  induction front generalizing offset with
  | nil => rfl
  | cons instruction others inductionHypothesis =>
    simp only [List.cons_append, placedFrom, inductionHypothesis, endFrom]

/-- Each instruction gets one place. -/
theorem length_placedFrom (offset : Nat) (instructions : List (Instruction Label)) :
    (placedFrom offset instructions).length = instructions.length := by
  induction instructions generalizing offset with
  | nil => rfl
  | cons instruction others inductionHypothesis =>
    rw [placedFrom, List.length_cons, inductionHypothesis, List.length_cons]

/-- The sizes of the instructions in front of a position add up to its offset. -/
theorem endFrom_take (offset position : Nat) (instructions : List (Instruction Label)) :
    endFrom offset (instructions.take position) = offset +
      (((placedFrom offset instructions).map fun item => item.2.size item.1).take
        position).sum := by
  induction instructions generalizing offset position with
  | nil => simp [endFrom, placedFrom]
  | cons instruction others inductionHypothesis =>
    cases position with
    | zero => simp [endFrom]
    | succ position =>
      simp only [List.take_succ_cons, endFrom, inductionHypothesis, placedFrom, List.map_cons,
        List.sum_cons]
      exact Nat.add_assoc ..

/-- An instruction begins where those in front of it end. -/
theorem mem_placedFrom (offset position : Nat) (instructions : List (Instruction Label)) :
    (placedFrom offset instructions)[position]? =
      (instructions[position]?).map fun instruction =>
        (endFrom offset (instructions.take position), instruction) := by
  induction instructions generalizing offset position with
  | nil => simp [placedFrom]
  | cons instruction others inductionHypothesis =>
    cases position with
    | zero => simp [placedFrom, endFrom]
    | succ position => simp [placedFrom, endFrom, inductionHypothesis]

/-- Placing instructions never goes back. -/
theorem le_endFrom (offset : Nat) (instructions : List (Instruction Label)) :
    offset ≤ endFrom offset instructions := by
  induction instructions generalizing offset with
  | nil => exact Nat.le_refl offset
  | cons instruction others inductionHypothesis =>
    exact Nat.le_trans (Nat.le_add_right ..) (inductionHypothesis _)

/-! ## The two passes -/

/-- Placing instructions one by one adds their places and no label, and ends where the last
one does. -/
theorem foldl_place (layout : Layout) (instructions : List (Instruction Label)) :
    instructions.foldl place layout =
      { placed := layout.placed ++ (placedFrom layout.length instructions).toArray
        labels := layout.labels
        length := endFrom layout.length instructions } := by
  induction instructions generalizing layout with
  | nil => simp [placedFrom, endFrom]
  | cons instruction others inductionHypothesis =>
    rw [List.foldl_cons, inductionHypothesis]
    simp [place, placedFrom, endFrom]

/-- Placing slots one by one adds the places of their instructions, and a label where each
slot begins. -/
theorem foldl_placeSlot (layout : Layout) (slots : List Slot) :
    slots.foldl placeSlot layout =
      { placed := layout.placed ++ (placedFrom layout.length (slots.flatMap Slot.all)).toArray
        labels := layout.labels ++ ((List.range slots.length).map fun label =>
          endFrom layout.length ((slots.take label).flatMap Slot.all)).toArray
        length := endFrom layout.length (slots.flatMap Slot.all) } := by
  induction slots generalizing layout with
  | nil => simp [placedFrom, endFrom]
  | cons slot others inductionHypothesis =>
    rw [List.foldl_cons, inductionHypothesis, placeSlot, foldl_place]
    simp [mark, placedFrom_append, endFrom_append, List.range_succ_eq_map, endFrom,
      Function.comp_def]

end Layout

namespace Stream

/-- All instructions of a stream, groups included, in the order in which they
stand. -/
def flat (stream : Stream) : List (Instruction Label) :=
  stream.entry ++ stream.slots.flatMap Slot.all

/-- The position of a label: that of the group before its instruction, or the
end for the label behind the last instruction. -/
def landing (stream : Stream) (label : Nat) : Nat :=
  stream.entry.length + ((stream.slots.take label).flatMap Slot.all).length

/-- The offset of a position. -/
def offsetAt (stream : Stream) (position : Nat) : Nat :=
  Layout.endFrom 0 (stream.flat.take position)

/-- In front of the landing of a label stand the entry and the slots in front of the label.
-/
theorem take_landing (stream : Stream) (label : Nat) :
    stream.flat.take (stream.landing label) =
      stream.entry ++ (stream.slots.take label).flatMap Slot.all := by
  have split : stream.slots.flatMap Slot.all = (stream.slots.take label).flatMap Slot.all ++
      (stream.slots.drop label).flatMap Slot.all := by
    rw [← List.flatMap_append, List.take_append_drop]
  rw [flat, landing, split, ← List.append_assoc]
  exact List.take_left' (by simp)

/-- From the landing of a label on stand the slots from that label on. -/
theorem drop_landing (stream : Stream) (label : Nat) :
    stream.flat.drop (stream.landing label) = (stream.slots.drop label).flatMap Slot.all := by
  have whole : stream.flat.take (stream.landing label) ++ stream.flat.drop (stream.landing label) =
      stream.flat.take (stream.landing label) ++ (stream.slots.drop label).flatMap Slot.all := by
    rw [List.take_append_drop, take_landing, flat, List.append_assoc, ← List.flatMap_append,
      List.take_append_drop]
  exact List.append_cancel_left whole

/-- The offset of a landing is where the entry and the slots in front end. -/
theorem offsetAt_landing (stream : Stream) (label : Nat) :
    stream.offsetAt (stream.landing label) = Layout.endFrom (Layout.endFrom 0 stream.entry)
      ((stream.slots.take label).flatMap Slot.all) := by
  rw [offsetAt, take_landing, Layout.endFrom_append]

/-- The label behind all slots lands behind all instructions. -/
theorem landing_count (stream : Stream) : stream.landing stream.count = stream.flat.length := by
  simp [landing, count, flat]

/-- The offsets of all labels in order. -/
def labelOffsets (stream : Stream) : Array Nat :=
  ((List.range (stream.count + 1)).map fun label => stream.offsetAt (stream.landing label)).toArray

/-- The layout knows each label that a jump can have, and where it lands. -/
theorem getElem?_labelOffsets (stream : Stream) (label : Nat) :
    stream.labelOffsets[label]? =
      if label ≤ stream.count then some (stream.offsetAt (stream.landing label)) else none := by
  rw [labelOffsets, List.getElem?_toArray, List.getElem?_map]
  split
  next inside => rw [List.getElem?_range (by omega), Option.map_some]
  next outside => rw [List.getElem?_eq_none (by rw [List.length_range]; omega), Option.map_none]

/-- The layout places the flat list and puts each label at its position. -/
theorem layout_eq (stream : Stream) :
    stream.layout =
      { placed := (Layout.placedFrom 0 stream.flat).toArray
        labels := stream.labelOffsets
        length := Layout.endFrom 0 stream.flat } := by
  have whole : (stream.slots.take stream.slots.length).flatMap Slot.all =
      stream.slots.flatMap Slot.all := by
    rw [List.take_length]
  simp only [labelOffsets, offsetAt_landing, layout, Layout.foldl_place, Layout.foldl_placeSlot,
    Layout.mark, Layout.empty, Layout.endFrom_append, flat, Layout.placedFrom_append, count,
    List.range_succ, List.map_append, List.map_cons, List.map_nil, whole]
  simp

/-- The instruction with the displacements that lead from an offset to where its
labels stand. -/
def displaced (stream : Stream) (offset : Nat) (instruction : Instruction Label) :
    Instruction Int :=
  instruction.map fun label => (stream.offsetAt (stream.landing label) : Int) - offset

/-- What it means that the layout of a stream can be written. -/
structure Encodes (stream : Stream) (encoded : Encoded) : Prop where
  positive : 0 < Layout.endFrom 0 stream.flat
  bounded : Layout.endFrom 0 stream.flat ≤ maxLength
  labels : encoded.labels = stream.labelOffsets
  writable : ∀ item ∈ Layout.placedFrom 0 stream.flat,
    (∀ label ∈ item.2.targets, label ≤ stream.count) ∧
      ∀ displacement, (stream.displaced item.1 item.2).operand = .branch displacement →
        Operand.IsShort displacement
  code : encoded.code = (Layout.placedFrom 0 stream.flat).flatMap fun item =>
    (stream.displaced item.1 item.2).form (List.replicate (padding item.1) 0)

/-- A jump has a displacement if its label is one of the stream, and it is the way from the
jump to where the label lands. -/
theorem displacement_eq_ok (stream : Stream) (offset label : Nat) (displacement : Int) :
    Layout.displacement stream.layout.labels offset label = .ok displacement ↔
      label ≤ stream.count ∧
        displacement = (stream.offsetAt (stream.landing label) : Int) - offset := by
  rw [Layout.displacement, layout_eq, getElem?_labelOffsets]
  split
  next target here =>
    split at here
    next inside =>
      obtain rfl := Option.some.inj here
      simp only [Except.ok.injEq, inside, true_and, eq_comm]
    next outside => cases here
  next here =>
    split at here
    next inside => cases here
    next outside => simp [outside]

/-- An instruction is emitted if its labels are those of the stream and none of its short
displacements is too far. Then it is written with its displacements. -/
theorem emit_eq_ok (stream : Stream) (item : Nat × Instruction Label) (bytes : List UInt8) :
    Layout.emit stream.layout.labels item = .ok bytes ↔
      ((∀ label ∈ item.2.targets, label ≤ stream.count) ∧
        ∀ displacement, (stream.displaced item.1 item.2).operand = .branch displacement →
          Operand.IsShort displacement) ∧
        bytes = (stream.displaced item.1 item.2).form (List.replicate (padding item.1) 0) := by
  rw [Layout.emit, Outcome.bind_eq_ok]
  simp only [Instruction.written_eq_ok]
  have replaced (inside : ∀ label ∈ item.2.targets, label ≤ stream.count) :
      item.2.traverse (Layout.displacement stream.layout.labels item.1) =
        .ok (stream.displaced item.1 item.2) := by
    apply Instruction.traverse_of
    intro label member
    exact (displacement_eq_ok ..).2 ⟨inside label member, rfl⟩
  constructor
  · rintro ⟨instruction, ran, short, written⟩
    have inside : ∀ label ∈ item.2.targets, label ≤ stream.count := by
      intro label member
      obtain ⟨displacement, found⟩ := Instruction.target_of_traverse _ _ _ ran label member
      exact ((displacement_eq_ok ..).1 found).1
    obtain rfl := Except.ok.inj ((replaced inside).symm.trans ran)
    exact ⟨⟨inside, short⟩, written⟩
  · rintro ⟨⟨inside, short⟩, written⟩
    exact ⟨_, replaced inside, short, written⟩

/-- Encoding succeeds exactly if everything in the layout can be written. -/
theorem encode_eq_ok (stream : Stream) (encoded : Encoded) :
    stream.encode = .ok encoded ↔ stream.Encodes encoded := by
  have length : stream.layout.length = Layout.endFrom 0 stream.flat := by rw [layout_eq]
  have placed : stream.layout.placed.toList = Layout.placedFrom 0 stream.flat := by
    rw [layout_eq]
  have labels : stream.layout.labels = stream.labelOffsets := by rw [layout_eq]
  rw [encode]
  split
  next outside =>
    constructor
    · intro impossible
      cases impossible
    · intro encodes
      have positive := encodes.positive
      have bounded := encodes.bounded
      omega
  next inside =>
    rw [Outcome.bind_eq_ok, placed]
    simp only [Outcome.mapM_eq_ok_iff (emit_eq_ok stream)]
    constructor
    · rintro ⟨written, ⟨writable, rfl⟩, returned⟩
      obtain rfl := Except.ok.inj returned
      exact
        { positive := by omega
          bounded := by omega
          labels
          writable
          code := List.flatMap_def.symm }
    · intro encodes
      refine ⟨_, ⟨encodes.writable, rfl⟩, congrArg Except.ok ?_⟩
      obtain ⟨code, offsets⟩ := encoded
      rw [← List.flatMap_def, ← encodes.code, labels, ← encodes.labels]

/-- The offset of a label is that of the position at which it stands. -/
theorem Encodes.offsetOf_eq_ok {stream : Stream} {encoded : Encoded}
    (encodes : stream.Encodes encoded) (label offset : Nat) :
    encoded.offsetOf label = .ok offset ↔
      label ≤ stream.count ∧ offset = stream.offsetAt (stream.landing label) := by
  rw [Encoded.offsetOf, encodes.labels, getElem?_labelOffsets]
  split
  next target here =>
    split at here
    next inside =>
      obtain rfl := Option.some.inj here
      simp only [Except.ok.injEq, inside, true_and, eq_comm]
    next outside => cases here
  next here =>
    split at here
    next inside => cases here
    next outside => simp [outside]

/-! ## Decoding what was encoded -/

/-- No offset lies behind the end of the code. -/
theorem offsetAt_le (stream : Stream) (position : Nat) :
    stream.offsetAt position ≤ Layout.endFrom 0 stream.flat := by
  have split : Layout.endFrom 0 stream.flat =
      Layout.endFrom (stream.offsetAt position) (stream.flat.drop position) := by
    rw [offsetAt, ← Layout.endFrom_append, List.take_append_drop]
  rw [split]
  exact Layout.le_endFrom ..

/-- Everything that is placed stands at the offset of its position. -/
theorem exists_of_mem_placed (stream : Stream) (item : Nat × Instruction Label)
    (member : item ∈ Layout.placedFrom 0 stream.flat) :
    ∃ position, stream.flat[position]? = some item.2 ∧ item.1 = stream.offsetAt position := by
  obtain ⟨position, here⟩ := List.mem_iff_getElem?.1 member
  rw [Layout.mem_placedFrom] at here
  obtain ⟨instruction, present, rfl⟩ := Option.map_eq_some_iff.1 here
  exact ⟨position, present, rfl⟩

/-- Offsets have at most five digits, so every displacement fits into a word. -/
theorem Encodes.inReach {stream : Stream} {encoded : Encoded} (encodes : stream.Encodes encoded)
    (item : Nat × Instruction Label) (member : item ∈ Layout.placedFrom 0 stream.flat) :
    (stream.displaced item.1 item.2).operand.InReach := by
  obtain ⟨position, -, here⟩ := stream.exists_of_mem_placed item member
  have word (label : Nat) :
      Operand.IsWord ((stream.offsetAt (stream.landing label) : Int) - item.1) := by
    have first := stream.offsetAt_le (stream.landing label)
    have second := stream.offsetAt_le position
    have bounded := encodes.bounded
    rw [maxLength] at bounded
    rw [here]
    constructor <;> omega
  have words : ∀ displacement ∈ (stream.displaced item.1 item.2).targets,
      Operand.IsWord displacement := by
    rw [displaced, Instruction.targets_map, List.forall_mem_map]
    intro label _
    exact word label
  obtain ⟨-, short⟩ := encodes.writable item member
  unfold Operand.InReach
  split
  next displacement here => exact short displacement here
  next => exact words

/-- What the cutter finds in the encoded bytes. -/
def founds (stream : Stream) : List Found :=
  (Layout.placedFrom 0 stream.flat).map fun item =>
    ⟨item.1, item.2.size item.1, stream.displaced item.1 item.2⟩

/-- The encoded bytes are the forms of the flat list, one behind the other. -/
theorem Encodes.cut {stream : Stream} {encoded : Encoded} (encodes : stream.Encodes encoded)
    (fits : ∀ instruction ∈ stream.flat, instruction.Fits) :
    Cut 0 encoded.code stream.founds := by
  have forms : ∀ item ∈ Layout.placedFrom 0 stream.flat, Instruction.IsForm item.1
      ((stream.displaced item.1 item.2).form (List.replicate (padding item.1) 0))
      (stream.displaced item.1 item.2) := by
    intro item member
    obtain ⟨position, here, -⟩ := stream.exists_of_mem_placed item member
    refine ⟨?_, encodes.inReach item member, _, List.length_replicate, rfl⟩
    exact (Instruction.fits_map ..).2 (fits item.2 (List.mem_of_getElem? here))
  have cut (offset : Nat) (instructions : List (Instruction Label))
      (spelled : ∀ item ∈ Layout.placedFrom offset instructions, Instruction.IsForm item.1
        ((stream.displaced item.1 item.2).form (List.replicate (padding item.1) 0))
        (stream.displaced item.1 item.2)) :
      Cut offset ((Layout.placedFrom offset instructions).flatMap fun item =>
          (stream.displaced item.1 item.2).form (List.replicate (padding item.1) 0))
        ((Layout.placedFrom offset instructions).map fun item =>
          ⟨item.1, item.2.size item.1, stream.displaced item.1 item.2⟩) := by
    induction instructions generalizing offset with
    | nil => exact .done offset
    | cons instruction others inductionHypothesis =>
      obtain ⟨first, rest⟩ := List.forall_mem_cons.1 spelled
      have size : ((stream.displaced offset instruction).form
          (List.replicate (padding offset) 0)).length = instruction.size offset := by
        rw [first.length_eq, displaced, Instruction.size_map]
      have behind := inductionHypothesis _ rest
      rw [← size] at behind
      simp only [Layout.placedFrom, List.flatMap_cons, List.map_cons]
      rw [← size]
      exact .next offset _ _ _ _ _ rfl first behind
  rw [encodes.code]
  exact cut 0 stream.flat forms

/-- The lengths of all instructions in the order in which they stand. -/
def sizes (stream : Stream) : List Nat :=
  (Layout.placedFrom 0 stream.flat).map fun item => item.2.size item.1

/-- What the layout finds is as long as the instructions are. -/
theorem map_length_founds (stream : Stream) : stream.founds.map Found.length = stream.sizes := by
  simp [founds, sizes]

/-- Each instruction has one size. -/
theorem length_sizes (stream : Stream) : stream.sizes.length = stream.flat.length := by
  simp [sizes, Layout.length_placedFrom]

/-- No instruction is empty. -/
theorem sizes_pos (stream : Stream) : ∀ length ∈ stream.sizes, 0 < length := by
  rw [sizes, List.forall_mem_map]
  intro item _
  exact item.2.size_pos item.1

/-- The offset of an instruction is the sum of the sizes in front of it. -/
theorem offsetAt_eq_sum (stream : Stream) (position : Nat) :
    stream.offsetAt position = (stream.sizes.take position).sum := by
  rw [offsetAt, Layout.endFrom_take, Nat.zero_add, sizes]

/-- The code is as long as its instructions together. -/
theorem endFrom_eq_sum (stream : Stream) : Layout.endFrom 0 stream.flat = stream.sizes.sum := by
  have whole := stream.offsetAt_eq_sum stream.flat.length
  rw [offsetAt, List.take_length, ← length_sizes, List.take_length] at whole
  exact whole

/-- Placing instructions changes none of them. -/
theorem map_snd_placedFrom (offset : Nat) (instructions : List (Instruction Label)) :
    (Layout.placedFrom offset instructions).map Prod.snd = instructions := by
  induction instructions generalizing offset with
  | nil => rfl
  | cons instruction others inductionHypothesis =>
    simp only [Layout.placedFrom, List.map_cons, inductionHypothesis]

/-- No label lands behind the end. -/
theorem landing_le (stream : Stream) (label : Nat) :
    stream.landing label ≤ stream.flat.length := by
  have inside := congrArg List.length (stream.take_landing label)
  rw [List.length_take, List.length_append, ← landing] at inside
  omega

/-- The flat list on its own, every label replaced by the position at which it
stands. -/
def flattened (stream : Stream) : Stream :=
  { entry := []
    slots := (stream.flat.map (Instruction.map stream.landing)).map Slot.bare
    landmarks := landmarksOf stream.sizes
    composed := false }

/-- Seen as a stream of its own, the arrangement has the same instructions, with landings
for labels. -/
theorem instructions_flattened (stream : Stream) :
    stream.flattened.instructions = stream.flat.map (Instruction.map stream.landing) := by
  simp [flattened, instructions, Slot.bare]

/-- Decoding what was encoded yields the flat list. -/
theorem Encodes.decode {stream : Stream} {encoded : Encoded} (encodes : stream.Encodes encoded)
    (fits : ∀ instruction ∈ stream.flat, instruction.Fits) :
    Stream.decode encoded.code = .ok stream.flattened := by
  have cut := (cut_eq_ok ..).2 (encodes.cut fits)
  have reached (offset label : Nat) :
      targetOf (landmarksOf stream.sizes) offset
        ((stream.offsetAt (stream.landing label) : Int) - offset) = .ok (stream.landing label) := by
    have target : (offset : Int) + ((stream.offsetAt (stream.landing label) : Int) - offset) =
        (stream.offsetAt (stream.landing label) : Int) := by omega
    simp only [targetOf, target, Int.toNat_natCast]
    rw [if_neg (by omega), labelIn_landmarksOf _ stream.sizes_pos, length_sizes]
    exact ⟨stream.landing_le label, stream.offsetAt_eq_sum _⟩
  have replaced (item : Nat × Instruction Label) :
      (stream.displaced item.1 item.2).traverse (targetOf (landmarksOf stream.sizes) item.1) =
        .ok (item.2.map stream.landing) := by
    rw [displaced, Instruction.traverse_map]
    exact Instruction.traverse_of _ _ _ fun label _ => reached item.1 label
  have instructions : (stream.founds.mapM fun found =>
      found.instruction.traverse (targetOf (landmarksOf stream.sizes) found.offset)) =
        .ok (stream.flat.map (Instruction.map stream.landing)) := by
    have flat : stream.flat.map (Instruction.map stream.landing) =
        (Layout.placedFrom 0 stream.flat).map fun item => item.2.map stream.landing := by
      conv_lhs => rw [← map_snd_placedFrom 0 stream.flat, List.map_map]
      rfl
    rw [founds, List.mapM_map, flat]
    exact Outcome.mapM_of _ _ _ fun item _ => replaced item
  rw [Stream.decode, cut]
  simp only [map_length_founds, bind, Except.bind]
  rw [instructions]
  rfl

/-- The code is as long as the layout reckons. -/
theorem Encodes.length_code {stream : Stream} {encoded : Encoded}
    (encodes : stream.Encodes encoded) (fits : ∀ instruction ∈ stream.flat, instruction.Fits) :
    encoded.code.length = Layout.endFrom 0 stream.flat := by
  rw [← (encodes.cut fits).sum_length, map_length_founds, endFrom_eq_sum]

/-- The bytes in front of a position are those that the layout reckons with. -/
theorem Encodes.boundary {stream : Stream} {encoded : Encoded} (encodes : stream.Encodes encoded)
    (fits : ∀ instruction ∈ stream.flat, instruction.Fits) (position : Nat)
    (inside : position ≤ stream.flat.length) :
    (stream.founds.map Found.offset ++ [encoded.code.length])[position]? =
      some (stream.offsetAt position) := by
  have cut := encodes.cut fits
  have count : stream.founds.length = stream.flat.length := by
    rw [founds, List.length_map, Layout.length_placedFrom]
  obtain before | atEnd := Nat.lt_or_eq_of_le inside
  · rw [← count] at before
    rw [List.getElem?_append_left (by simpa using before), List.getElem?_map,
      List.getElem?_eq_getElem before, Option.map_some, offsetAt_eq_sum, ← map_length_founds,
      cut.offset_eq position _ (List.getElem?_eq_getElem before), Nat.zero_add]
  · have behind : (stream.founds.map Found.offset).length ≤ position := by
      rw [List.length_map, count]
      exact Nat.le_of_eq atEnd.symm
    rw [List.getElem?_append_right behind, List.length_map, count, atEnd, Nat.sub_self,
      List.getElem?_cons_zero, encodes.length_code fits, offsetAt, List.take_length]

/-- An offset belongs to a position of the flat list exactly if that is where the
layout puts the position. -/
theorem labelAt_flattened (stream : Stream) (offset position : Nat) :
    stream.flattened.labelAt offset = .ok position ↔
      position ≤ stream.flat.length ∧ offset = stream.offsetAt position := by
  rw [labelAt, flattened, labelIn_landmarksOf _ stream.sizes_pos, length_sizes, offsetAt_eq_sum]

end Stream

end NullGuard
