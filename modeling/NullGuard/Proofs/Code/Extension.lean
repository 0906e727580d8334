import NullGuard.Code.Body
import NullGuard.Proofs.Code.Decoding

/-!
# Streams with groups put in

A stream extends another one if it has the same instructions and its groups
consist of instructions that are the same wherever they stand. The block of a
label is the stretch of the flat list from the group before its instruction to
the group after it. A relocation takes the start of an instruction to the start
of its block, and so a range covers a block exactly if it covered its
instruction.
-/

namespace NullGuard

namespace Instruction

/-- An independent instruction names no target. -/
theorem targets_of_isIndependent {τ : Type} (instruction : Instruction τ)
    (independent : instruction.isIndependent = true) : instruction.targets = [] := by
  obtain ⟨opcode, operand⟩ := instruction
  cases operand with
  | fixed bytes => rfl
  | _ => cases independent

/-- An instruction without targets stays as it is when targets are renamed. -/
theorem map_of_isIndependent {τ : Type} (f : τ → τ) (instruction : Instruction τ)
    (independent : instruction.isIndependent = true) : instruction.map f = instruction := by
  obtain ⟨opcode, operand⟩ := instruction
  cases operand with
  | fixed bytes => rfl
  | _ => cases independent

/-- An instruction without targets fits its shape. -/
theorem fits_of_isIndependent {τ : Type} (instruction : Instruction τ)
    (independent : instruction.isIndependent = true) : instruction.Fits := by
  obtain ⟨opcode, operand⟩ := instruction
  cases operand with
  | fixed bytes => exact independent
  | _ => cases independent

end Instruction

namespace Stream

/-- Groups have been put into a stream. -/
structure Extends (stream original : Stream) : Prop where
  instructions : stream.instructions = original.instructions
  landmarks : stream.landmarks = original.landmarks
  entry : ∀ instruction ∈ stream.entry, instruction.isIndependent = true
  before : ∀ slot ∈ stream.slots, ∀ instruction ∈ slot.before, instruction.isIndependent = true
  after : ∀ slot ∈ stream.slots, ∀ instruction ∈ slot.after, instruction.isIndependent = true

/-- A stream has as many instructions of its own as slots. -/
theorem length_instructions (stream : Stream) : stream.instructions.length = stream.count := by
  simp [instructions, count]

namespace Extends

variable {original stream : Stream} (extended : stream.Extends original)
include extended

/-- What extends a stream has as many labels. -/
theorem count_eq : stream.count = original.count := by
  rw [← length_instructions, extended.instructions, length_instructions]

/-- What extends a stream has its labels at the same offsets. -/
theorem labelAt_eq (offset : Nat) : stream.labelAt offset = original.labelAt offset := by
  rw [labelAt, labelAt, extended.landmarks]

/-- What stands in the flat list was put in or was there before. -/
theorem isIndependent_or_mem (instruction : Instruction Label)
    (member : instruction ∈ stream.flat) :
    instruction.isIndependent = true ∨ instruction ∈ original.instructions := by
  rw [flat, List.mem_append, List.mem_flatMap] at member
  obtain first | ⟨slot, inside, member⟩ := member
  · exact .inl (extended.entry instruction first)
  · rw [Slot.all, List.mem_append, List.mem_cons] at member
    obtain earlier | rfl | later := member
    · exact .inl (extended.before slot inside instruction earlier)
    · rw [← extended.instructions]
      exact .inr (List.mem_map_of_mem inside)
    · exact .inl (extended.after slot inside instruction later)

/-- Every instruction of the flat list fits. -/
theorem fits {lengths : List Nat} (decoded : original.IsDecoded lengths) :
    ∀ instruction ∈ stream.flat, instruction.Fits := by
  intro instruction member
  obtain independent | present := extended.isIndependent_or_mem instruction member
  · exact instruction.fits_of_isIndependent independent
  · exact decoded.fits instruction present

/-- The targets in the flat list are labels of the original. -/
theorem inside {lengths : List Nat} (decoded : original.IsDecoded lengths) :
    ∀ instruction ∈ stream.flat, ∀ label ∈ instruction.targets, label ≤ original.count := by
  intro instruction member label target
  obtain independent | present := extended.isIndependent_or_mem instruction member
  · rw [instruction.targets_of_isIndependent independent] at target
    cases target
  · exact decoded.inside instruction present label target

end Extends

/-! ## Blocks -/

/-- Behind the block of a label stands that of the next one. -/
theorem landing_succ (stream : Stream) (label : Nat) (slot : Slot)
    (here : stream.slots[label]? = some slot) :
    stream.landing (label + 1) = stream.landing label + slot.all.length := by
  have split : stream.slots.take (label + 1) = stream.slots.take label ++ [slot] := by
    rw [List.take_add_one, here, Option.toList_some]
  simp only [landing, split, List.flatMap_append, List.flatMap_cons, List.flatMap_nil,
    List.append_nil, List.length_append]
  omega

/-- Each label but the last one has a slot. -/
theorem exists_slot (stream : Stream) (label : Nat) (inside : label < stream.count) :
    ∃ slot, stream.slots[label]? = some slot :=
  ⟨_, List.getElem?_eq_getElem inside⟩

/-- A slot has at least its own instruction, so the next label lands further on. -/
theorem landing_lt_succ (stream : Stream) (label : Nat) (inside : label < stream.count) :
    stream.landing label < stream.landing (label + 1) := by
  obtain ⟨slot, here⟩ := stream.exists_slot label inside
  rw [stream.landing_succ label slot here, Slot.all, List.length_append, List.length_cons]
  omega

/-- Blocks stand in the order of their labels. -/
theorem landing_lt (stream : Stream) (first second : Nat) (before : first < second)
    (inside : second ≤ stream.count) : stream.landing first < stream.landing second := by
  induction second with
  | zero => omega
  | succ second inductionHypothesis =>
    have next := stream.landing_lt_succ second (by omega)
    obtain same | earlier := Nat.eq_or_lt_of_le (Nat.le_of_lt_succ before)
    · rw [same]
      exact next
    · have less := inductionHypothesis earlier (by omega)
      omega

/-- Labels land in their order. -/
theorem landing_le_landing (stream : Stream) (first second : Nat) (ordered : first ≤ second)
    (inside : second ≤ stream.count) : stream.landing first ≤ stream.landing second := by
  obtain same | before := Nat.eq_or_lt_of_le ordered
  · exact Nat.le_of_eq (congrArg stream.landing same)
  · exact Nat.le_of_lt (stream.landing_lt first second before inside)

/-- Positions that come first get smaller offsets. -/
theorem offsetAt_lt (stream : Stream) (first second : Nat) (before : first < second)
    (inside : second ≤ stream.flat.length) : stream.offsetAt first < stream.offsetAt second := by
  rw [offsetAt_eq_sum, offsetAt_eq_sum]
  rw [← length_sizes] at inside
  exact sum_take_lt stream.sizes stream.sizes_pos first second before inside

/-- The positions of the block of a label. -/
def InBlock (stream : Stream) (label position : Nat) : Prop :=
  stream.landing label ≤ position ∧ position < stream.landing (label + 1)

/-- A block stands behind another label or in front of it as its own label does. -/
theorem InBlock.landing_le_iff {stream : Stream} {label position : Nat}
    (here : stream.InBlock label position) (inside : label < stream.count) (other : Nat)
    (bound : other ≤ stream.count) : stream.landing other ≤ position ↔ other ≤ label := by
  obtain ⟨above, below⟩ := here
  constructor
  · intro reached
    by_contra behind
    have later := stream.landing_le_landing (label + 1) other (by omega) bound
    omega
  · intro ordered
    exact Nat.le_trans (stream.landing_le_landing other label ordered (by omega)) above

/-- Everything behind the entry group stands in some block. -/
theorem exists_block (stream : Stream) (position : Nat) (behind : stream.landing 0 ≤ position)
    (inside : position < stream.flat.length) :
    ∃ label, label < stream.count ∧ stream.InBlock label position := by
  rw [← landing_count] at inside
  have search (bound : Nat) (small : bound ≤ stream.count)
      (below : position < stream.landing bound) :
      ∃ label, label < bound ∧ stream.InBlock label position := by
    induction bound with
    | zero => omega
    | succ bound inductionHypothesis =>
      by_cases earlier : position < stream.landing bound
      · obtain ⟨label, less, here⟩ := inductionHypothesis (by omega) earlier
        exact ⟨label, by omega, here⟩
      · exact ⟨bound, by omega, by omega, below⟩
  exact search stream.count (Nat.le_refl _) inside

/-! ## No groups -/

/-- The slots of a stream that does not differ from what was decoded. -/
theorem slots_of_unmodified (stream : Stream) (unmodified : stream.isModified = false) :
    stream.entry = [] ∧ stream.slots = stream.instructions.map Slot.bare := by
  rw [isModified, Bool.or_eq_false_iff, Bool.or_eq_false_iff] at unmodified
  obtain ⟨⟨-, entry⟩, bare⟩ := unmodified
  rw [Bool.not_eq_false', List.isEmpty_iff] at entry
  rw [Bool.not_eq_false', List.all_eq_true] at bare
  refine ⟨entry, ?_⟩
  rw [instructions, List.map_map]
  conv_lhs => rw [← List.map_id stream.slots]
  apply List.map_congr_left
  intro slot member
  obtain ⟨before, after⟩ : slot.before = [] ∧ slot.after = [] := by
    simpa [Slot.isBare] using bare slot member
  obtain ⟨_, instruction, _⟩ := slot
  subst before after
  rfl

/-- Bare slots hold their instructions and nothing else. -/
theorem flatMap_all_bare (instructions : List (Instruction Label)) :
    (instructions.map Slot.bare).flatMap Slot.all = instructions := by
  simp [List.flatMap_map, Slot.all, Slot.bare]

/-- Without groups the flat list holds just the instructions. -/
theorem flat_of_bare (stream : Stream) (entry : stream.entry = [])
    (slots : stream.slots = stream.instructions.map Slot.bare) :
    stream.flat = stream.instructions := by
  rw [flat, entry, slots, flatMap_all_bare, List.nil_append]

/-- Without groups every label stands at its own position. -/
theorem landing_of_bare (stream : Stream) (entry : stream.entry = [])
    (slots : stream.slots = stream.instructions.map Slot.bare) (label : Nat)
    (inside : label ≤ stream.count) : stream.landing label = label := by
  rw [landing, entry, slots, ← List.map_take, flatMap_all_bare, List.length_take,
    length_instructions, List.length_nil]
  omega

/-- Without groups every instruction stays at its position. -/
theorem instructions_of_unmodified {original stream : Stream} {lengths : List Nat}
    (decoded : original.IsDecoded lengths) (extended : stream.Extends original)
    (unmodified : stream.isModified = false) :
    original.instructions = stream.flat.map (Instruction.map stream.landing) := by
  obtain ⟨entry, slots⟩ := stream.slots_of_unmodified unmodified
  have flat := (stream.flat_of_bare entry slots).trans extended.instructions
  have landing (label : Nat) (inside : label ≤ original.count) : stream.landing label = label := by
    rw [← extended.count_eq] at inside
    exact stream.landing_of_bare entry slots label inside
  rw [flat]
  conv_lhs => rw [← List.map_id original.instructions]
  apply List.map_congr_left
  intro instruction member
  rw [instruction.map_congr fun label target =>
    landing label (decoded.inside _ member label target)]
  obtain ⟨opcode, operand⟩ := instruction
  cases operand <;> simp [Instruction.map, Operand.map]

/-! ## Relocation -/

/-- What the layout does to offsets: the start of an instruction goes to the start
of its block. -/
theorem relocationOf_eq_ok {original stream : Stream} {encoded : Encoded} {lengths : List Nat}
    (decoded : original.IsDecoded lengths) (extended : stream.Extends original)
    (encodes : stream.Encodes encoded) (offset target : Nat) :
    Body.relocationOf stream encoded offset = .ok target ↔
      ∃ label, original.labelAt offset = .ok label ∧
        stream.flattened.labelAt target = .ok (stream.landing label) := by
  rw [Body.relocationOf, Outcome.bind_eq_ok, extended.labelAt_eq]
  simp only [encodes.offsetOf_eq_ok, labelAt_flattened, stream.landing_le, true_and]
  constructor
  · rintro ⟨label, found, -, reached⟩
    exact ⟨label, found, reached⟩
  · rintro ⟨label, found, reached⟩
    have inside := ((decoded.labelAt_eq_ok ..).1 found).1
    exact ⟨label, found, by rw [extended.count_eq]; exact inside, reached⟩

/-- The arrangement has a label for each instruction. -/
theorem count_flattened (stream : Stream) : stream.flattened.count = stream.flat.length := by
  simp [count, flattened]

/-- The flat list is decoded code again. -/
theorem isDecoded_flattened {original stream : Stream} {lengths : List Nat}
    (decoded : original.IsDecoded lengths) (extended : stream.Extends original) :
    stream.flattened.IsDecoded stream.sizes := by
  refine
    { entry := rfl
      bare := by rw [instructions_flattened, flattened]
      fits := ?_
      inside := ?_
      positive := stream.sizes_pos
      counted := by rw [length_sizes, count_flattened]
      landmarks := rfl }
  · rw [instructions_flattened, List.forall_mem_map]
    intro instruction member
    exact (Instruction.fits_map ..).2 (extended.fits decoded instruction member)
  · rw [instructions_flattened, List.forall_mem_map, count_flattened]
    intro instruction _
    rw [Instruction.targets_map, List.forall_mem_map]
    intro label _
    exact stream.landing_le label

/-- Whether the instruction of a label begins inside a range of offsets. -/
def Covers (stream : Stream) (start stop label : Nat) : Prop :=
  ∃ offset, stream.labelAt offset = .ok label ∧ start ≤ offset ∧ offset < stop

/-- Between two landmarks are the instructions between their labels. -/
theorem IsDecoded.covers_iff {stream : Stream} {lengths : List Nat}
    (decoded : stream.IsDecoded lengths) {start stop first last label : Nat}
    (atStart : stream.labelAt start = .ok first) (atStop : stream.labelAt stop = .ok last)
    (inside : label ≤ stream.count) :
    stream.Covers start stop label ↔ first ≤ label ∧ label < last := by
  obtain ⟨offset, here⟩ := decoded.exists_offset label inside
  have above := decoded.offset_le_iff _ _ _ _ atStart here
  have below := decoded.offset_le_iff _ _ _ _ atStop here
  constructor
  · rintro ⟨other, there, within⟩
    obtain rfl := decoded.offset_unique _ _ _ here there
    omega
  · intro between
    exact ⟨offset, here, by omega, by omega⟩

/-- A range moves so that it covers a block exactly if it covered its
instruction. -/
theorem covers_iff {original stream : Stream} {encoded : Encoded} {lengths : List Nat}
    (decoded : original.IsDecoded lengths) (extended : stream.Extends original)
    (encodes : stream.Encodes encoded) {start stop newStart newStop label position : Nat}
    (startMoved : Body.relocationOf stream encoded start = .ok newStart)
    (stopMoved : Body.relocationOf stream encoded stop = .ok newStop)
    (inside : label < original.count) (block : stream.InBlock label position) :
    stream.flattened.Covers newStart newStop position ↔ original.Covers start stop label := by
  obtain ⟨first, atStart, toStart⟩ := (relocationOf_eq_ok decoded extended encodes ..).1 startMoved
  obtain ⟨last, atStop, toStop⟩ := (relocationOf_eq_ok decoded extended encodes ..).1 stopMoved
  have flattened := isDecoded_flattened decoded extended
  have firstBound := ((decoded.labelAt_eq_ok ..).1 atStart).1
  have lastBound := ((decoded.labelAt_eq_ok ..).1 atStop).1
  have positionBound : position ≤ stream.flattened.count := by
    have below := block.2
    have bound := stream.landing_le (label + 1)
    rw [count_flattened]
    omega
  rw [decoded.covers_iff atStart atStop (by omega),
    flattened.covers_iff toStart toStop positionBound]
  rw [← extended.count_eq] at inside firstBound lastBound
  have above := block.landing_le_iff inside first firstBound
  have below := block.landing_le_iff inside last lastBound
  omega

end Stream

end NullGuard
