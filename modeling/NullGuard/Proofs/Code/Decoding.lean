import NullGuard.Proofs.Code.Arrangement

/-!
# Decoded streams

What a stream looks like that was decoded from bytes: no groups, instructions
that fit their opcodes, targets that stay inside the code, and landmarks at the
starts of the instructions and at the end. Labels and offsets are then in the
same order, so a stretch of code between two landmarks covers the instructions
between the two labels.
-/

namespace NullGuard.Stream

/-! ## Sums of lengths -/

/-- Starts of instructions increase strictly with their labels. -/
theorem sum_take_lt (lengths : List Nat) (positive : ∀ length ∈ lengths, 0 < length)
    (first second : Nat) (before : first < second) (inside : second ≤ lengths.length) :
    (lengths.take first).sum < (lengths.take second).sum := by
  induction lengths generalizing first second with
  | nil =>
    rw [List.length_nil] at inside
    omega
  | cons length others inductionHypothesis =>
    obtain ⟨here, rest⟩ := List.forall_mem_cons.1 positive
    rw [List.length_cons] at inside
    cases second with
    | zero => omega
    | succ second =>
      cases first with
      | zero =>
        simp only [List.take_zero, List.sum_nil, List.take_succ_cons, List.sum_cons]
        omega
      | succ first =>
        have later := inductionHypothesis rest first second (by omega) (by omega)
        simp only [List.take_succ_cons, List.sum_cons]
        omega

/-- Positions are ordered as the offsets at them, because no instruction is empty. -/
theorem sum_take_lt_iff (lengths : List Nat) (positive : ∀ length ∈ lengths, 0 < length)
    (first second : Nat) (firstInside : first ≤ lengths.length)
    (secondInside : second ≤ lengths.length) :
    (lengths.take first).sum < (lengths.take second).sum ↔ first < second := by
  constructor
  · intro less
    by_contra notBefore
    obtain same | after := Nat.eq_or_lt_of_le (Nat.le_of_not_lt notBefore)
    · rw [same] at less
      exact Nat.lt_irrefl _ less
    · have greater := sum_take_lt lengths positive second first after firstInside
      omega
  · intro before
    exact sum_take_lt lengths positive first second before secondInside

/-- The same for positions that may be equal. -/
theorem sum_take_le_iff (lengths : List Nat) (positive : ∀ length ∈ lengths, 0 < length)
    (first second : Nat) (firstInside : first ≤ lengths.length)
    (secondInside : second ≤ lengths.length) :
    (lengths.take first).sum ≤ (lengths.take second).sum ↔ first ≤ second := by
  have strict := sum_take_lt_iff lengths positive second first secondInside firstInside
  omega

/-! ## What decoding yields -/

/-- What a decoded stream is like, given the lengths of its instructions in the
bytes. -/
structure IsDecoded (stream : Stream) (lengths : List Nat) : Prop where
  entry : stream.entry = []
  bare : stream.slots = stream.instructions.map Slot.bare
  fits : ∀ instruction ∈ stream.instructions, instruction.Fits
  inside : ∀ instruction ∈ stream.instructions, ∀ label ∈ instruction.targets,
    label ≤ stream.count
  positive : ∀ length ∈ lengths, 0 < length
  counted : lengths.length = stream.count
  landmarks : stream.landmarks = landmarksOf lengths

/-- A displacement leads to the start of an instruction or to the end. -/
theorem targetOf_eq_ok (lengths : List Nat) (positive : ∀ length ∈ lengths, 0 < length)
    (offset label : Nat) (displacement : Int) :
    targetOf (landmarksOf lengths) offset displacement = .ok label ↔
      label ≤ lengths.length ∧ (offset : Int) + displacement = (lengths.take label).sum := by
  rw [targetOf]
  split
  next negative =>
    constructor
    · intro impossible
      cases impossible
    · rintro ⟨-, reached⟩
      omega
  next inside =>
    rw [labelIn_landmarksOf _ positive]
    omega

/-- What code is decoded to has the offsets of the instructions in that code. -/
theorem isDecoded_of_decode (code : List UInt8) (stream : Stream)
    (decoded : decode code = .ok stream) :
    ∃ lengths, stream.IsDecoded lengths ∧ lengths.sum = code.length := by
  obtain ⟨founds, cut, decoded⟩ := (Outcome.bind_eq_ok ..).1 decoded
  obtain ⟨instructions, replaced, returned⟩ := (Outcome.bind_eq_ok ..).1 decoded
  obtain rfl := Except.ok.inj returned
  rw [cut_eq_ok] at cut
  have each := (Outcome.mapM_eq_ok ..).1 replaced
  have count := each.length_eq
  have same : Stream.instructions ⟨[], instructions.map Slot.bare,
      landmarksOf (founds.map Found.length), false⟩ = instructions := by
    simp [Stream.instructions, Slot.bare, Function.comp_def]
  refine ⟨founds.map Found.length, ?_, cut.sum_length⟩
  refine
    { entry := rfl
      bare := by rw [same]
      fits := ?_
      inside := ?_
      positive := cut.length_pos
      counted := by simp [Stream.count, count]
      landmarks := rfl }
  · rw [same]
    intro instruction member
    obtain ⟨found, foundMember, read⟩ :=
      Outcome.exists_of_mem_mapM _ _ _ replaced instruction member
    exact Instruction.fits_of_traverse _ _ _ read (cut.fits found foundMember)
  · rw [same]
    intro instruction member label target
    obtain ⟨found, -, read⟩ := Outcome.exists_of_mem_mapM _ _ _ replaced instruction member
    obtain ⟨-, targets⟩ := Instruction.of_traverse _ _ _ read
    obtain ⟨displacement, -, reached⟩ :=
      Outcome.exists_of_mem_mapM _ _ _ ((Outcome.mapM_eq_ok ..).2 targets) label target
    have bound := ((targetOf_eq_ok _ cut.length_pos ..).1 reached).1
    simpa [Stream.count, count] using bound

/-! ## Labels and offsets -/

namespace IsDecoded

variable {stream : Stream} {lengths : List Nat} (decoded : stream.IsDecoded lengths)
include decoded

/-- A label stands at an offset if the instructions in front of it end there. -/
theorem labelAt_eq_ok (offset label : Nat) :
    stream.labelAt offset = .ok label ↔
      label ≤ stream.count ∧ offset = (lengths.take label).sum := by
  rw [labelAt, decoded.landmarks, labelIn_landmarksOf _ decoded.positive, decoded.counted]

/-- Every label stands at some offset. -/
theorem exists_offset (label : Nat) (inside : label ≤ stream.count) :
    ∃ offset, stream.labelAt offset = .ok label :=
  ⟨_, (decoded.labelAt_eq_ok ..).2 ⟨inside, rfl⟩⟩

/-- A label stands at one offset only. -/
theorem offset_unique (label first second : Nat) (here : stream.labelAt first = .ok label)
    (there : stream.labelAt second = .ok label) : first = second := by
  rw [((decoded.labelAt_eq_ok ..).1 here).2, ((decoded.labelAt_eq_ok ..).1 there).2]

/-- Labels are in the order of their offsets. -/
theorem offset_le_iff (first second firstLabel secondLabel : Nat)
    (here : stream.labelAt first = .ok firstLabel)
    (there : stream.labelAt second = .ok secondLabel) :
    first ≤ second ↔ firstLabel ≤ secondLabel := by
  obtain ⟨firstInside, rfl⟩ := (decoded.labelAt_eq_ok ..).1 here
  obtain ⟨secondInside, rfl⟩ := (decoded.labelAt_eq_ok ..).1 there
  rw [← decoded.counted] at firstInside secondInside
  exact sum_take_le_iff lengths decoded.positive _ _ firstInside secondInside

end IsDecoded

end NullGuard.Stream
