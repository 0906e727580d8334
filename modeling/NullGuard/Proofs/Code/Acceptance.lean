import NullGuard.Proofs.Code.Edits

/-!
# Which code is accepted

The length of an instruction follows from its opcode and, for a switch, from the
bounds or the count in it. Nothing else can be wrong with its bytes: if the code
goes as far as the length says, there is an instruction to be read (`map_read`).
So the lengths alone decide whether code can be cut into instructions
(`map_cut`), and what remains is whether each displacement leads to one of them
or to the end (`decode_accepts`).
-/

namespace NullGuard

namespace Instruction

/-! ## What the length of an instruction promises -/

/-- As many bytes as there are can be split off in front. -/
theorem exists_front (bytes : List UInt8) (count : Nat) (enough : count ≤ bytes.length) :
    ∃ front rest, bytes = front ++ rest ∧ bytes.length = count + rest.length ∧
      front.length = count := by
  refine ⟨bytes.take count, bytes.drop count, (List.take_append_drop count bytes).symm, ?_,
    List.length_take_of_le enough⟩
  rw [List.length_drop]
  omega

/-- Any two bytes are those of a number. -/
theorem exists_short (bytes : List UInt8) (two : bytes.length = 2) :
    ∃ word, bytes = Written.u16 word := by
  match bytes, two with
  | [high, low], _ => exact ⟨_, (Reader.takes_u16 [high, low] _).1 fun _ => rfl⟩

/-- Enough bytes begin with a word. -/
theorem exists_word_front (bytes : List UInt8) (enough : 4 ≤ bytes.length) :
    ∃ (word : Int32) (rest : List UInt8), bytes = Written.i32 word ++ rest ∧
      bytes.length = 4 + rest.length := by
  obtain ⟨front, rest, rfl, size, four⟩ := exists_front bytes 4 enough
  obtain ⟨word, rfl⟩ := Reader.exists_word front four
  exact ⟨word.toInt32, rest, by simp [Written.i32], size⟩

/-- Enough bytes begin with a displacement. -/
theorem exists_displacement (bytes : List UInt8) (enough : 4 ≤ bytes.length) :
    ∃ displacement rest, bytes = writtenDisplacement displacement ++ rest ∧
      bytes.length = 4 + rest.length ∧ Operand.IsWord displacement := by
  obtain ⟨word, rest, rfl, size⟩ := exists_word_front bytes enough
  have low := word.le_toInt
  have high := word.toInt_lt
  refine ⟨word.toInt, rest, ?_, size, by omega, by omega⟩
  rw [writtenDisplacement, Int32.ofInt_toInt]

/-- Enough bytes begin with a case of a lookup switch. -/
theorem exists_case (bytes : List UInt8) (enough : 8 ≤ bytes.length) :
    ∃ (pair : Int32 × Int) (rest : List UInt8), bytes = writtenCase pair ++ rest ∧
      bytes.length = 8 + rest.length ∧ Operand.IsWord pair.2 := by
  obtain ⟨key, behind, rfl, size⟩ := exists_word_front bytes (by omega)
  obtain ⟨displacement, rest, rfl, later, fits⟩ := exists_displacement behind (by omega)
  exact ⟨(key, displacement), rest, by rw [writtenCase, List.append_assoc], by omega, fits⟩

/-- Enough bytes begin with rows, if the bytes of one row can be anything. -/
theorem exists_rows_front {α : Type} (written : α → List UInt8) {Fits : α → Prop} (width : Nat)
    (exists_row : ∀ bytes : List UInt8, width ≤ bytes.length →
      ∃ row rest, bytes = written row ++ rest ∧ bytes.length = width + rest.length ∧ Fits row)
    (count : Nat) (bytes : List UInt8) (enough : width * count ≤ bytes.length) :
    ∃ (rows : List α) (rest : List UInt8), bytes = rows.flatMap written ++ rest ∧
      rows.length = count ∧ ∀ row ∈ rows, Fits row := by
  induction count generalizing bytes with
  | zero => exact ⟨[], bytes, rfl, rfl, by simp⟩
  | succ count inductionHypothesis =>
    rw [Nat.mul_succ] at enough
    obtain ⟨row, behind, rfl, size, fits⟩ := exists_row bytes (by omega)
    obtain ⟨rows, rest, rfl, counted, fit⟩ := inductionHypothesis behind (by omega)
    refine ⟨row :: rows, rest, ?_, by rw [List.length_cons, counted], ?_⟩
    · rw [List.flatMap_cons, List.append_assoc]
    · exact List.forall_mem_cons.2 ⟨fits, fit⟩

/-- Enough bytes behind the opcode of a switch begin with its padding, its default and a
bound or a count. -/
theorem exists_switch_front (offset : Nat) (bytes : List UInt8)
    (enough : padding offset + 8 ≤ bytes.length) :
    ∃ gap default word rest, gap.length = padding offset ∧
      bytes = gap ++ (writtenDisplacement default ++ (Written.i32 word ++ rest)) ∧
      bytes.length = padding offset + 8 + rest.length ∧ Operand.IsWord default := by
  obtain ⟨gap, behind, rfl, size, padded⟩ := exists_front bytes (padding offset) (by omega)
  obtain ⟨default, behind, rfl, later, fits⟩ := exists_displacement behind (by omega)
  obtain ⟨word, rest, rfl, last⟩ := exists_word_front behind (by omega)
  exact ⟨gap, default, word, rest, padded, rfl, by omega, fits⟩

/-- A word can be read only where four bytes are. -/
theorem le_length_of_wordAt (place : Nat) (code : List UInt8) (word : Int)
    (ran : Opcode.wordAt place code = .ok word) : place + 4 ≤ code.length := by
  rw [Opcode.wordAt] at ran
  split at ran
  next a b c d rest here =>
    have size := congrArg List.length here
    simp only [List.length_drop, List.length_cons] at size
    omega
  next => cases ran

/-- What a table switch works on is there, if the code reaches as far as its bounds say. -/
theorem exists_taken_tableSwitch (offset length : Nat) (opcode : UInt8) (operands : List UInt8)
    (measured : Opcode.lengthOf offset (opcode :: operands) .tableSwitch = .ok length)
    (inside : length ≤ operands.length + 1) :
    ∃ front rest operand, operands = front ++ rest ∧
      (readOperand offset length .tableSwitch).Takes front operand := by
  obtain ⟨_, -, others⟩ := (Outcome.bind_eq_ok ..).1 measured
  obtain ⟨last, bound, -⟩ := (Outcome.bind_eq_ok ..).1 others
  have header := le_length_of_wordAt _ _ _ bound
  rw [List.length_cons] at header
  obtain ⟨gap, default, low, behind, padded, rfl, size, fits⟩ :=
    exists_switch_front offset operands (by omega)
  obtain ⟨high, behind, rfl, later⟩ := exists_word_front behind (by omega)
  obtain ⟨-, -, rfl⟩ := (lengthOf_tableSwitch _ _ _ _ _ _ _ _ padded).1 measured
  obtain ⟨targets, rest, rfl, counted, fit⟩ := exists_rows_front writtenDisplacement
    4 exists_displacement (high.toInt - low.toInt + 1).toNat behind (by omega)
  refine ⟨Operand.form gap (.tableSwitch default low high targets), rest,
    .tableSwitch default low high targets, by simp [Operand.form], ?_⟩
  exact (takes_tableSwitch ..).2 ⟨_, low, high, targets, rfl, counted,
    (inReach_tableSwitch ..).2 ⟨fits, fit⟩, gap, padded, rfl⟩

/-- What a lookup switch works on is there, if the code reaches as far as its count says. -/
theorem exists_taken_lookupSwitch (offset length : Nat) (opcode : UInt8) (operands : List UInt8)
    (measured : Opcode.lengthOf offset (opcode :: operands) .lookupSwitch = .ok length)
    (inside : length ≤ operands.length + 1) :
    ∃ front rest operand, operands = front ++ rest ∧
      (readOperand offset length .lookupSwitch).Takes front operand := by
  obtain ⟨last, bound, -⟩ := (Outcome.bind_eq_ok ..).1 measured
  have header := le_length_of_wordAt _ _ _ bound
  rw [List.length_cons] at header
  obtain ⟨gap, default, count, behind, padded, rfl, size, fits⟩ :=
    exists_switch_front offset operands (by omega)
  obtain ⟨-, rfl⟩ := (lengthOf_lookupSwitch _ _ _ _ _ _ _ padded).1 measured
  obtain ⟨pairs, rest, rfl, counted, fit⟩ := exists_rows_front writtenCase
    8 exists_case count.toInt.toNat behind (by omega)
  refine ⟨gap ++ (writtenDisplacement default ++ (Written.i32 count ++
    pairs.flatMap writtenCase)), rest, .lookupSwitch default pairs, by simp, ?_⟩
  exact (takes_lookupSwitch ..).2 ⟨_, pairs, rfl, (inReach_lookupSwitch ..).2 ⟨fits, fit⟩,
    gap, count, padded, counted, rfl⟩

/-- The operand of an instruction is there, if the code reaches as far as its length. -/
theorem exists_taken (offset length : Nat) (opcode : UInt8) (operands : List UInt8)
    (shape : OperandShape)
    (measured : Opcode.lengthOf offset (opcode :: operands) shape = .ok length)
    (inside : length ≤ operands.length + 1) :
    ∃ front rest operand, operands = front ++ rest ∧
      (readOperand offset length shape).Takes front operand := by
  cases shape with
  | fixed size =>
    obtain ⟨front, rest, rfl, -, taken⟩ := exists_front operands (length - 1) (by omega)
    exact ⟨front, rest, .fixed front, rfl,
      (takes_fixed offset length _ (.inl ⟨size, rfl⟩) ..).2 ⟨rfl, taken⟩⟩
  | widened =>
    obtain ⟨front, rest, rfl, -, taken⟩ := exists_front operands (length - 1) (by omega)
    exact ⟨front, rest, .fixed front, rfl,
      (takes_fixed offset length _ (.inr rfl) ..).2 ⟨rfl, taken⟩⟩
  | shortBranch =>
    obtain rfl : 3 = length := Except.ok.inj measured
    obtain ⟨front, rest, rfl, -, two⟩ := exists_front operands 2 (by omega)
    obtain ⟨word, rfl⟩ := exists_short front two
    refine ⟨Written.u16 word, rest, .branch word.toInt16.toInt, rfl, ?_⟩
    rw [readOperand, bind_pure_comp, Reader.takes_map]
    exact ⟨word, (Reader.takes_u16 ..).2 rfl, rfl⟩
  | wideBranch =>
    obtain rfl : 5 = length := Except.ok.inj measured
    obtain ⟨displacement, rest, rfl, -, fits⟩ := exists_displacement operands (by omega)
    refine ⟨writtenDisplacement displacement, rest, .wideBranch displacement, rfl, ?_⟩
    refine (takes_wideBranch ..).2 ⟨displacement, rfl, ?_, rfl⟩
    simpa [Operand.InReach, Operand.targets] using fits
  | tableSwitch => exact exists_taken_tableSwitch offset length opcode operands measured inside
  | lookupSwitch => exact exists_taken_lookupSwitch offset length opcode operands measured inside

end Instruction

/-- The length of the instruction that begins `code` and stands at `offset`, if the
code goes that far. -/
def Opcode.lengthWithin (offset : Nat) (code : List UInt8) : Except Failure Nat := do
  let length ← lengthAt offset code
  if code.length < length then fail (.instructionOverrun offset)
  return length

namespace Instruction

/-- The length of an instruction is all that can be wrong with it: an instruction is
read exactly if its length can be determined and the code goes that far, and otherwise
that is what is reported. -/
theorem map_read (offset : Nat) (code : List UInt8) :
    (read offset code).map Prod.snd = Opcode.lengthWithin offset code := by
  cases code with
  | nil => rfl
  | cons opcode operands =>
    rw [Opcode.lengthWithin, Opcode.lengthAt]
    cases shaped : Opcode.shape? opcode with
    | none =>
      simp only [read, shaped]
      rfl
    | some shape =>
      cases measured : Opcode.lengthOf offset (opcode :: operands) shape with
      | error failure =>
        simp only [read, shaped, measured]
        rfl
      | ok length =>
        by_cases inside : length ≤ operands.length + 1
        · obtain ⟨front, rest, operand, split, taken⟩ :=
            exists_taken offset length opcode operands shape measured inside
          have ran : read offset (opcode :: operands) = .ok (⟨opcode, operand⟩, length) :=
            (read_steps ..).2 ⟨rfl, shape, shaped, measured, inside, front, rest, split, taken⟩
          have within : ¬ (opcode :: operands).length < length := by
            rw [List.length_cons]
            omega
          -- Not `simp`: it would open the reader on the left, whose result is known.
          rw [ran]
          show Except.ok length = Opcode.lengthOf offset (opcode :: operands) shape >>= _
          rw [measured]
          simp only [bind, Except.bind, if_neg within]
          rfl
        · have beyond : (opcode :: operands).length < length := by
            rw [List.length_cons]
            omega
          have short : ((opcode :: operands).take length).length ≠ length := by
            rw [List.length_take]
            omega
          simp only [read, shaped, measured, bind, Except.bind, if_pos beyond, if_pos short]
          rfl

end Instruction

namespace Stream

/-! ## The lengths alone -/

/-- The lengths of the instructions that the code from an offset on consists of,
found from the opcodes and from the bounds and counts of switches. The given number
of bytes belongs to the instruction in front. -/
def measureFrom : Nat → Nat → List UInt8 → Except Failure (List Nat)
  | _, _, [] => .ok []
  | skip + 1, offset, _ :: rest => measureFrom skip (offset + 1) rest
  | 0, offset, byte :: rest => do
    let length ← Opcode.lengthWithin offset (byte :: rest)
    return length :: (← measureFrom (length - 1) (offset + 1) rest)

/-- The lengths of the instructions that some code consists of. -/
def measure (code : List UInt8) : Except Failure (List Nat) := measureFrom 0 0 code

/-- The cutter finds instructions of these lengths or fails for the same reason. -/
theorem map_cutFrom (skip offset : Nat) (found : List Found) (code : List UInt8) :
    (cutFrom skip offset found code).map (List.map Found.length) =
      (measureFrom skip offset code).map (found.reverse.map Found.length ++ ·) := by
  induction code generalizing skip offset found with
  | nil => simp [cutFrom, measureFrom, Except.map]
  | cons byte rest inductionHypothesis =>
    cases skip with
    | succ skip => exact inductionHypothesis skip (offset + 1) found
    | zero =>
      have length := Instruction.map_read offset (byte :: rest)
      rw [cutFrom, measureFrom, ← length]
      cases Instruction.read offset (byte :: rest) with
      | error failure => rfl
      | ok result =>
        -- The rest of the instruction is passed over by both in the same way.
        obtain ⟨instruction, length⟩ := result
        refine (inductionHypothesis (length - 1) (offset + 1) _).trans ?_
        simp only [Except.map, bind, Except.bind]
        cases measureFrom (length - 1) (offset + 1) rest with
        | error failure => rfl
        | ok lengths => simp [pure, Except.pure]

/-- The lengths of the instructions are all that cutting depends on. -/
theorem map_cut (code : List UInt8) : (cut code).map (List.map Found.length) = measure code := by
  rw [cut, map_cutFrom, measure]
  cases measureFrom 0 0 code <;> rfl

/-! ## Boundaries -/

/-- The offsets at which the instructions of some code begin, and its end. -/
def boundaries (code : List UInt8) (founds : List Found) : List Nat :=
  founds.map Found.offset ++ [code.length]

/-- In front of a boundary stand as many bytes as its instructions have. -/
theorem getElem?_boundaries {code : List UInt8} {founds : List Found} (cut : Cut 0 code founds)
    (label offset : Nat) :
    (boundaries code founds)[label]? = some offset ↔
      label ≤ founds.length ∧ offset = ((founds.map Found.length).take label).sum := by
  rw [boundaries]
  obtain inside | rfl | outside := Nat.lt_trichotomy label founds.length
  · have here := List.getElem?_eq_getElem inside
    have starts := cut.offset_eq label _ here
    rw [Nat.zero_add] at starts
    rw [List.getElem?_append_left (by simpa using inside), List.getElem?_map, here,
      Option.map_some, starts, Option.some.injEq]
    constructor
    · rintro rfl
      exact ⟨Nat.le_of_lt inside, rfl⟩
    · rintro ⟨-, rfl⟩
      rfl
  · have whole : (founds.map Found.length).take founds.length = founds.map Found.length :=
      List.take_of_length_le (by simp)
    rw [List.getElem?_append_right (by simp), whole, cut.sum_length]
    simp [eq_comm]
  · rw [List.getElem?_eq_none (by simp; omega)]
    constructor
    · intro impossible
      cases impossible
    · rintro ⟨bound, -⟩
      omega

/-- What is said about a displacement that leads to no boundary. -/
def strayTarget (offset : Nat) (displacement : Int) : Cause :=
  if (offset : Int) + displacement < 0 then .negativeTarget offset (offset + displacement)
  else .notAnInstruction ((offset : Int) + displacement).toNat

/-- An instruction with each displacement replaced by the label of the boundary that it
leads to. -/
structure Labelled (code : List UInt8) (founds : List Found) (found : Found)
    (instruction : Instruction Label) : Prop where
  same : instruction.map (fun _ => ()) = found.instruction.map (fun _ => ())
  targets : List.Forall₂ (fun (displacement : Int) (label : Label) => ∃ boundary : Nat,
      (boundaries code founds)[label]? = some boundary ∧
        (boundary : Int) = found.offset + displacement)
    found.instruction.targets instruction.targets

/-- A displacement that leads to a boundary gets its label. -/
theorem targetOf_eq_ok_iff {code : List UInt8} {founds : List Found} (cut : Cut 0 code founds)
    (offset label : Nat) (displacement : Int) :
    targetOf (landmarksOf (founds.map Found.length)) offset displacement = .ok label ↔
      ∃ boundary, (boundaries code founds)[label]? = some boundary ∧
        (boundary : Int) = offset + displacement := by
  rw [targetOf_eq_ok _ cut.length_pos, List.length_map]
  simp only [getElem?_boundaries cut]
  constructor
  · rintro ⟨inside, reached⟩
    exact ⟨_, ⟨inside, rfl⟩, reached.symm⟩
  · rintro ⟨boundary, ⟨inside, rfl⟩, reached⟩
    exact ⟨inside, reached.symm⟩

/-- A displacement that leads to no boundary is reported. -/
theorem failure_of_targetOf (landmarks : Array (Option Label)) (offset : Nat) (displacement : Int)
    (failure : Failure) (ran : targetOf landmarks offset displacement = .error failure) :
    failure = Failure.of (strayTarget offset displacement) := by
  rw [targetOf] at ran
  rw [strayTarget]
  split at ran
  next negative =>
    rw [if_pos negative]
    exact (Except.error.inj ran).symm
  next inside =>
    rw [if_neg inside]
    rw [labelIn] at ran
    split at ran
    next => cases ran
    next => exact (Except.error.inj ran).symm

/-- The stream of some code: its instructions, with a label for each displacement. -/
structure IsStreamOf (stream : Stream) (code : List UInt8) (founds : List Found) : Prop where
  entry : stream.entry = []
  bare : stream.slots = stream.instructions.map Slot.bare
  instructions : List.Forall₂ (Labelled code founds) founds stream.instructions
  labelAt : ∀ offset label, stream.labelAt offset = .ok label ↔
    (boundaries code founds)[label]? = some offset

/-- What is decoded is the cut of the code. -/
theorem isStreamOf_of_decode (code : List UInt8) (stream : Stream)
    (decoded : decode code = .ok stream) :
    ∃ founds, Cut 0 code founds ∧ stream.IsStreamOf code founds := by
  obtain ⟨founds, cut, decoded⟩ := (Outcome.bind_eq_ok ..).1 decoded
  obtain ⟨instructions, replaced, returned⟩ := (Outcome.bind_eq_ok ..).1 decoded
  obtain rfl := Except.ok.inj returned
  rw [cut_eq_ok] at cut
  have same : Stream.instructions ⟨[], instructions.map Slot.bare,
      landmarksOf (founds.map Found.length), false⟩ = instructions := by
    simp [Stream.instructions, Slot.bare, Function.comp_def]
  refine ⟨founds, cut, rfl, by rw [same], ?_, ?_⟩
  · rw [same]
    refine ((Outcome.mapM_eq_ok ..).1 replaced).imp fun found instruction read => ?_
    obtain ⟨shape, targets⟩ := Instruction.of_traverse _ _ _ read
    exact ⟨shape, targets.imp fun displacement label => (targetOf_eq_ok_iff cut ..).1⟩
  · intro offset label
    rw [Stream.labelAt, labelIn_landmarksOf _ cut.length_pos, List.length_map,
      getElem?_boundaries cut]

/-- Decoding goes through if every displacement leads to a boundary. -/
theorem exists_decode {code : List UInt8} {founds : List Found} (cut : Cut 0 code founds)
    (leads : ∀ found ∈ founds, ∀ displacement ∈ found.instruction.targets,
      ∃ boundary ∈ boundaries code founds, (boundary : Int) = found.offset + displacement) :
    ∃ stream, decode code = .ok stream := by
  have labelled : ∀ found ∈ founds, ∃ instruction, found.instruction.traverse
      (targetOf (landmarksOf (founds.map Found.length)) found.offset) = .ok instruction := by
    intro found member
    apply Instruction.exists_traverse
    intro displacement target
    obtain ⟨boundary, here, reached⟩ := leads found member displacement target
    obtain ⟨label, here⟩ := List.mem_iff_getElem?.1 here
    exact ⟨label, (targetOf_eq_ok_iff cut ..).2 ⟨boundary, here, reached⟩⟩
  obtain ⟨instructions, replaced⟩ := Outcome.exists_mapM_eq_ok _ _ labelled
  exact ⟨_, (Outcome.bind_eq_ok ..).2 ⟨founds, (cut_eq_ok ..).2 cut,
    (Outcome.bind_eq_ok ..).2 ⟨instructions, replaced, rfl⟩⟩⟩

/-- Once the lengths are known, decoding fails for nothing but a stray displacement. -/
theorem stray_of_decode {code : List UInt8} {founds : List Found} (cut : Cut 0 code founds)
    (failure : Failure) (failed : decode code = .error failure) :
    ∃ found ∈ founds, ∃ displacement ∈ found.instruction.targets,
      (∀ boundary ∈ boundaries code founds, (boundary : Int) ≠ found.offset + displacement) ∧
        failure = Failure.of (strayTarget found.offset displacement) := by
  rw [decode, (cut_eq_ok ..).2 cut] at failed
  obtain impossible | ⟨_, same, failed⟩ := (Outcome.bind_eq_error ..).1 failed
  · cases impossible
  obtain rfl := Except.ok.inj same
  obtain failed | ⟨_, _, impossible⟩ := (Outcome.bind_eq_error ..).1 failed
  · obtain ⟨found, member, failed⟩ := Outcome.exists_of_mapM_error _ _ _ failed
    obtain ⟨displacement, target, failed⟩ := Instruction.exists_of_traverse_error _ _ _ failed
    refine ⟨found, member, displacement, target, ?_, failure_of_targetOf _ _ _ _ failed⟩
    intro boundary here reached
    obtain ⟨label, here⟩ := List.mem_iff_getElem?.1 here
    rw [(targetOf_eq_ok_iff cut ..).2 ⟨boundary, here, reached⟩] at failed
    cases failed
  · cases impossible

/-- Code is accepted exactly if it is well-formed: if it can be cut from its start to its
end into instructions, each displacement of which leads to the start of one of them or
to the end. The stream then holds these instructions. Which lengths the instructions
have settles the cut, so that a displacement that leads nowhere is the only thing that
can be wrong behind the lengths. -/
theorem decode_accepts (code : List UInt8) :
    ((∃ stream, decode code = .ok stream) ↔ ∃ founds, Cut 0 code founds ∧
      ∀ found ∈ founds, ∀ displacement ∈ found.instruction.targets,
        ∃ boundary ∈ boundaries code founds, (boundary : Int) = found.offset + displacement) ∧
    (∀ stream, decode code = .ok stream →
      ∃ founds, Cut 0 code founds ∧ stream.IsStreamOf code founds) ∧
    (∀ lengths, measure code = .ok lengths →
      ∃ founds, Cut 0 code founds ∧ founds.map Found.length = lengths ∧
        ∀ failure, decode code = .error failure →
          ∃ found ∈ founds, ∃ displacement ∈ found.instruction.targets,
            (∀ boundary ∈ boundaries code founds,
              (boundary : Int) ≠ found.offset + displacement) ∧
            failure = Failure.of (strayTarget found.offset displacement)) ∧
    ∀ failure, measure code = .error failure → decode code = .error failure := by
  refine ⟨⟨?_, ?_⟩, isStreamOf_of_decode code, ?_, ?_⟩
  · rintro ⟨stream, decoded⟩
    obtain ⟨founds, cut, isStream⟩ := isStreamOf_of_decode code stream decoded
    refine ⟨founds, cut, ?_⟩
    intro found member displacement target
    obtain ⟨instruction, -, labelled⟩ := Outcome.exists_of_forall₂
      (R := fun instruction found => Labelled code founds found instruction)
      isStream.instructions.flip found member
    obtain ⟨label, -, boundary, here, reached⟩ :=
      Outcome.exists_of_forall₂ labelled.targets.flip displacement target
    exact ⟨boundary, List.mem_of_getElem? here, reached⟩
  · rintro ⟨founds, cut, leads⟩
    exact exists_decode cut leads
  · intro lengths measured
    rw [← map_cut] at measured
    cases found : Stream.cut code with
    | error failure =>
      rw [found] at measured
      cases measured
    | ok founds =>
      rw [found] at measured
      rw [cut_eq_ok] at found
      exact ⟨founds, found, Except.ok.inj measured, fun failure => stray_of_decode found failure⟩
  · intro failure measured
    rw [← map_cut] at measured
    cases found : Stream.cut code with
    | error other =>
      rw [found] at measured
      obtain rfl := Except.error.inj measured
      rw [decode, found]
      rfl
    | ok founds =>
      rw [found] at measured
      cases measured

/-- A jump into its own bytes, in front of a return. -/
def strayCode : List UInt8 := [0xa7, 0, 1, 0xb1]

/-- The loop with a switch is decoded. A jump into its own bytes is cut into instructions,
and refused for where it leads. -/
theorem decode_accepts_switchLoop :
    (∃ founds, Cut 0 switchLoopCode founds ∧ switchLoop.IsStreamOf switchLoopCode founds) ∧
    ∃ founds, Cut 0 strayCode founds ∧ founds.map Found.length = [3, 1] ∧
      ∃ found ∈ founds, ∃ displacement ∈ found.instruction.targets,
        (∀ boundary ∈ boundaries strayCode founds,
          (boundary : Int) ≠ found.offset + displacement) ∧
        Failure.of (.notAnInstruction 1) = Failure.of (strayTarget found.offset displacement) := by
  obtain ⟨-, accepted, -, -⟩ := decode_accepts switchLoopCode
  obtain ⟨-, -, stray, -⟩ := decode_accepts strayCode
  obtain ⟨founds, cut, lengths, rejected⟩ := stray [3, 1] (by decide +kernel)
  exact ⟨accepted switchLoop (by decide +kernel), founds, cut, lengths,
    rejected _ (by decide +kernel)⟩

end Stream
end NullGuard
