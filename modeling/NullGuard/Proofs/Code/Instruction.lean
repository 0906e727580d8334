import NullGuard.Code.Instruction
import NullGuard.Proofs.Bytes.Reading
import NullGuard.Proofs.Outcome

/-!
# The byte form of instructions

Which operand an opcode can have, and which bytes an instruction consists of.
The form leaves open what stands in the padding of a switch: reading skips it
and writing fills it with zeros. `read_eq_ok` says that reading accepts exactly
the forms of fitting instructions whose displacements can be written, and
`written_eq_ok` that writing yields one of these forms.
-/

namespace NullGuard

/-- Whether bytes can follow an opcode that names no target. -/
def Opcode.takesBytes (opcode : UInt8) (bytes : List UInt8) : Bool :=
  match shape? opcode with
  | some (.fixed size) => bytes.length == size
  | some .widened =>
    match bytes with
    | widened :: rest => rest.length == if widened = iinc then 4 else 2
    | [] => false
  | _ => false

namespace Operand

variable {τ σ : Type}

/-- The targets, the default of a switch before its cases. -/
def targets : Operand τ → List τ
  | .fixed _ => []
  | .branch target => [target]
  | .wideBranch target => [target]
  | .tableSwitch default _ _ targets => default :: targets
  | .lookupSwitch default pairs => default :: pairs.map Prod.snd

/-- The operand with other targets. -/
def map (f : τ → σ) : Operand τ → Operand σ
  | .fixed bytes => .fixed bytes
  | .branch target => .branch (f target)
  | .wideBranch target => .wideBranch (f target)
  | .tableSwitch default low high targets =>
    .tableSwitch (f default) low high (targets.map f)
  | .lookupSwitch default pairs =>
    .lookupSwitch (f default) (pairs.map fun (key, target) => (key, f target))

/-- Whether an opcode can have the operand. A table switch has one target for
each key between its bounds, and no switch has more cases than a signed word
can count. -/
def Fits (opcode : UInt8) : Operand τ → Prop
  | .fixed bytes => Opcode.takesBytes opcode bytes = true
  | .branch _ => Opcode.shape? opcode = some .shortBranch
  | .wideBranch _ => Opcode.shape? opcode = some .wideBranch
  | .tableSwitch _ low high targets => Opcode.shape? opcode = some .tableSwitch ∧
      (targets.length : Int) = high.toInt - low.toInt + 1 ∧ targets.length ≤ 2147483647
  | .lookupSwitch _ pairs => Opcode.shape? opcode = some .lookupSwitch ∧
      pairs.length ≤ 2147483647

/-- A displacement that two bytes can hold. -/
def IsShort (displacement : Int) : Prop := -32768 ≤ displacement ∧ displacement ≤ 32767

/-- A displacement that four bytes can hold. -/
def IsWord (displacement : Int) : Prop :=
  -2147483648 ≤ displacement ∧ displacement ≤ 2147483647

/-- Whether all displacements can be written. -/
def InReach : Operand Int → Prop
  | .branch displacement => IsShort displacement
  | other => ∀ displacement ∈ other.targets, IsWord displacement

/-- The bytes behind the opcode, with the given bytes as padding. -/
def form (gap : List UInt8) : Operand Int → List UInt8
  | .fixed bytes => bytes
  | .branch displacement => Written.u16 (Int16.ofInt displacement).toUInt16
  | .wideBranch displacement => Instruction.writtenDisplacement displacement
  | .tableSwitch default low high targets =>
    gap ++ (Instruction.writtenDisplacement default ++ (Written.i32 low ++ (Written.i32 high ++
      targets.flatMap Instruction.writtenDisplacement)))
  | .lookupSwitch default pairs =>
    gap ++ (Instruction.writtenDisplacement default ++ (Written.i32 (Int32.ofNat pairs.length) ++
      pairs.flatMap fun (key, displacement) =>
        Written.i32 key ++ Instruction.writtenDisplacement displacement))

end Operand

namespace Instruction

variable {τ σ : Type}

/-- The instruction with other targets. -/
def map (f : τ → σ) (instruction : Instruction τ) : Instruction σ :=
  ⟨instruction.opcode, instruction.operand.map f⟩

/-- Whether the operand is one that the opcode can have. -/
def Fits (instruction : Instruction τ) : Prop := instruction.operand.Fits instruction.opcode

/-- Whether the instruction names no target and has exactly the bytes that its
opcode asks for, so that it is the same wherever it stands. -/
def isIndependent (instruction : Instruction τ) : Bool :=
  match instruction.operand with
  | .fixed bytes => Opcode.takesBytes instruction.opcode bytes
  | _ => false

/-- The byte form, with the given bytes as padding. -/
def form (gap : List UInt8) (instruction : Instruction Int) : List UInt8 :=
  instruction.opcode :: instruction.operand.form gap

/-! ## Sizes -/

/-- A displacement of a switch takes four bytes. -/
theorem length_writtenDisplacement (displacement : Int) :
    (writtenDisplacement displacement).length = 4 := rfl

/-- How long an instruction is does not depend on its targets. -/
theorem size_map (f : τ → σ) (offset : Nat) (instruction : Instruction τ) :
    (instruction.map f).size offset = instruction.size offset := by
  obtain ⟨opcode, operand⟩ := instruction
  cases operand <;> simp [map, Operand.map, size]

/-- Whether an instruction fits its shape does not depend on its targets. -/
theorem fits_map (f : τ → σ) (instruction : Instruction τ) :
    (instruction.map f).Fits ↔ instruction.Fits := by
  obtain ⟨opcode, operand⟩ := instruction
  cases operand <;> simp [map, Operand.map, Fits, Operand.Fits]

/-- No instruction is empty. -/
theorem size_pos (offset : Nat) (instruction : Instruction τ) : 0 < instruction.size offset := by
  obtain ⟨opcode, operand⟩ := instruction
  cases operand <;> simp only [size] <;> omega

/-- The form has the length that the layout reckons with. -/
theorem length_form (offset : Nat) (instruction : Instruction Int) (gap : List UInt8)
    (padded : gap.length = padding offset) :
    (instruction.form gap).length = instruction.size offset := by
  obtain ⟨opcode, operand⟩ := instruction
  cases operand with
  | fixed bytes => simp [form, Operand.form, size, Nat.add_comm]
  | branch displacement => simp [form, Operand.form, size, Written.u16]
  | wideBranch displacement => simp [form, Operand.form, size, length_writtenDisplacement]
  | tableSwitch default low high targets =>
    simp [form, Operand.form, size, length_writtenDisplacement, Written.i32, Written.u32, padded,
      List.length_flatMap]
    omega
  | lookupSwitch default pairs =>
    simp [form, Operand.form, size, length_writtenDisplacement, Written.i32, Written.u32, padded,
      List.length_flatMap]
    omega

/-! ## Operands -/

/-- A displacement is read without a look at what follows. -/
instance : readDisplacement.Local := by
  unfold readDisplacement
  infer_instance

/-- A displacement of four bytes is written back as it was read. -/
theorem takes_readDisplacement (front : List UInt8) (displacement : Int) :
    readDisplacement.Takes front displacement ↔
      front = writtenDisplacement displacement ∧ Operand.IsWord displacement := by
  simp only [readDisplacement, bind_pure_comp, Reader.takes_map, Reader.takes_i32]
  constructor
  · rintro ⟨word, rfl, rfl⟩
    have low := word.le_toInt
    have high := word.toInt_lt
    rw [writtenDisplacement, Int32.ofInt_toInt]
    exact ⟨rfl, by omega, by omega⟩
  · rintro ⟨rfl, low, high⟩
    exact ⟨_, rfl, (Int32.toInt_ofInt_of_le (by omega) (by omega)).symm⟩

/-- The next case of a lookup switch. -/
def readCase : Reader (Int32 × Int) := do return (← Reader.i32, ← readDisplacement)

/-- A case of a switch is read without a look at what follows. -/
instance : readCase.Local := by
  unfold readCase
  infer_instance

/-- The bytes of a case. -/
def writtenCase (pair : Int32 × Int) : List UInt8 :=
  Written.i32 pair.1 ++ writtenDisplacement pair.2

/-- The bytes taken as a case are its byte form, with a displacement that fits. -/
theorem takes_readCase (front : List UInt8) (pair : Int32 × Int) :
    readCase.Takes front pair ↔ front = writtenCase pair ∧ Operand.IsWord pair.2 := by
  rw [readCase, Reader.takes_i32_bind]
  simp only [bind_pure_comp, Reader.takes_map, takes_readDisplacement]
  constructor
  · rintro ⟨key, back, rfl, displacement, ⟨rfl, fits⟩, rfl⟩
    exact ⟨rfl, fits⟩
  · rintro ⟨rfl, fits⟩
    exact ⟨pair.1, _, rfl, pair.2, ⟨rfl, fits⟩, rfl⟩

/-- The operand of an instruction is read without a look at what follows. -/
instance (offset length : Nat) (shape : OperandShape) :
    (readOperand offset length shape).Local := by
  cases shape <;> unfold readOperand <;> infer_instance

/-- Bytes that do not depend on a place are taken as they are. -/
theorem takes_fixed (offset length : Nat) (shape : OperandShape)
    (shaped : (∃ size, shape = .fixed size) ∨ shape = .widened) (front : List UInt8)
    (operand : Operand Int) :
    (readOperand offset length shape).Takes front operand ↔
      operand = .fixed front ∧ front.length = length - 1 := by
  have reads : readOperand offset length shape = Operand.fixed <$> Reader.bytes (length - 1) := by
    rcases shaped with ⟨size, rfl⟩ | rfl <;> simp only [readOperand, bind_pure_comp]
  simp only [reads, Reader.takes_map, Reader.takes_bytes]
  constructor
  · rintro ⟨bytes, ⟨rfl, size⟩, rfl⟩
    exact ⟨rfl, size⟩
  · rintro ⟨rfl, size⟩
    exact ⟨front, ⟨rfl, size⟩, rfl⟩

/-- The bytes taken as a short branch are the displacement in two bytes. -/
theorem takes_shortBranch (offset length : Nat) (front : List UInt8) (operand : Operand Int) :
    (readOperand offset length .shortBranch).Takes front operand ↔
      ∃ displacement, operand = .branch displacement ∧ operand.InReach ∧
        front = operand.form [] := by
  simp only [readOperand, bind_pure_comp, Reader.takes_map, Reader.takes_u16]
  constructor
  · rintro ⟨word, rfl, rfl⟩
    have low := word.toInt16.le_toInt
    have high := word.toInt16.toInt_lt
    refine ⟨_, rfl, ⟨by omega, by omega⟩, ?_⟩
    rw [Operand.form, Int16.ofInt_toInt, UInt16.toUInt16_toInt16]
  · rintro ⟨displacement, rfl, ⟨low, high⟩, rfl⟩
    refine ⟨_, rfl, ?_⟩
    rw [Int16.toInt16_toUInt16, Int16.toInt_ofInt_of_le (by omega) (by omega)]

/-- The bytes taken as a wide branch are the displacement in four bytes. -/
theorem takes_wideBranch (offset length : Nat) (front : List UInt8) (operand : Operand Int) :
    (readOperand offset length .wideBranch).Takes front operand ↔
      ∃ displacement, operand = .wideBranch displacement ∧ operand.InReach ∧
        front = operand.form [] := by
  simp only [readOperand, bind_pure_comp, Reader.takes_map, takes_readDisplacement]
  constructor
  · rintro ⟨displacement, ⟨rfl, fits⟩, rfl⟩
    exact ⟨displacement, rfl, by simpa [Operand.InReach, Operand.targets] using fits, rfl⟩
  · rintro ⟨displacement, rfl, reach, rfl⟩
    exact ⟨displacement, ⟨rfl, by simpa [Operand.InReach, Operand.targets] using reach⟩, rfl⟩

/-- A switch with a table is in reach if all its displacements are. -/
theorem inReach_tableSwitch (default : Int) (low high : Int32) (targets : List Int) :
    (Operand.tableSwitch default low high targets).InReach ↔
      Operand.IsWord default ∧ ∀ target ∈ targets, Operand.IsWord target := by
  simp only [Operand.InReach, Operand.targets, List.forall_mem_cons]

/-- A switch with pairs is in reach if all its displacements are. -/
theorem inReach_lookupSwitch (default : Int) (pairs : List (Int32 × Int)) :
    (Operand.lookupSwitch default pairs).InReach ↔
      Operand.IsWord default ∧ ∀ pair ∈ pairs, Operand.IsWord pair.2 := by
  simp only [Operand.InReach, Operand.targets, List.forall_mem_cons, List.forall_mem_map]

/-- The bytes taken as a switch with a table are some padding and its form, with as many
targets as its bounds ask for. -/
theorem takes_tableSwitch (offset length : Nat) (front : List UInt8) (operand : Operand Int) :
    (readOperand offset length .tableSwitch).Takes front operand ↔
      ∃ default low high targets, operand = .tableSwitch default low high targets ∧
        targets.length = (high.toInt - low.toInt + 1).toNat ∧ operand.InReach ∧
        ∃ gap, gap.length = padding offset ∧ front = operand.form gap := by
  simp only [readOperand, Reader.takes_skip_bind, Reader.takes_bind_of takes_readDisplacement,
    Reader.takes_i32_bind, bind_pure_comp, Reader.takes_map,
    Reader.takes_times_of takes_readDisplacement]
  constructor
  · rintro ⟨gap, _, padded, rfl, default, _, fits, rfl, low, _, rfl, high, _, rfl, targets,
      ⟨rfl, count, fit⟩, rfl⟩
    exact ⟨default, low, high, targets, rfl, count, (inReach_tableSwitch ..).2 ⟨fits, fit⟩, gap,
      padded, rfl⟩
  · rintro ⟨default, low, high, targets, rfl, count, reach, gap, padded, rfl⟩
    obtain ⟨fits, fit⟩ := (inReach_tableSwitch ..).1 reach
    exact ⟨gap, _, padded, rfl, default, _, fits, rfl, low, _, rfl, high, _, rfl, targets,
      ⟨rfl, count, fit⟩, rfl⟩

/-- The bytes taken as a switch with pairs are some padding and its form, with as many pairs
as are announced; a number below zero announces none. -/
theorem takes_lookupSwitch (offset length : Nat) (front : List UInt8) (operand : Operand Int) :
    (readOperand offset length .lookupSwitch).Takes front operand ↔
      ∃ default pairs, operand = .lookupSwitch default pairs ∧ operand.InReach ∧
        ∃ gap count, gap.length = padding offset ∧ pairs.length = Int.toNat (Int32.toInt count) ∧
          front = gap ++ (writtenDisplacement default ++ (Written.i32 count ++
            pairs.flatMap writtenCase)) := by
  have reads : readOperand offset length .lookupSwitch = do
      Reader.skip (padding offset)
      let default ← readDisplacement
      let count ← Reader.i32
      return .lookupSwitch default (← Reader.times count.toInt.toNat readCase) := rfl
  simp only [reads, Reader.takes_skip_bind, Reader.takes_bind_of takes_readDisplacement,
    Reader.takes_i32_bind, bind_pure_comp, Reader.takes_map, Reader.takes_times_of takes_readCase]
  constructor
  · rintro ⟨gap, _, padded, rfl, default, _, fits, rfl, count, _, rfl, pairs, ⟨rfl, size, fit⟩,
      rfl⟩
    exact ⟨default, pairs, rfl, (inReach_lookupSwitch ..).2 ⟨fits, fit⟩, gap, count, padded, size,
      rfl⟩
  · rintro ⟨default, pairs, rfl, reach, gap, count, padded, size, rfl⟩
    obtain ⟨fits, fit⟩ := (inReach_lookupSwitch ..).1 reach
    exact ⟨gap, _, padded, rfl, default, _, fits, rfl, count, _, rfl, pairs, ⟨rfl, size, fit⟩, rfl⟩

/-! ## Lengths -/

/-- A signed word stands where its four bytes do. -/
theorem wordAt_written (place : Nat) (code rest : List UInt8) (word : Int32)
    (here : code.drop place = Written.i32 word ++ rest) :
    Opcode.wordAt place code = .ok word.toInt := by
  have digits := Reader.u32_written word.toUInt32 rest
  simp only [Written.i32, Written.u32, List.cons_append, List.nil_append] at here digits
  simp only [Reader.u32, Except.ok.injEq, Prod.mk.injEq, and_true, Reader.ofDigits,
    List.foldl_cons, List.foldl_nil, Nat.zero_mul, Nat.zero_add] at digits
  rw [Opcode.wordAt, here]
  simp only [digits, Int32.toInt32_toUInt32]

/-- The length of a table switch follows from the bounds in it. -/
theorem lengthOf_tableSwitch (offset length : Nat) (opcode : UInt8) (gap rest : List UInt8)
    (default : Int) (low high : Int32) (padded : gap.length = padding offset) :
    Opcode.lengthOf offset (opcode :: (gap ++ (writtenDisplacement default ++ (Written.i32 low ++
        (Written.i32 high ++ rest))))) .tableSwitch = .ok length ↔
      0 ≤ high.toInt - low.toInt + 1 ∧ high.toInt - low.toInt + 1 ≤ 2147483647 ∧
        length = 1 + padding offset + 12 + 4 * (high.toInt - low.toInt + 1).toNat := by
  have lowHere := wordAt_written (1 + padding offset + 4) _ (Written.i32 high ++ rest) low
    (show (opcode :: (gap ++ (writtenDisplacement default ++ (Written.i32 low ++
      (Written.i32 high ++ rest))))).drop (1 + padding offset + 4) = _ by
        rw [show 1 + padding offset + 4 = padding offset + 4 + 1 by omega, List.drop_succ_cons,
          ← padded, ← List.drop_drop, List.drop_left]
        rfl)
  have highHere := wordAt_written (1 + padding offset + 8) _ rest high
    (show (opcode :: (gap ++ (writtenDisplacement default ++ (Written.i32 low ++
      (Written.i32 high ++ rest))))).drop (1 + padding offset + 8) = _ by
        rw [show 1 + padding offset + 8 = padding offset + 8 + 1 by omega, List.drop_succ_cons,
          ← padded, ← List.drop_drop, List.drop_left]
        rfl)
  simp only [Opcode.lengthOf, lowHere, highHere, bind, Except.bind]
  split
  next outside =>
    constructor
    · intro impossible
      cases impossible
    · rintro ⟨atLeast, atMost, -⟩
      omega
  next inside =>
    simp only [pure, Except.pure, Except.ok.injEq]
    omega

/-- The length of a lookup switch follows from the number of cases in it. -/
theorem lengthOf_lookupSwitch (offset length : Nat) (opcode : UInt8) (gap rest : List UInt8)
    (default : Int) (count : Int32) (padded : gap.length = padding offset) :
    Opcode.lengthOf offset (opcode :: (gap ++ (writtenDisplacement default ++
        (Written.i32 count ++ rest)))) .lookupSwitch = .ok length ↔
      0 ≤ count.toInt ∧ length = 1 + padding offset + 8 + 8 * count.toInt.toNat := by
  have countHere := wordAt_written (1 + padding offset + 4) _ rest count
    (show (opcode :: (gap ++ (writtenDisplacement default ++
      (Written.i32 count ++ rest)))).drop (1 + padding offset + 4) = _ by
        rw [show 1 + padding offset + 4 = padding offset + 4 + 1 by omega, List.drop_succ_cons,
          ← padded, ← List.drop_drop, List.drop_left]
        rfl)
  simp only [Opcode.lengthOf, countHere, bind, Except.bind]
  split
  next negative =>
    constructor
    · intro impossible
      cases impossible
    · rintro ⟨atLeast, -⟩
      omega
  next counted =>
    simp only [pure, Except.pure, Except.ok.injEq]
    omega

/-! ## Whole instructions -/

/-- Reading finds the opcode, its shape, the length and then the operand. -/
theorem read_steps (offset : Nat) (opcode : UInt8) (operands : List UInt8)
    (instruction : Instruction Int) (length : Nat) :
    read offset (opcode :: operands) = .ok (instruction, length) ↔
      instruction.opcode = opcode ∧ ∃ shape, Opcode.shape? opcode = some shape ∧
        Opcode.lengthOf offset (opcode :: operands) shape = .ok length ∧
        length ≤ operands.length + 1 ∧ ∃ front rest, operands = front ++ rest ∧
          (readOperand offset length shape).Takes front instruction.operand := by
  rw [read]
  cases shaped : Opcode.shape? opcode with
  | none =>
    constructor
    · intro impossible
      cases impossible
    · rintro ⟨-, shape, impossible, -⟩
      cases impossible
  | some shape =>
    simp only [Outcome.bind_eq_ok, Option.some.injEq, exists_eq_left']
    have whole (n : Nat) : ((opcode :: operands).take n).length = n ↔ n ≤ operands.length + 1 := by
      rw [List.length_take, List.length_cons]
      omega
    simp only [ne_eq, whole]
    constructor
    · rintro ⟨found, measured, taken⟩
      split at taken
      next => cases taken
      next enough =>
        obtain ⟨operand, ran, returned⟩ := (Outcome.bind_eq_ok ..).1 taken
        cases returned
        exact ⟨rfl, measured, by omega, (Reader.run'_eq_ok ..).1 ran⟩
    · rintro ⟨rfl, measured, enough, taken⟩
      refine ⟨length, measured, ?_⟩
      rw [if_neg (by omega)]
      exact (Outcome.bind_eq_ok ..).2 ⟨instruction.operand, (Reader.run'_eq_ok ..).2 taken, rfl⟩

/-- What the reader of a shape takes is the form of an operand of that shape. -/
theorem fits_of_taken (offset length : Nat) (opcode : UInt8) (shape : OperandShape)
    (front rest : List UInt8) (operand : Operand Int)
    (shaped : Opcode.shape? opcode = some shape)
    (measured : Opcode.lengthOf offset (opcode :: (front ++ rest)) shape = .ok length)
    (taken : (readOperand offset length shape).Takes front operand) :
    operand.Fits opcode ∧ operand.InReach ∧ length = size offset ⟨opcode, operand⟩ ∧
      ∃ gap, gap.length = padding offset ∧ front = operand.form gap := by
  have anyGap : (List.replicate (padding offset) (0 : UInt8)).length = padding offset := by simp
  cases shape with
  | fixed count =>
    obtain ⟨rfl, bytes⟩ := (takes_fixed offset length _ (.inl ⟨count, rfl⟩) ..).1 taken
    obtain rfl : 1 + count = length := Except.ok.inj measured
    refine ⟨?_, by simp [Operand.InReach, Operand.targets], ?_, _, anyGap, rfl⟩
    · simp only [Operand.Fits, Opcode.takesBytes, shaped, beq_iff_eq]
      omega
    · simp only [size]
      omega
  | widened =>
    obtain ⟨rfl, bytes⟩ := (takes_fixed offset length _ (.inr rfl) ..).1 taken
    cases front with
    | nil =>
      cases rest with
      | nil => cases measured
      | cons widened others =>
        simp only [List.nil_append, Opcode.lengthOf, Except.ok.injEq] at measured
        simp only [List.length_nil] at bytes
        split at measured <;> omega
    | cons widened others =>
      simp only [List.cons_append, Opcode.lengthOf, Except.ok.injEq] at measured
      simp only [List.length_cons] at bytes
      refine ⟨?_, by simp [Operand.InReach, Operand.targets], ?_, _, anyGap, rfl⟩
      · simp only [Operand.Fits, Opcode.takesBytes, shaped, beq_iff_eq]
        by_cases increment : widened = Opcode.iinc
        · simp only [increment, if_true] at measured ⊢
          omega
        · simp only [increment, if_false] at measured ⊢
          omega
      · simp only [size, List.length_cons]
        split at measured <;> omega
  | shortBranch =>
    obtain ⟨displacement, rfl, reach, rfl⟩ := (takes_shortBranch ..).1 taken
    exact ⟨shaped, reach, (Except.ok.inj measured).symm, _, anyGap, rfl⟩
  | wideBranch =>
    obtain ⟨displacement, rfl, reach, rfl⟩ := (takes_wideBranch ..).1 taken
    exact ⟨shaped, reach, (Except.ok.inj measured).symm, _, anyGap, rfl⟩
  | tableSwitch =>
    obtain ⟨default, low, high, targets, rfl, count, reach, gap, padded, rfl⟩ :=
      (takes_tableSwitch ..).1 taken
    simp only [Operand.form, List.append_assoc] at measured
    obtain ⟨atLeast, atMost, rfl⟩ := (lengthOf_tableSwitch _ _ _ _ _ _ _ _ padded).1 measured
    refine ⟨⟨shaped, by omega, by omega⟩, reach, ?_, gap, padded, rfl⟩
    simp only [size]
    omega
  | lookupSwitch =>
    obtain ⟨default, pairs, rfl, reach, gap, count, padded, counted, rfl⟩ :=
      (takes_lookupSwitch ..).1 taken
    simp only [List.append_assoc] at measured
    obtain ⟨atLeast, rfl⟩ := (lengthOf_lookupSwitch _ _ _ _ _ _ _ padded).1 measured
    have below := count.toInt_lt
    have word : count = Int32.ofNat pairs.length := by
      apply Int32.toInt.inj
      rw [Int32.toInt_ofNat_of_lt (by omega)]
      omega
    refine ⟨⟨shaped, by omega⟩, reach, ?_, gap, padded, ?_⟩
    · simp only [size]
      omega
    · rw [word]
      rfl

/-- The form of a fitting operand is taken by the reader of its shape. -/
theorem taken_of_fits (offset : Nat) (instruction : Instruction Int) (gap rest : List UInt8)
    (fits : instruction.Fits) (reach : instruction.operand.InReach)
    (padded : gap.length = padding offset) :
    ∃ shape, Opcode.shape? instruction.opcode = some shape ∧
      Opcode.lengthOf offset (instruction.form gap ++ rest) shape =
        .ok (instruction.size offset) ∧
      (readOperand offset (instruction.size offset) shape).Takes (instruction.operand.form gap)
        instruction.operand := by
  obtain ⟨opcode, operand⟩ := instruction
  cases operand with
  | fixed bytes =>
    simp only [Fits, Operand.Fits, Opcode.takesBytes] at fits
    split at fits
    next count shaped =>
      simp only [beq_iff_eq] at fits
      refine ⟨_, shaped, ?_, (takes_fixed _ _ _ (.inl ⟨count, rfl⟩) ..).2 ⟨rfl, ?_⟩⟩
      · simp only [Opcode.lengthOf, size, fits]
      · simp only [Operand.form, size]
        omega
    next shaped =>
      refine ⟨_, shaped, ?_, (takes_fixed _ _ _ (.inr rfl) ..).2 ⟨rfl, ?_⟩⟩
      · split at fits
        next widened others =>
          simp only [beq_iff_eq] at fits
          simp only [form, Operand.form, List.cons_append, Opcode.lengthOf, size, List.length_cons,
            fits, Except.ok.injEq]
          split <;> rfl
        next => cases fits
      · simp only [Operand.form, size]
        omega
    next => cases fits
  | branch displacement =>
    exact ⟨_, fits, rfl, (takes_shortBranch ..).2 ⟨displacement, rfl, reach, rfl⟩⟩
  | wideBranch displacement =>
    exact ⟨_, fits, rfl, (takes_wideBranch ..).2 ⟨displacement, rfl, reach, rfl⟩⟩
  | tableSwitch default low high targets =>
    obtain ⟨shaped, count, atMost⟩ := fits
    refine ⟨_, shaped, ?_, ?_⟩
    · simp only [form, Operand.form, List.cons_append, List.append_assoc]
      refine (lengthOf_tableSwitch _ _ _ _ _ _ _ _ padded).2 ⟨by omega, by omega, ?_⟩
      simp only [size]
      omega
    · exact (takes_tableSwitch ..).2
        ⟨default, low, high, targets, rfl, by omega, reach, gap, padded, rfl⟩
  | lookupSwitch default pairs =>
    obtain ⟨shaped, atMost⟩ := fits
    have count : (Int32.ofNat pairs.length).toInt = pairs.length :=
      Int32.toInt_ofNat_of_lt (by omega)
    refine ⟨_, shaped, ?_, ?_⟩
    · simp only [form, Operand.form, List.cons_append, List.append_assoc]
      refine (lengthOf_lookupSwitch _ _ _ _ _ _ _ padded).2 ⟨by omega, ?_⟩
      simp only [size]
      omega
    · exact (takes_lookupSwitch ..).2
        ⟨default, pairs, rfl, reach, gap, Int32.ofNat pairs.length, padded, by omega, rfl⟩

/-- Reading yields exactly the fitting instructions whose form begins the bytes. -/
theorem read_eq_ok (offset : Nat) (code : List UInt8) (instruction : Instruction Int)
    (length : Nat) :
    read offset code = .ok (instruction, length) ↔
      instruction.Fits ∧ instruction.operand.InReach ∧ length = instruction.size offset ∧
        ∃ gap rest, gap.length = padding offset ∧ code = instruction.form gap ++ rest := by
  constructor
  · intro ran
    cases code with
    | nil => cases ran
    | cons opcode operands =>
      obtain ⟨rfl, shape, shaped, measured, -, front, rest, rfl, taken⟩ := (read_steps ..).1 ran
      obtain ⟨fits, reach, size, gap, padded, rfl⟩ :=
        fits_of_taken offset length _ shape front rest _ shaped measured taken
      exact ⟨fits, reach, size, gap, rest, padded, rfl⟩
  · rintro ⟨fits, reach, rfl, gap, rest, padded, rfl⟩
    obtain ⟨shape, shaped, measured, taken⟩ :=
      taken_of_fits offset instruction gap rest fits reach padded
    have long : (instruction.operand.form gap).length + 1 = instruction.size offset :=
      length_form offset instruction gap padded
    have enough : instruction.size offset ≤
        (instruction.operand.form gap ++ rest).length + 1 := by
      rw [List.length_append]
      omega
    exact (read_steps ..).2 ⟨rfl, shape, shaped, measured, enough, _, rest, rfl, taken⟩

/-- Writing yields the form with zeros as padding, as long as a short branch
stays in reach. -/
theorem written_eq_ok (offset : Nat) (instruction : Instruction Int) (bytes : List UInt8) :
    written offset instruction = .ok bytes ↔
      (∀ displacement, instruction.operand = .branch displacement →
        Operand.IsShort displacement) ∧
      bytes = instruction.form (List.replicate (padding offset) 0) := by
  obtain ⟨opcode, operand⟩ := instruction
  cases operand with
  | branch displacement =>
    simp only [written]
    split
    next short =>
      simp only [Except.ok.injEq, Operand.branch.injEq, forall_eq', form, Operand.form]
      exact ⟨fun same => ⟨short, same.symm⟩, fun ⟨_, same⟩ => same.symm⟩
    next long =>
      constructor
      · intro impossible
        cases impossible
      · rintro ⟨short, -⟩
        exact absurd (short displacement rfl) long
  | fixed bytes => simp [written, form, Operand.form, eq_comm]
  | wideBranch displacement => simp [written, form, Operand.form, eq_comm]
  | tableSwitch default low high targets => simp [written, form, Operand.form, eq_comm]
  | lookupSwitch default pairs => simp [written, form, Operand.form, eq_comm]

end Instruction

end NullGuard
