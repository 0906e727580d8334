import NullGuard.Proofs.Code.Metadata

/-!
# Control flow around groups

Control gets from one instruction to another in three ways: it goes on to the
next one, it takes a branch, or an exception takes it to a handler. If control
passes through the groups that were put into a stream, then a block with all of
its groups has the same ways out and in as its instruction had. A block is
entered at its first instruction only, and nothing but the way from one
instruction to the next leads into the entry group.
-/

namespace NullGuard

namespace Opcode

/-- Go back to where a routine was called from. -/
def ret : UInt8 := 0xa9

/-- The opcodes behind which control does not go on: jumps that are always taken,
calls of subroutines and the ways out of them, switches, returns and throws. -/
def leaving : List UInt8 :=
  [0xa7, 0xa8, ret, 0xaa, 0xab, ireturn, 0xad, 0xae, 0xaf, areturn, vreturn, athrow, 0xc8, 0xc9]

end Opcode

namespace Instruction

/-- The opcode that says what the instruction does; a widened one stands behind
the prefix. -/
def acting {τ : Type} (instruction : Instruction τ) : UInt8 :=
  match instruction.operand with
  | .fixed (widened :: _) =>
    if instruction.opcode = Opcode.wide then widened else instruction.opcode
  | _ => instruction.opcode

/-- Whether control can go on to the next instruction. -/
def fallsThrough {τ : Type} (instruction : Instruction τ) : Bool :=
  !Opcode.leaving.contains instruction.acting

/-- What an instruction does is not changed by naming its targets otherwise. -/
theorem acting_map {τ σ : Type} (f : τ → σ) (instruction : Instruction τ) :
    (instruction.map f).acting = instruction.acting := by
  obtain ⟨opcode, operand⟩ := instruction
  cases operand with
  | fixed bytes => cases bytes <;> rfl
  | _ => rfl

/-- Whether control goes on behind an instruction does not depend on its targets. -/
theorem fallsThrough_map {τ σ : Type} (f : τ → σ) (instruction : Instruction τ) :
    (instruction.map f).fallsThrough = instruction.fallsThrough := by
  rw [fallsThrough, acting_map, fallsThrough]

end Instruction

/-- How control gets from one instruction to another. -/
inductive Transfer
  /-- It goes on to the next instruction. -/
  | next
  /-- It takes a branch or a case of a switch. -/
  | branch
  /-- An exception is thrown and handled. -/
  | handler
  deriving DecidableEq, Repr

namespace Stream

/-- Whether control can get from one position of the code to another. The end of
the code is a position of its own. -/
def Goes (stream : Stream) (handlers : List HandlerRow) (source target : Nat) : Transfer → Prop
  | .next => ∃ instruction, stream.instructions[source]? = some instruction ∧
      instruction.fallsThrough = true ∧ target = source + 1
  | .branch => ∃ instruction, stream.instructions[source]? = some instruction ∧
      target ∈ instruction.targets
  | .handler => source < stream.count ∧ ∃ row ∈ handlers,
      stream.Covers row.start.toNat row.stop.toNat source ∧
        stream.labelAt row.handler.toNat = .ok target

/-- A position belongs to the instruction of a label: it stands in its block. The
end belongs to the label behind the last instruction. -/
def Hosts (stream : Stream) (label position : Nat) : Prop :=
  (label < stream.count ∧ stream.InBlock label position) ∨
    (label = stream.count ∧ position = stream.flat.length)

/-- Control passes through every group, and it reaches the groups that stand after
an instruction. -/
structure PassesThrough (stream : Stream) : Prop where
  entry : ∀ instruction ∈ stream.entry, instruction.fallsThrough = true
  before : ∀ slot ∈ stream.slots, ∀ instruction ∈ slot.before, instruction.fallsThrough = true
  after : ∀ slot ∈ stream.slots, ∀ instruction ∈ slot.after, instruction.fallsThrough = true
  host : ∀ slot ∈ stream.slots, slot.after ≠ [] → slot.instruction.fallsThrough = true

/-! ## Hosts -/

/-- The first label lands behind the entry. -/
theorem landing_zero (stream : Stream) : stream.landing 0 = stream.entry.length := by
  simp [landing]

/-- What stands in a block is its instruction with the groups around it. -/
theorem getElem?_flat (stream : Stream) (label depth : Nat) (slot : Slot)
    (here : stream.slots[label]? = some slot) (inside : depth < slot.all.length) :
    stream.flat[stream.landing label + depth]? = slot.all[depth]? := by
  have split : stream.slots = stream.slots.take label ++ slot :: stream.slots.drop (label + 1) := by
    obtain ⟨bound, rfl⟩ := List.getElem?_eq_some_iff.1 here
    rw [List.getElem_cons_drop, List.take_append_drop]
  have flat : stream.flat = (stream.entry ++ (stream.slots.take label).flatMap Slot.all) ++
      (slot.all ++ (stream.slots.drop (label + 1)).flatMap Slot.all) := by
    rw [Stream.flat]
    conv_lhs => rw [split]
    simp
  rw [flat, List.getElem?_append_right (by simp [landing]), List.getElem?_append_left]
  · simp [landing]
  · simpa [landing] using inside

/-- The instruction of a label stands behind the group before it. -/
theorem getElem?_flat_host (stream : Stream) (label : Nat) (slot : Slot)
    (here : stream.slots[label]? = some slot) :
    stream.flat[stream.landing label + slot.before.length]? = some slot.instruction := by
  rw [stream.getElem?_flat label _ slot here (by simp [Slot.all])]
  simp [Slot.all]

/-- No label stands inside a block. -/
theorem landing_not_inside (stream : Stream) (label other : Nat) (inside : label < stream.count)
    (bound : other ≤ stream.count) (behind : stream.landing label < stream.landing other) :
    stream.landing (label + 1) ≤ stream.landing other := by
  by_contra between
  have ordered : other ≤ label := by
    by_contra later
    have reached := stream.landing_le_landing (label + 1) other (by omega) bound
    omega
  have reached := stream.landing_le_landing other label ordered (by omega)
  omega

/-- A label lands inside the block that it belongs to. -/
theorem hosts_landing (stream : Stream) (label : Nat) (bound : label ≤ stream.count) :
    stream.Hosts label (stream.landing label) := by
  obtain inside | rfl := Nat.lt_or_eq_of_le bound
  · exact .inl ⟨inside, Nat.le_refl _, stream.landing_lt_succ label inside⟩
  · exact .inr ⟨rfl, stream.landing_count⟩

/-- A position that holds an instruction stands in the block of its host. -/
theorem Hosts.inBlock {stream : Stream} {label position : Nat}
    (hosts : stream.Hosts label position) (inside : position < stream.flat.length) :
    label < stream.count ∧ stream.InBlock label position := by
  obtain block | ⟨-, atEnd⟩ := hosts
  · exact block
  · omega

/-- A position has one host only. -/
theorem hosts_unique (stream : Stream) (first second position : Nat)
    (one : stream.Hosts first position) (other : stream.Hosts second position) :
    first = second := by
  obtain ⟨firstInside, firstBlock⟩ | ⟨rfl, atEnd⟩ := one
  · have inside : position < stream.flat.length :=
      Nat.lt_of_lt_of_le firstBlock.2 (stream.landing_le _)
    obtain ⟨secondInside, secondBlock⟩ := other.inBlock inside
    have below := (firstBlock.landing_le_iff firstInside second (by omega)).1 secondBlock.1
    have above := (secondBlock.landing_le_iff secondInside first (by omega)).1 firstBlock.1
    omega
  · obtain ⟨secondInside, secondBlock⟩ | ⟨rfl, -⟩ := other
    · have inside := Nat.lt_of_lt_of_le secondBlock.2 (stream.landing_le _)
      omega
    · rfl

/-- An instruction hosts its own position. -/
theorem hosts_host (stream : Stream) (label : Nat) (slot : Slot)
    (here : stream.slots[label]? = some slot) :
    stream.Hosts label (stream.landing label + slot.before.length) := by
  have next := stream.landing_succ label slot here
  rw [Slot.all, List.length_append, List.length_cons] at next
  exact .inl ⟨(List.getElem?_eq_some_iff.1 here).1, by omega, by omega⟩

/-- A label stands in its own block. -/
theorem Hosts.label_eq {stream : Stream} {label other : Nat}
    (hosts : stream.Hosts label (stream.landing other)) (bound : other ≤ stream.count) :
    label = other :=
  stream.hosts_unique label other _ hosts (stream.hosts_landing other bound)

/-- What stands at a position of the flat list: an instruction of the entry group, or
an instruction of a block, which is the host or stands in one of its groups. -/
theorem position_cases (stream : Stream) (position : Nat) (instruction : Instruction Label)
    (there : stream.flat[position]? = some instruction) :
    (position < stream.landing 0 ∧ instruction ∈ stream.entry) ∨
      ∃ label slot, stream.slots[label]? = some slot ∧ stream.InBlock label position ∧
        ((position < stream.landing label + slot.before.length ∧ instruction ∈ slot.before) ∨
          (position = stream.landing label + slot.before.length ∧
            instruction = slot.instruction) ∨
          (stream.landing label + slot.before.length < position ∧ instruction ∈ slot.after)) := by
  obtain ⟨inside, -⟩ := List.getElem?_eq_some_iff.1 there
  by_cases early : position < stream.landing 0
  · refine .inl ⟨early, ?_⟩
    rw [landing_zero] at early
    rw [flat, List.getElem?_append_left early] at there
    exact List.mem_of_getElem? there
  · obtain ⟨label, below, block⟩ := stream.exists_block position (by omega) inside
    obtain ⟨slot, here⟩ := stream.exists_slot label below
    have next := stream.landing_succ label slot here
    obtain ⟨reached, depthInside⟩ := block
    obtain ⟨depth, rfl⟩ := Nat.exists_eq_add_of_le reached
    rw [stream.getElem?_flat label depth slot here (by omega), Slot.all] at there
    refine .inr ⟨label, slot, here, ⟨reached, depthInside⟩, ?_⟩
    obtain before | atHost | after := Nat.lt_trichotomy depth slot.before.length
    · rw [List.getElem?_append_left before] at there
      exact .inl ⟨by omega, List.mem_of_getElem? there⟩
    · rw [atHost, List.getElem?_append_right (Nat.le_refl _), Nat.sub_self,
        List.getElem?_cons_zero] at there
      exact .inr (.inl ⟨by omega, (Option.some.inj there).symm⟩)
    · obtain ⟨more, rfl⟩ := Nat.exists_eq_add_of_lt after
      rw [List.getElem?_append_right (by omega), Nat.add_assoc, Nat.add_sub_cancel_left,
        List.getElem?_cons_succ] at there
      exact .inr (.inr ⟨by omega, List.mem_of_getElem? there⟩)

/-! ## Ways between hosts -/

namespace Extends

variable {original stream : Stream} (extended : stream.Extends original)
include extended

/-- The instruction of a slot is the one that its label names in the original. -/
theorem instructions_getElem? (label : Nat) (slot : Slot)
    (here : stream.slots[label]? = some slot) :
    original.instructions[label]? = some slot.instruction := by
  rw [← extended.instructions, Stream.instructions, List.getElem?_map, here, Option.map_some]

/-- The branches of the flat list are those of the hosts, and they lead to the
starts of blocks. -/
theorem branch_iff (handlers : List HandlerRow) (source target : Nat) :
    stream.flattened.Goes handlers source target .branch ↔
      ∃ label slot destination, stream.slots[label]? = some slot ∧
        source = stream.landing label + slot.before.length ∧
        destination ∈ slot.instruction.targets ∧ target = stream.landing destination := by
  constructor
  · rintro ⟨moved, there, member⟩
    rw [instructions_flattened, List.getElem?_map, Option.map_eq_some_iff] at there
    obtain ⟨instruction, there, rfl⟩ := there
    rw [Instruction.targets_map, List.mem_map] at member
    obtain ⟨destination, member, rfl⟩ := member
    have targets (independent : instruction.isIndependent = true) : False := by
      rw [instruction.targets_of_isIndependent independent] at member
      cases member
    obtain ⟨-, first⟩ | ⟨label, slot, here, -, place⟩ := stream.position_cases source _ there
    · exact (targets (extended.entry instruction first)).elim
    · have inside := List.mem_of_getElem? here
      obtain ⟨-, earlier⟩ | ⟨same, rfl⟩ | ⟨-, later⟩ := place
      · exact (targets (extended.before slot inside instruction earlier)).elim
      · exact ⟨label, slot, destination, here, same, member, rfl⟩
      · exact (targets (extended.after slot inside instruction later)).elim
  · rintro ⟨label, slot, destination, here, rfl, member, rfl⟩
    refine ⟨slot.instruction.map stream.landing, ?_, ?_⟩
    · rw [instructions_flattened, List.getElem?_map, stream.getElem?_flat_host label slot here,
        Option.map_some]
    · rw [Instruction.targets_map]
      exact List.mem_map_of_mem member

end Extends

/-- Behind a block control goes on exactly if it does behind the host. -/
theorem fallsThrough_iff (stream : Stream) (passes : stream.PassesThrough) (label : Nat)
    (slot : Slot) (here : stream.slots[label]? = some slot) (position : Nat)
    (last : position + 1 = stream.landing (label + 1)) (instruction : Instruction Label)
    (there : stream.flat[position]? = some instruction) :
    instruction.fallsThrough = true ↔ slot.instruction.fallsThrough = true := by
  have inside := List.mem_of_getElem? here
  have within : label < stream.count := (List.getElem?_eq_some_iff.1 here).1
  have next := stream.landing_succ label slot here
  rw [Slot.all, List.length_append, List.length_cons] at next
  obtain ⟨early, -⟩ | ⟨other, otherSlot, otherHere, block, place⟩ :=
    stream.position_cases position _ there
  · have above := stream.landing_le_landing 0 label (by omega) (by omega)
    omega
  · have otherInside : other < stream.count := (List.getElem?_eq_some_iff.1 otherHere).1
    have same : label = other :=
      stream.hosts_unique label other position (.inl ⟨within, by omega, by omega⟩)
        (.inl ⟨otherInside, block⟩)
    subst same
    obtain rfl : slot = otherSlot := Option.some.inj (here.symm.trans otherHere)
    obtain ⟨before, -⟩ | ⟨-, rfl⟩ | ⟨-, later⟩ := place
    · omega
    · rfl
    · have passed := passes.host slot inside (List.ne_nil_of_mem later)
      simp only [passed, passes.after slot inside instruction later]

/-- Going on from one instruction of the flat list to the next. -/
theorem next_iff (stream : Stream) (handlers : List HandlerRow) (source target : Nat) :
    stream.flattened.Goes handlers source target .next ↔
      ∃ instruction, stream.flat[source]? = some instruction ∧
        instruction.fallsThrough = true ∧ target = source + 1 := by
  constructor
  · rintro ⟨moved, there, falls, next⟩
    rw [instructions_flattened, List.getElem?_map, Option.map_eq_some_iff] at there
    obtain ⟨instruction, there, rfl⟩ := there
    rw [Instruction.fallsThrough_map] at falls
    exact ⟨instruction, there, falls, next⟩
  · rintro ⟨instruction, there, falls, next⟩
    refine ⟨instruction.map stream.landing, ?_, ?_, next⟩
    · rw [instructions_flattened, List.getElem?_map, there, Option.map_some]
    · rw [Instruction.fallsThrough_map]
      exact falls

section

variable {original stream : Stream} {encoded : Encoded} {lengths : List Nat}
variable {handlers newHandlers : List HandlerRow}
variable (decoded : original.IsDecoded lengths) (extended : stream.Extends original)
variable (passes : stream.PassesThrough) (encodes : stream.Encodes encoded)
variable (moved : List.Forall₂ (HandlerRow.Moved (Body.relocationOf stream encoded)) handlers
  newHandlers)

include extended passes in
/-- Control goes on from one block to another where it went on from the one
instruction to the other. -/
theorem next_between_iff (label other : Nat) (different : label ≠ other) :
    (∃ source target, stream.Hosts label source ∧ stream.Hosts other target ∧
      stream.flattened.Goes newHandlers source target .next) ↔
        original.Goes handlers label other .next := by
  constructor
  · rintro ⟨source, target, leaves, enters, goes⟩
    obtain ⟨instruction, there, falls, rfl⟩ := (stream.next_iff ..).1 goes
    obtain ⟨inside, block⟩ := leaves.inBlock (List.getElem?_eq_some_iff.1 there).1
    obtain ⟨slot, here⟩ := stream.exists_slot label inside
    have last : source + 1 = stream.landing (label + 1) := by
      by_contra within
      obtain ⟨above, below⟩ := block
      exact different (stream.hosts_unique label other _ (.inl ⟨inside, by omega, by omega⟩) enters)
    rw [last] at enters
    exact ⟨slot.instruction, extended.instructions_getElem? label slot here,
      (stream.fallsThrough_iff passes label slot here source last instruction there).1 falls,
      enters.label_eq (by omega)⟩
  · rintro ⟨instruction, there, falls, rfl⟩
    rw [← extended.instructions, Stream.instructions, List.getElem?_map,
      Option.map_eq_some_iff] at there
    obtain ⟨slot, here, rfl⟩ := there
    have inside : label < stream.count := (List.getElem?_eq_some_iff.1 here).1
    have less := stream.landing_lt_succ label inside
    obtain ⟨source, last⟩ := Nat.exists_eq_add_of_lt less
    have bound := stream.landing_le (label + 1)
    have block : stream.InBlock label (stream.landing label + source) := ⟨by omega, by omega⟩
    have there := List.getElem?_eq_getElem (l := stream.flat)
      (show stream.landing label + source < stream.flat.length by omega)
    have landing := stream.hosts_landing (label + 1) inside
    rw [last] at landing
    exact ⟨_, _, .inl ⟨inside, block⟩, landing, (stream.next_iff ..).2 ⟨_, there,
      (stream.fallsThrough_iff passes label slot here _ last.symm _ there).2 falls, rfl⟩⟩

include decoded extended in
/-- Branches lead from block to block as they led from instruction to instruction. -/
theorem branch_between_iff (label other : Nat) :
    (∃ source target, stream.Hosts label source ∧ stream.Hosts other target ∧
      stream.flattened.Goes newHandlers source target .branch) ↔
        original.Goes handlers label other .branch := by
  have bound (origin : Nat) (slot : Slot) (here : stream.slots[origin]? = some slot)
      (destination : Nat) (member : destination ∈ slot.instruction.targets) :
      destination ≤ stream.count := by
    rw [extended.count_eq]
    exact decoded.inside _ (List.mem_of_getElem? (extended.instructions_getElem? origin slot here))
      destination member
  constructor
  · rintro ⟨source, target, leaves, enters, goes⟩
    obtain ⟨origin, slot, destination, here, rfl, member, rfl⟩ := (extended.branch_iff ..).1 goes
    obtain rfl := stream.hosts_unique label origin _ leaves (stream.hosts_host origin slot here)
    obtain rfl := enters.label_eq (bound label slot here destination member)
    exact ⟨slot.instruction, extended.instructions_getElem? label slot here, member⟩
  · rintro ⟨instruction, there, member⟩
    rw [← extended.instructions, Stream.instructions, List.getElem?_map,
      Option.map_eq_some_iff] at there
    obtain ⟨slot, here, rfl⟩ := there
    exact ⟨_, _, stream.hosts_host label slot here,
      stream.hosts_landing other (bound label slot here other member),
      (extended.branch_iff ..).2 ⟨label, slot, other, here, rfl, member, rfl⟩⟩

include decoded extended encodes in
/-- A moved row covers blocks and leads to the start of a block. -/
theorem row_moved (old new : HandlerRow)
    (row : HandlerRow.Moved (Body.relocationOf stream encoded) old new) :
    (∀ label < original.count, ∀ position, stream.InBlock label position →
      (stream.flattened.Covers new.start.toNat new.stop.toNat position ↔
        original.Covers old.start.toNat old.stop.toNat label)) ∧
      ∃ destination, destination ≤ stream.count ∧
        original.labelAt old.handler.toNat = .ok destination ∧
        stream.flattened.labelAt new.handler.toNat = .ok (stream.landing destination) := by
  refine ⟨fun label inside position block =>
    covers_iff decoded extended encodes row.start row.stop inside block, ?_⟩
  obtain ⟨destination, found, reached⟩ :=
    (relocationOf_eq_ok decoded extended encodes ..).1 row.handler
  have bound := ((decoded.labelAt_eq_ok ..).1 found).1
  rw [← extended.count_eq] at bound
  exact ⟨destination, bound, found, reached⟩

include decoded extended encodes moved in
/-- Exceptions thrown in a block are handled where those of its instruction were. -/
theorem handler_between_iff (label other : Nat) :
    (∃ source target, stream.Hosts label source ∧ stream.Hosts other target ∧
      stream.flattened.Goes newHandlers source target .handler) ↔
        original.Goes handlers label other .handler := by
  constructor
  · rintro ⟨source, target, leaves, enters, inside, new, member, covered, caught⟩
    rw [count_flattened] at inside
    obtain ⟨old, oldMember, row⟩ := Outcome.exists_of_forall₂ moved new member
    obtain ⟨covers, destination, bound, found, reached⟩ :=
      row_moved decoded extended encodes old new row
    obtain ⟨within, block⟩ := leaves.inBlock inside
    rw [extended.count_eq] at within
    obtain rfl := Except.ok.inj (caught.symm.trans reached)
    obtain rfl := enters.label_eq bound
    exact ⟨within, old, oldMember, (covers label within source block).1 covered, found⟩
  · rintro ⟨within, old, member, covered, found⟩
    obtain ⟨new, newMember, row⟩ := Outcome.exists_of_forall₂ moved.flip old member
    obtain ⟨covers, destination, bound, again, reached⟩ :=
      row_moved decoded extended encodes old new row
    obtain rfl := Except.ok.inj (found.symm.trans again)
    have inside : label < stream.count := by
      rw [extended.count_eq]
      exact within
    have start : stream.InBlock label (stream.landing label) :=
      ⟨Nat.le_refl _, stream.landing_lt_succ label inside⟩
    refine ⟨_, _, stream.hosts_landing label (Nat.le_of_lt inside),
      stream.hosts_landing other bound, ?_, new, newMember,
      (covers label within _ start).2 covered, reached⟩
    rw [count_flattened]
    exact Nat.lt_of_lt_of_le start.2 (stream.landing_le _)

include decoded extended passes encodes moved in
/-- Control gets from one block to another in the ways in which it got from the one
instruction to the other. -/
theorem goes_between_iff (label other : Nat) (different : label ≠ other) (transfer : Transfer) :
    (∃ source target, stream.Hosts label source ∧ stream.Hosts other target ∧
      stream.flattened.Goes newHandlers source target transfer) ↔
        original.Goes handlers label other transfer := by
  cases transfer with
  | next => exact next_between_iff extended passes label other different
  | branch => exact branch_between_iff decoded extended label other
  | handler => exact handler_between_iff decoded extended encodes moved label other

/-! ## Ways into groups -/

include decoded extended encodes moved in
/-- Branches and handlers lead to starts of blocks. -/
theorem target_eq_landing (source target : Nat) (transfer : Transfer) (jumps : transfer ≠ .next)
    (goes : stream.flattened.Goes newHandlers source target transfer) :
    ∃ destination, destination ≤ stream.count ∧ target = stream.landing destination := by
  cases transfer with
  | next => exact absurd rfl jumps
  | branch =>
    obtain ⟨origin, slot, destination, here, -, member, rfl⟩ := (extended.branch_iff ..).1 goes
    have inside := decoded.inside _
      (List.mem_of_getElem? (extended.instructions_getElem? origin slot here)) destination member
    rw [← extended.count_eq] at inside
    exact ⟨destination, inside, rfl⟩
  | handler =>
    obtain ⟨-, new, member, -, caught⟩ := goes
    obtain ⟨old, -, row⟩ := Outcome.exists_of_forall₂ moved new member
    obtain ⟨-, destination, bound, -, reached⟩ := row_moved decoded extended encodes old new row
    exact ⟨destination, bound, Except.ok.inj (caught.symm.trans reached)⟩

include decoded extended encodes moved in
/-- Behind the start of a block every instruction is reached from the one in front of
it, and in no other way. -/
theorem next_of_inside (label : Nat) (inside : label < stream.count) (source target : Nat)
    (behind : stream.landing label < target) (within : target < stream.landing (label + 1))
    (transfer : Transfer) (goes : stream.flattened.Goes newHandlers source target transfer) :
    transfer = .next ∧ target = source + 1 := by
  by_cases jumps : transfer = .next
  · subst jumps
    obtain ⟨instruction, -, -, next⟩ := goes
    exact ⟨rfl, next⟩
  · obtain ⟨destination, bound, rfl⟩ :=
      target_eq_landing decoded extended encodes moved source target transfer jumps goes
    have later := stream.landing_not_inside label destination inside bound behind
    omega

include decoded extended encodes moved in
/-- The entry group is reached from its front only. -/
theorem next_of_entry (source target : Nat) (within : target < stream.landing 0)
    (transfer : Transfer) (goes : stream.flattened.Goes newHandlers source target transfer) :
    transfer = .next ∧ target = source + 1 := by
  by_cases jumps : transfer = .next
  · subst jumps
    obtain ⟨instruction, -, -, next⟩ := goes
    exact ⟨rfl, next⟩
  · obtain ⟨destination, bound, rfl⟩ :=
      target_eq_landing decoded extended encodes moved source target transfer jumps goes
    have later := stream.landing_le_landing 0 destination (by omega) bound
    omega

include decoded extended encodes moved in
/-- No moved row covers the entry group. -/
theorem not_covers_entry (new : HandlerRow) (member : new ∈ newHandlers) (position : Nat)
    (within : position < stream.landing 0) :
    ¬ stream.flattened.Covers new.start.toNat new.stop.toNat position := by
  obtain ⟨old, -, row⟩ := Outcome.exists_of_forall₂ moved new member
  obtain ⟨first, atStart, toStart⟩ := (relocationOf_eq_ok decoded extended encodes ..).1 row.start
  obtain ⟨last, -, toStop⟩ := (relocationOf_eq_ok decoded extended encodes ..).1 row.stop
  have bound := ((decoded.labelAt_eq_ok ..).1 atStart).1
  rw [← extended.count_eq] at bound
  have later := stream.landing_le_landing 0 first (by omega) bound
  have positionBound : position ≤ stream.flattened.count := by
    have reached := stream.landing_le 0
    rw [count_flattened]
    omega
  rw [(isDecoded_flattened decoded extended).covers_iff toStart toStop positionBound]
  omega

end

/-! ## The flow as a whole -/

/-- A walk of control: from step to step it gets from one position to another. -/
def Walks (stream : Stream) (handlers : List HandlerRow) (walk : Nat → Nat) (steps : Nat) : Prop :=
  ∀ step < steps, ∃ transfer, stream.Goes handlers (walk step) (walk (step + 1)) transfer

/-- The flow of control in a flat list of instructions is the flow in the original
with a block in the place of each instruction. -/
structure KeepsFlow (original stream again : Stream) (handlers newHandlers : List HandlerRow) :
    Prop where
  /-- From host to host control gets in the ways in which it got there before. -/
  between : ∀ label other, label ≠ other → ∀ transfer,
    (∃ source target, stream.Hosts label source ∧ stream.Hosts other target ∧
      again.Goes newHandlers source target transfer) ↔
        original.Goes handlers label other transfer
  /-- A block is entered at its start; from there control goes on step by step through
  the group before the host, the host and the group after it. -/
  inside : ∀ label < stream.count, ∀ source target, stream.landing label < target →
    target < stream.landing (label + 1) → ∀ transfer,
      again.Goes newHandlers source target transfer → transfer = .next ∧ target = source + 1
  /-- Neither branches nor handlers lead into the entry group. -/
  entry : ∀ source, ∀ target < stream.entry.length, ∀ transfer,
    again.Goes newHandlers source target transfer → transfer = .next ∧ target = source + 1
  /-- No exception that is thrown in the entry group is handled. -/
  uncovered : ∀ row ∈ newHandlers, ∀ position < stream.entry.length,
    ¬ again.Covers row.start.toNat row.stop.toNat position
  /-- A walk from the start of the code that arrives in a block has come through
  everything that stands in front in the block. -/
  walks : ∀ walk steps, walk 0 = 0 → again.Walks newHandlers walk steps →
    ∀ label < stream.count, stream.InBlock label (walk steps) →
      ∀ back ≤ walk steps - stream.landing label,
        back ≤ steps ∧ walk (steps - back) = walk steps - back

/-- If a position is reached from the one in front of it only, then so is a stretch of
such positions. -/
theorem walk_back (stream : Stream) (handlers : List HandlerRow) (first last : Nat)
    (inside : ∀ source target, first < target → target ≤ last → ∀ transfer,
      stream.Goes handlers source target transfer → target = source + 1)
    (walk : Nat → Nat) (steps : Nat) (started : walk 0 = 0)
    (walks : stream.Walks handlers walk steps) (arrived : walk steps = last) (back : Nat)
    (within : back ≤ last - first) : back ≤ steps ∧ walk (steps - back) = last - back := by
  induction back with
  | zero => exact ⟨Nat.zero_le _, arrived⟩
  | succ back inductionHypothesis =>
    obtain ⟨earlier, here⟩ := inductionHypothesis (by omega)
    have begun : steps - back ≠ 0 := by
      intro atStart
      rw [atStart, started] at here
      omega
    obtain ⟨step, next⟩ := Nat.exists_eq_succ_of_ne_zero begun
    obtain ⟨transfer, goes⟩ := walks step (by omega)
    rw [← Nat.succ_eq_add_one, ← next, here] at goes
    have reached := inside _ _ (by omega) (by omega) transfer goes
    have place : steps - (back + 1) = step := by omega
    rw [place]
    omega

/-- Groups that control passes through keep the flow of control. -/
theorem keepsFlow {original stream : Stream} {encoded : Encoded} {lengths : List Nat}
    {handlers newHandlers : List HandlerRow} (decoded : original.IsDecoded lengths)
    (extended : stream.Extends original) (passes : stream.PassesThrough)
    (encodes : stream.Encodes encoded)
    (moved : List.Forall₂ (HandlerRow.Moved (Body.relocationOf stream encoded)) handlers
      newHandlers) :
    KeepsFlow original stream stream.flattened handlers newHandlers where
  between := goes_between_iff decoded extended passes encodes moved
  inside := next_of_inside decoded extended encodes moved
  entry source target within := by
    rw [← landing_zero] at within
    exact next_of_entry decoded extended encodes moved source target within
  uncovered row member position within := by
    rw [← landing_zero] at within
    exact not_covers_entry decoded extended encodes moved row member position within
  walks walk steps started walks label inside block := by
    refine walk_back _ _ _ _ ?_ walk steps started walks rfl
    intro source target behind reached transfer goes
    have bound : target < stream.landing (label + 1) := Nat.lt_of_le_of_lt reached block.2
    exact (next_of_inside decoded extended encodes moved label inside source target behind bound
      transfer goes).2

end Stream

end NullGuard
