import NullGuard.Proofs.Code.Instruction

/-!
# Targets of instructions

Replacing the targets of an instruction succeeds exactly if it does for each of
them, and then it is a plain map over the targets. What such a map does depends
on the targets alone.
-/

namespace NullGuard

namespace Instruction

variable {τ σ ρ : Type}

/-- The targets, the default of a switch before its cases. -/
def targets (instruction : Instruction τ) : List τ := instruction.operand.targets

/-- Renaming targets renames each of them. -/
theorem targets_map (f : τ → σ) (instruction : Instruction τ) :
    (instruction.map f).targets = instruction.targets.map f := by
  obtain ⟨opcode, operand⟩ := instruction
  cases operand <;> simp [targets, map, Operand.map, Operand.targets]

/-- Targets that are replaced twice are replaced at once. -/
theorem map_map (f : τ → σ) (g : σ → ρ) (instruction : Instruction τ) :
    (instruction.map f).map g = instruction.map (g ∘ f) := by
  obtain ⟨opcode, operand⟩ := instruction
  cases operand <;> simp [map, Operand.map]

/-- Only what is done with the targets matters. -/
theorem map_congr {f g : τ → σ} (instruction : Instruction τ)
    (agree : ∀ target ∈ instruction.targets, f target = g target) :
    instruction.map f = instruction.map g := by
  obtain ⟨opcode, operand⟩ := instruction
  simp only [targets, Operand.targets] at agree
  cases operand with
  | fixed bytes => rfl
  | branch target => simp [map, Operand.map, agree target (by simp)]
  | wideBranch target => simp [map, Operand.map, agree target (by simp)]
  | tableSwitch default low high cases =>
    obtain ⟨first, others⟩ := List.forall_mem_cons.1 agree
    simp [map, Operand.map, first, List.map_congr_left others]
  | lookupSwitch default pairs =>
    obtain ⟨first, others⟩ := List.forall_mem_cons.1 agree
    rw [List.forall_mem_map] at others
    have cases : (pairs.map fun pair => (pair.1, f pair.2)) =
        pairs.map fun pair => (pair.1, g pair.2) :=
      List.map_congr_left fun pair member => by rw [others pair member]
    simp [map, Operand.map, first, cases]

/-- Targets that were mapped are replaced as the mapped ones. -/
theorem traverse_map (target : σ → Except Failure ρ) (f : τ → σ) (instruction : Instruction τ) :
    (instruction.map f).traverse target = instruction.traverse (target ∘ f) := by
  obtain ⟨opcode, operand⟩ := instruction
  cases operand <;> simp [map, Operand.map, traverse, List.mapM_map, Function.comp_def]

/-- Replacing targets succeeds if it does for each of them. -/
theorem traverse_of (target : τ → Except Failure σ) (f : τ → σ) (instruction : Instruction τ)
    (each : ∀ label ∈ instruction.targets, target label = .ok (f label)) :
    instruction.traverse target = .ok (instruction.map f) := by
  obtain ⟨opcode, operand⟩ := instruction
  simp only [targets, Operand.targets] at each
  cases operand with
  | fixed bytes => rfl
  | branch label =>
    simp only [traverse, each label (by simp)]
    rfl
  | wideBranch label =>
    simp only [traverse, each label (by simp)]
    rfl
  | tableSwitch default low high cases =>
    obtain ⟨first, others⟩ := List.forall_mem_cons.1 each
    simp only [traverse, first, Outcome.mapM_of target f cases others]
    rfl
  | lookupSwitch default pairs =>
    obtain ⟨first, others⟩ := List.forall_mem_cons.1 each
    rw [List.forall_mem_map] at others
    refine (Outcome.bind_eq_ok ..).2 ⟨f default, first, ?_⟩
    refine (Outcome.bind_eq_ok ..).2 ⟨pairs.map fun pair => (pair.1, f pair.2), ?_, rfl⟩
    apply Outcome.mapM_of
    intro pair member
    exact (Outcome.bind_eq_ok ..).2 ⟨f pair.2, others pair member, rfl⟩

/-- Replacing targets leaves everything else as it is. -/
theorem of_traverse (target : τ → Except Failure σ) (instruction : Instruction τ)
    (result : Instruction σ) (ran : instruction.traverse target = .ok result) :
    result.map (fun _ => ()) = instruction.map (fun _ => ()) ∧
      List.Forall₂ (fun label found => target label = .ok found) instruction.targets
        result.targets := by
  obtain ⟨opcode, operand⟩ := instruction
  cases operand with
  | fixed bytes =>
    obtain rfl := Except.ok.inj ran
    exact ⟨rfl, .nil⟩
  | branch label =>
    obtain ⟨found, reached, returned⟩ := (Outcome.bind_eq_ok ..).1 ran
    obtain rfl := Except.ok.inj returned
    exact ⟨rfl, .cons reached .nil⟩
  | wideBranch label =>
    obtain ⟨found, reached, returned⟩ := (Outcome.bind_eq_ok ..).1 ran
    obtain rfl := Except.ok.inj returned
    exact ⟨rfl, .cons reached .nil⟩
  | tableSwitch default low high cases =>
    obtain ⟨found, reached, ran⟩ := (Outcome.bind_eq_ok ..).1 ran
    obtain ⟨founds, others, returned⟩ := (Outcome.bind_eq_ok ..).1 ran
    obtain rfl := Except.ok.inj returned
    have each := (Outcome.mapM_eq_ok ..).1 others
    refine ⟨?_, .cons reached each⟩
    simp [map, Operand.map, List.map_const', each.length_eq]
  | lookupSwitch default pairs =>
    obtain ⟨found, reached, ran⟩ := (Outcome.bind_eq_ok ..).1 ran
    obtain ⟨founds, others, returned⟩ := (Outcome.bind_eq_ok ..).1 ran
    obtain rfl := Except.ok.inj returned
    have each : List.Forall₂ (fun pair result => result.1 = pair.1 ∧ target pair.2 = .ok result.2)
        pairs founds := by
      refine ((Outcome.mapM_eq_ok ..).1 others).imp fun pair result replaced => ?_
      obtain ⟨found, reached, returned⟩ := (Outcome.bind_eq_ok ..).1 replaced
      obtain rfl := Except.ok.inj returned
      exact ⟨rfl, reached⟩
    have keys : founds.map Prod.fst = pairs.map Prod.fst := by
      rw [← List.forall₂_eq_eq_eq, List.forall₂_map_left_iff, List.forall₂_map_right_iff]
      exact (each.imp fun pair result replaced => replaced.1).flip
    refine ⟨?_, .cons reached ?_⟩
    · have units := congrArg (List.map fun key => (key, ())) keys
      simpa [map, Operand.map, List.map_map, Function.comp_def] using units
    · rw [List.forall₂_map_left_iff, List.forall₂_map_right_iff]
      exact each.imp fun pair result replaced => replaced.2

/-- Replacing targets fails if it does for one of them. -/
theorem target_of_traverse (target : τ → Except Failure σ) (instruction : Instruction τ)
    (result : Instruction σ) (ran : instruction.traverse target = .ok result) :
    ∀ label ∈ instruction.targets, ∃ found, target label = .ok found := by
  intro label member
  obtain ⟨-, each⟩ := of_traverse target instruction result ran
  exact Outcome.exists_of_mapM _ _ _ ((Outcome.mapM_eq_ok ..).2 each) label member

/-- Replacing targets fails as it does for one of them. -/
theorem exists_of_traverse_error (target : τ → Except Failure σ) (instruction : Instruction τ)
    (failure : Failure) (ran : instruction.traverse target = .error failure) :
    ∃ label ∈ instruction.targets, target label = .error failure := by
  obtain ⟨opcode, operand⟩ := instruction
  simp only [targets, Operand.targets]
  cases operand with
  | fixed bytes => cases ran
  | branch label =>
    obtain failed | ⟨found, -, returned⟩ := (Outcome.bind_eq_error ..).1 ran
    · exact ⟨label, List.mem_singleton_self label, failed⟩
    · cases returned
  | wideBranch label =>
    obtain failed | ⟨found, -, returned⟩ := (Outcome.bind_eq_error ..).1 ran
    · exact ⟨label, List.mem_singleton_self label, failed⟩
    · cases returned
  | tableSwitch default low high cases =>
    obtain failed | ⟨found, -, ran⟩ := (Outcome.bind_eq_error ..).1 ran
    · exact ⟨default, List.mem_cons_self, failed⟩
    · obtain failed | ⟨founds, -, returned⟩ := (Outcome.bind_eq_error ..).1 ran
      · obtain ⟨label, member, failed⟩ := Outcome.exists_of_mapM_error _ _ _ failed
        exact ⟨label, List.mem_cons_of_mem _ member, failed⟩
      · cases returned
  | lookupSwitch default pairs =>
    obtain failed | ⟨found, -, ran⟩ := (Outcome.bind_eq_error ..).1 ran
    · exact ⟨default, List.mem_cons_self, failed⟩
    · obtain failed | ⟨founds, -, returned⟩ := (Outcome.bind_eq_error ..).1 ran
      · obtain ⟨pair, member, failed⟩ := Outcome.exists_of_mapM_error _ _ _ failed
        obtain failed | ⟨found, -, returned⟩ := (Outcome.bind_eq_error ..).1 failed
        · exact ⟨pair.2, List.mem_cons_of_mem _ (List.mem_map_of_mem member), failed⟩
        · cases returned
      · cases returned

/-- Replacing targets succeeds if it does for each of them. -/
theorem exists_traverse (target : τ → Except Failure σ) (instruction : Instruction τ)
    (each : ∀ label ∈ instruction.targets, ∃ found, target label = .ok found) :
    ∃ result, instruction.traverse target = .ok result := by
  cases ran : instruction.traverse target with
  | ok result => exact ⟨result, rfl⟩
  | error failure =>
    obtain ⟨label, member, failed⟩ := exists_of_traverse_error target instruction failure ran
    obtain ⟨found, reached⟩ := each label member
    rw [failed] at reached
    cases reached

/-- Looking up the targets of an instruction leaves it fitting its shape. -/
theorem fits_of_traverse (target : τ → Except Failure σ) (instruction : Instruction τ)
    (result : Instruction σ) (ran : instruction.traverse target = .ok result)
    (fits : instruction.Fits) : result.Fits := by
  obtain ⟨same, -⟩ := of_traverse target instruction result ran
  rw [← fits_map fun _ => (), same]
  exact (fits_map ..).2 fits

end Instruction

end NullGuard
