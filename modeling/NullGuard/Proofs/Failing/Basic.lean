import NullGuard.Proofs.Stateful

/-!
# Ordinary failures

A failure is ordinary unless its cause is a disagreement inside the weaver. Most
computations can fail in ordinary ways only, whatever they are given, and they
inherit that from their parts. The parts are put together in several monads; what
is needed of a monad is said once, in `Failing`.
-/

namespace NullGuard

/-- A failure that says something about the class at hand. -/
def Failure.Ordinary (failure : Failure) : Prop := failure.isInvariant = false

/-- Whether a failure is ordinary does not depend on the step that it is reported under. -/
theorem Failure.ordinary_during (step : Step) (failure : Failure) :
    (failure.during step).Ordinary ↔ failure.Ordinary := Iff.rfl

/-! ## Monads with failures -/

/-- A monad whose computations may end in failures. -/
class Failing (m : Type → Type) [Monad m] [MonadExceptOf Failure m] where
  EndsIn : {α : Type} → m α → Failure → Prop
  not_pure : ∀ {α : Type} (value : α) (failure : Failure), ¬ EndsIn (pure value : m α) failure
  of_bind : ∀ {α β : Type} (first : m α) (next : α → m β) (failure : Failure),
    EndsIn (first >>= next) failure → EndsIn first failure ∨ ∃ value, EndsIn (next value) failure
  of_throw : ∀ {α : Type} (thrown failure : Failure),
    EndsIn (throwThe Failure thrown : m α) failure → failure = thrown
  of_tryCatch : ∀ {α : Type} (action : m α) (handler : Failure → m α) (failure : Failure),
    EndsIn (tryCatchThe Failure action handler) failure →
      ∃ caught, EndsIn action caught ∧ EndsIn (handler caught) failure

/-- An outcome ends in the failure that it is. -/
instance : Failing (Except Failure) where
  EndsIn outcome failure := outcome = .error failure
  not_pure value failure impossible := by cases impossible
  of_bind first next failure ended := by
    cases first with
    | error other =>
      cases ended
      exact .inl rfl
    | ok value => exact .inr ⟨value, ended⟩
  of_throw thrown failure ended := (Except.error.inj ended).symm
  of_tryCatch action handler failure ended := by
    cases action with
    | error caught => exact ⟨caught, rfl, ended⟩
    | ok value => cases ended

/-- A step with a state ends in a failure if it does so from some state. -/
instance {σ : Type} {m : Type → Type} [Monad m] [MonadExceptOf Failure m] [Failing m] :
    Failing (StateT σ m) where
  EndsIn step failure := ∃ before, Failing.EndsIn (step before) failure
  not_pure value failure := by
    rintro ⟨before, ended⟩
    exact Failing.not_pure _ _ ended
  of_bind first next failure := by
    rintro ⟨before, ended⟩
    obtain begun | ⟨⟨value, middle⟩, rest⟩ := Failing.of_bind (first before)
      (fun pair => next pair.1 pair.2) failure ended
    · exact .inl ⟨before, begun⟩
    · exact .inr ⟨value, middle, rest⟩
  of_throw thrown failure := by
    rintro ⟨before, ended⟩
    obtain thrownHere | ⟨_, ended⟩ := Failing.of_bind _ _ _ ended
    · exact Failing.of_throw _ _ thrownHere
    · exact (Failing.not_pure _ _ ended).elim
  of_tryCatch action handler failure := by
    rintro ⟨before, ended⟩
    obtain ⟨caught, first, rest⟩ := Failing.of_tryCatch _ _ _ ended
    exact ⟨caught, ⟨before, first⟩, before, rest⟩

/-- A step with a state that stays when the step fails. -/
instance {σ : Type} : Failing (ExceptT Failure (StateM σ)) where
  EndsIn step failure := ∃ before after, step before = (.error failure, after)
  not_pure value failure := by
    rintro ⟨before, after, ended⟩
    cases (Prod.mk.inj ended).1
  of_bind first next failure := by
    rintro ⟨before, after, ended⟩
    cases begun : first before with
    | mk result middle =>
      cases result with
      | ok value =>
        rw [Stateful.bind_ok _ _ _ _ _ begun] at ended
        exact .inr ⟨value, middle, after, ended⟩
      | error other =>
        rw [Stateful.bind_error _ _ _ _ _ begun] at ended
        obtain ⟨same, rfl⟩ := Prod.mk.inj ended
        obtain rfl := Except.error.inj same
        exact .inl ⟨before, middle, begun⟩
  of_throw thrown failure := by
    rintro ⟨before, after, ended⟩
    exact (Except.error.inj (Prod.mk.inj ended).1).symm
  of_tryCatch action handler failure := by
    rintro ⟨before, after, ended⟩
    cases begun : action before with
    | mk result middle =>
      have unfolded : (tryCatchThe Failure action handler :
          ExceptT Failure (StateM _) _) before =
          match result with
          | .ok value => (.ok value, middle)
          | .error caught => handler caught middle := by
        simp only [tryCatchThe, MonadExceptOf.tryCatch, ExceptT.tryCatch, ExceptT.mk, bind,
          StateT.bind, begun]
        cases result <;> rfl
      rw [unfolded] at ended
      cases result with
      | ok value => cases (Prod.mk.inj ended).1
      | error caught => exact ⟨caught, ⟨before, middle, begun⟩, middle, after, ended⟩

/-! ## Computations with ordinary failures -/

section

variable {m : Type → Type} [Monad m] [MonadExceptOf Failure m] [Failing m] {α β : Type}

/-- Whatever failure the computation ends in is ordinary. -/
class Ordinary (action : m α) : Prop where
  ordinary : ∀ failure, Failing.EndsIn action failure → failure.Ordinary

/-- Whether a cause is no disagreement inside the weaver, which can be seen from its
form. -/
@[reducible] def Cause.isOrdinary : Cause → Bool
  | .invariant _ => false
  | _ => true

/-- A condition that holds by computation. -/
class Holds (condition : Bool) : Prop where
  holds : condition = true

/-- What is true by computation holds. -/
instance : Holds true := ⟨rfl⟩

/-- Returning a value does not fail. -/
instance (value : α) : Ordinary (pure value : m α) where
  ordinary _ ended := (Failing.not_pure _ _ ended).elim

/-- Failing is ordinary if the cause is, which is seen from its form. -/
instance (cause : Cause) [ordinary : Holds cause.isOrdinary] : Ordinary (fail cause : m α) where
  ordinary failure ended := by
    obtain rfl := Failing.of_throw _ _ ended
    have holds := ordinary.holds
    cases cause <;> first | rfl | cases holds

/-- Two steps in a row fail as one of them does. -/
theorem Ordinary.bind (first : m α) [Ordinary first] {next : α → m β}
    (rest : ∀ value, Ordinary (next value)) : Ordinary (first >>= next) where
  ordinary failure ended := by
    obtain begun | ⟨value, ended⟩ := Failing.of_bind _ _ _ ended
    · exact Ordinary.ordinary failure begun
    · exact (rest value).ordinary failure ended

/-- The same, found without being asked for. -/
instance (first : m α) (next : α → m β) [Ordinary first] [rest : ∀ value, Ordinary (next value)] :
    Ordinary (first >>= next) := .bind first rest

/-- Converting a value adds no failure. -/
instance [LawfulMonad m] (convert : α → β) (action : m α) [Ordinary action] :
    Ordinary (convert <$> action) := by
  rw [map_eq_pure_bind]
  infer_instance

/-- A failure stays ordinary under the name of a step. -/
instance (step : Step) (action : m α) [Ordinary action] : Ordinary (during step action) where
  ordinary failure ended := by
    obtain ⟨caught, first, rest⟩ := Failing.of_tryCatch _ _ _ ended
    obtain rfl := Failing.of_throw _ _ rest
    exact (Failure.ordinary_during ..).2 (Ordinary.ordinary caught first)

/-- A step that branches fails as its branches do. -/
instance (condition : Prop) [Decidable condition] (first second : m α) [Ordinary first]
    [Ordinary second] : Ordinary (if condition then first else second) := by
  split <;> infer_instance

/-- Going through a list fails as one of the steps does. The induction is on the list. -/
instance [LawfulMonad m] (step : α → m β) [∀ item, Ordinary (step item)] (items : List α) :
    Ordinary (items.mapM step) := by
  induction items with
  | nil =>
    rw [List.mapM_nil]
    infer_instance
  | cons item others inductionHypothesis =>
    rw [List.mapM_cons]
    infer_instance

/-- Going through a list with a state fails as one of the steps does, from some state. -/
instance (step : β → α → m β) [∀ state item, Ordinary (step state item)] (items : List α)
    (start : β) : Ordinary (items.foldlM step start) := by
  induction items generalizing start with
  | nil =>
    rw [List.foldlM_nil]
    infer_instance
  | cons item others inductionHypothesis =>
    rw [List.foldlM_cons]
    infer_instance

end

/-- A success is no failure. -/
instance {α : Type} (value : α) : Ordinary (.ok value : Except Failure α) :=
  inferInstanceAs (Ordinary (pure value))

/-! ## Computations inside others -/

section

variable {σ ρ α : Type}

/-- An outcome is as ordinary inside a reader as it is alone. -/
instance (outcome : Except Failure α) [inner : Ordinary outcome] :
    Ordinary (monadLift outcome : StateT σ (Except Failure) α) where
  ordinary failure ended := by
    obtain ⟨before, ended⟩ := ended
    cases outcome with
    | ok value => cases ended
    | error other =>
      cases ended
      exact inner.ordinary failure rfl

/-- An outcome is as ordinary inside a step with a state as it is alone. -/
instance (outcome : Except Failure α) [inner : Ordinary outcome] :
    Ordinary (settle outcome : ExceptT Failure (StateM σ) α) where
  ordinary failure ended := by
    obtain ⟨before, after, ended⟩ := ended
    exact inner.ordinary failure (Prod.mk.inj ended).1

/-- A step is as ordinary with something remembered as it is without. -/
instance (step : ExceptT Failure (StateM σ) α) [Ordinary step] :
    Ordinary (liftM step : StateT ρ (ExceptT Failure (StateM σ)) α) where
  ordinary failure ended := by
    obtain ⟨before, ended⟩ := ended
    obtain begun | ⟨_, ended⟩ := Failing.of_bind _ _ _ ended
    · exact Ordinary.ordinary failure begun
    · exact (Failing.not_pure _ _ ended).elim

/-! Steps with state, from each state on. -/

section

variable {m : Type → Type} [Monad m] [MonadExceptOf Failure m] [Failing m]

/-- A step with a state fails in ordinary ways if it does so from each state. -/
theorem Ordinary.of_each (step : StateT σ m α)
    (each : ∀ before, Ordinary (step before : m (α × σ))) : Ordinary step where
  ordinary failure ended := by
    obtain ⟨before, ended⟩ := ended
    exact (each before).ordinary failure ended

/-- From each state a step fails in no other ways than it does at all. -/
theorem Ordinary.each (step : StateT σ m α) [inner : Ordinary step] (before : σ) :
    Ordinary (step before : m (α × σ)) where
  ordinary failure ended := inner.ordinary failure ⟨before, ended⟩

/-- Forgetting the last state adds no failure. -/
instance [LawfulMonad m] (step : StateT σ m α) [Ordinary step] (before : σ) :
    Ordinary (step.run' before) := by
  have := Ordinary.each step before
  exact inferInstanceAs (Ordinary (Prod.fst <$> step before))

end

/-- A step that leaves its state fails in ordinary ways if its results do, from each state.
-/
theorem Ordinary.of_results (step : ExceptT Failure (StateM σ) α)
    (each : ∀ before, Ordinary (step before).1) : Ordinary step where
  ordinary failure ended := by
    obtain ⟨before, after, ended⟩ := ended
    exact (each before).ordinary failure (congrArg Prod.fst ended)

/-- The results of a step fail in no other ways than the step. -/
theorem Ordinary.result (step : ExceptT Failure (StateM σ) α) [inner : Ordinary step]
    (before : σ) : Ordinary (step before).1 where
  ordinary failure ended := inner.ordinary failure ⟨before, _, Prod.ext ended rfl⟩

/-- The failure of a step is ordinary if the step fails in ordinary ways. -/
theorem Ordinary.of_fails (step : ExceptT Failure (StateM σ) α) [inner : Ordinary step]
    {before after : σ} {failure : Failure} (failed : Stateful.Fails step before failure after) :
    failure.Ordinary :=
  inner.ordinary failure ⟨before, after, failed⟩

/-! Looking at a state and changing it does not fail. -/

/-- Looking at the state does not fail. -/
instance : Ordinary (get : ExceptT Failure (StateM σ) σ) :=
  .of_results _ fun before => inferInstanceAs (Ordinary (.ok before : Except Failure σ))

/-- Looking at the state by its type does not fail. -/
instance : Ordinary (getThe σ : ExceptT Failure (StateM σ) σ) :=
  inferInstanceAs (Ordinary (get : ExceptT Failure (StateM σ) σ))

/-- Setting the state does not fail. -/
instance (state : σ) : Ordinary (set state : ExceptT Failure (StateM σ) PUnit) :=
  .of_results _ fun _ => inferInstanceAs (Ordinary (.ok ⟨⟩ : Except Failure PUnit))

/-- Changing the state and returning something does not fail. -/
instance (change : σ → α × σ) : Ordinary (modifyGet change : ExceptT Failure (StateM σ) α) :=
  .of_results _ fun before => inferInstanceAs (Ordinary (.ok (change before).1 : Except Failure α))

/-- Changing the state does not fail. -/
instance (change : σ → σ) : Ordinary (modify change : ExceptT Failure (StateM σ) PUnit) :=
  inferInstanceAs (Ordinary (modifyGet fun state => ((), change state)))

/-! The same where something is remembered besides. -/

/-- Looking at what is remembered does not fail. -/
instance : Ordinary (getThe ρ : StateT ρ (ExceptT Failure (StateM σ)) ρ) :=
  .of_each _ fun before =>
    inferInstanceAs (Ordinary (pure (before, before) : ExceptT Failure (StateM σ) (ρ × ρ)))

/-- Looking at the state behind what is remembered does not fail. -/
instance : Ordinary (getThe σ : StateT ρ (ExceptT Failure (StateM σ)) σ) :=
  inferInstanceAs (Ordinary (liftM (get : ExceptT Failure (StateM σ) σ)))

/-- Remembering something else does not fail. -/
instance (change : ρ → ρ) :
    Ordinary (modifyThe ρ change : StateT ρ (ExceptT Failure (StateM σ)) PUnit) :=
  .of_each _ fun before =>
    inferInstanceAs (Ordinary (pure (⟨⟩, change before) : ExceptT Failure (StateM σ) (PUnit × ρ)))

end

end NullGuard
