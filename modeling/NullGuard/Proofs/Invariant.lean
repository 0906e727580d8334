import NullGuard.Proofs.Stateful

/-!
# Invariants of steps

A step upholds an invariant if the state that it leaves has it whenever the state
before the step had it, whether the step succeeds or fails. Steps that are put
together from such steps uphold the invariant as well. Steps with a second state
beside the first are dealt with in the same way, since only the first one matters
here; what is needed of a monad is said once, in `Changing`.
-/

namespace NullGuard.Stateful

/-! ## Monads with a state -/

/-- A monad whose computations find a state and leave one. -/
class Changing (σ : outParam Type) (m : Type → Type) [Monad m] [MonadExceptOf Failure m] where
  Leaves : {α : Type} → m α → σ → σ → Prop
  of_pure : ∀ {α : Type} (value : α) (before after : σ),
    Leaves (pure value : m α) before after → after = before
  of_bind : ∀ {α β : Type} (first : m α) (next : α → m β) (before after : σ),
    Leaves (first >>= next) before after →
      Leaves first before after ∨
        ∃ value middle, Leaves first before middle ∧ Leaves (next value) middle after
  of_throw : ∀ {α : Type} (thrown : Failure) (before after : σ),
    Leaves (throwThe Failure thrown : m α) before after → after = before
  of_tryCatch : ∀ {α : Type} (action : m α) (handler : Failure → m α) (before after : σ),
    Leaves (tryCatchThe Failure action handler) before after →
      Leaves action before after ∨
        ∃ caught middle, Leaves action before middle ∧ Leaves (handler caught) middle after

/-- A step that may fail leaves a state in any case. -/
instance {σ : Type} : Changing σ (ExceptT Failure (StateM σ)) where
  Leaves step before after := (step before).2 = after
  of_pure value before after left := left.symm
  of_bind first next before after left := by
    cases begun : first before with
    | mk result middle =>
      cases result with
      | ok value =>
        rw [bind_ok _ _ _ _ _ begun] at left
        exact .inr ⟨value, middle, rfl, left⟩
      | error failure =>
        rw [bind_error _ _ _ _ _ begun] at left
        exact .inl left
  of_throw thrown before after left := left.symm
  of_tryCatch action handler before after left := by
    cases begun : action before with
    | mk result middle =>
      have unfolded : (tryCatchThe Failure action handler : ExceptT Failure (StateM σ) _) before =
          match result with
          | .ok value => (.ok value, middle)
          | .error caught => handler caught middle := by
        simp only [tryCatchThe, MonadExceptOf.tryCatch, ExceptT.tryCatch, ExceptT.mk, bind,
          StateT.bind, begun]
        cases result <;> rfl
      rw [unfolded] at left
      cases result with
      | ok value => exact .inl left
      | error caught => exact .inr ⟨caught, middle, rfl, left⟩

/-- What is remembered besides may be anything. -/
instance {σ ρ : Type} {m : Type → Type} [Monad m] [MonadExceptOf Failure m] [Changing σ m] :
    Changing σ (StateT ρ m) where
  Leaves step before after := ∃ remembered, Changing.Leaves (step remembered) before after
  of_pure value before after := by
    rintro ⟨remembered, left⟩
    exact Changing.of_pure _ _ _ left
  of_bind first next before after := by
    rintro ⟨remembered, left⟩
    obtain left | ⟨⟨value, later⟩, middle, begun, left⟩ := Changing.of_bind (first remembered)
      (fun pair => next pair.1 pair.2) before after left
    · exact .inl ⟨remembered, left⟩
    · exact .inr ⟨value, middle, ⟨remembered, begun⟩, later, left⟩
  of_throw thrown before after := by
    rintro ⟨remembered, left⟩
    obtain left | ⟨_, middle, begun, left⟩ := Changing.of_bind _ _ _ _ left
    · exact Changing.of_throw _ _ _ left
    · rw [Changing.of_pure _ _ _ left]
      exact Changing.of_throw _ _ _ begun
  of_tryCatch action handler before after := by
    rintro ⟨remembered, left⟩
    obtain left | ⟨caught, middle, begun, left⟩ := Changing.of_tryCatch _ _ _ _ left
    · exact .inl ⟨remembered, left⟩
    · exact .inr ⟨caught, middle, ⟨remembered, begun⟩, remembered, left⟩

/-! ## Upholding an invariant -/

section

variable {σ : Type} {m : Type → Type} [Monad m] [MonadExceptOf Failure m] [Changing σ m]
variable {α β : Type}

/-- An invariant outlasts a step, also one that fails. -/
class Upholds (Invariant : σ → Prop) (step : m α) : Prop where
  upheld : ∀ before after, Changing.Leaves step before after → Invariant before → Invariant after

variable {Invariant : σ → Prop}

/-- Returning a value leaves the state alone. -/
instance (value : α) : Upholds Invariant (pure value : m α) where
  upheld before after left holds := by
    rw [Changing.of_pure _ _ _ left]
    exact holds

/-- Failing leaves the state alone. -/
instance (cause : Cause) : Upholds Invariant (fail cause : m α) where
  upheld before after left holds := by
    rw [Changing.of_throw _ _ _ left]
    exact holds

/-- Two steps in a row uphold what both uphold. -/
theorem Upholds.bind {first : m α} {next : α → m β} (begun : Upholds Invariant first)
    (rest : ∀ value, Upholds Invariant (next value)) : Upholds Invariant (first >>= next) where
  upheld before after left holds := by
    obtain left | ⟨value, middle, ran, left⟩ := Changing.of_bind _ _ _ _ left
    · exact begun.upheld before after left holds
    · exact (rest value).upheld middle after left (begun.upheld before middle ran holds)

/-- The same, found without being asked for. -/
instance (first : m α) (next : α → m β) [begun : Upholds Invariant first]
    [rest : ∀ value, Upholds Invariant (next value)] : Upholds Invariant (first >>= next) :=
  .bind begun rest

/-- Converting a value changes no state. -/
instance [LawfulMonad m] (convert : α → β) (step : m α) [Upholds Invariant step] :
    Upholds Invariant (convert <$> step) := by
  rw [map_eq_pure_bind]
  infer_instance

/-- What a failure is reported under changes no state. -/
instance (name : Step) (step : m α) [inner : Upholds Invariant step] :
    Upholds Invariant (during name step) where
  upheld before after left holds := by
    obtain left | ⟨caught, middle, begun, left⟩ := Changing.of_tryCatch _ _ _ _ left
    · exact inner.upheld before after left holds
    · rw [Changing.of_throw _ _ _ left]
      exact inner.upheld before middle begun holds

/-- A step that branches upholds what both branches uphold. -/
instance (condition : Prop) [Decidable condition] (first second : m α)
    [Upholds Invariant first] [Upholds Invariant second] :
    Upholds Invariant (if condition then first else second) := by
  split <;> infer_instance

/-- Going through a list upholds what each step does. -/
instance [LawfulMonad m] (step : α → m β) [∀ item, Upholds Invariant (step item)]
    (items : List α) : Upholds Invariant (items.mapM step) := by
  induction items with
  | nil =>
    rw [List.mapM_nil]
    infer_instance
  | cons item others inductionHypothesis =>
    rw [List.mapM_cons]
    infer_instance

/-- What is remembered beside a state has no share in it. -/
instance {ρ : Type} [LawfulMonad m] (step : StateT ρ m α) [inner : Upholds Invariant step]
    (remembered : ρ) : Upholds Invariant (step.run' remembered) := by
  have begun : Upholds Invariant (step remembered) :=
    ⟨fun before after left => inner.upheld before after ⟨remembered, left⟩⟩
  exact inferInstanceAs (Upholds Invariant (Prod.fst <$> step remembered))

end

/-! ## Single steps -/

section

variable {σ ρ α : Type} {Invariant : σ → Prop}

/-- The state behind a step is the one that the step leaves. -/
theorem upholds_iff (step : ExceptT Failure (StateM σ) α) :
    Upholds Invariant step ↔ ∀ before, Invariant before → Invariant (step before).2 := by
  constructor
  · intro upholds before holds
    exact upholds.upheld before _ rfl holds
  · intro each
    constructor
    rintro before _ rfl holds
    exact each before holds

/-- An invariant holds after a step that succeeds. -/
theorem Upholds.of_runs {step : ExceptT Failure (StateM σ) α} (upholds : Upholds Invariant step)
    {before after : σ} {value : α} (ran : Runs step before value after)
    (holds : Invariant before) : Invariant after := by
  have left : (step before).2 = after := congrArg Prod.snd ran
  exact upholds.upheld before after left holds

/-- An outcome that is taken over changes no state. -/
instance (outcome : Except Failure α) :
    Upholds Invariant (settle outcome : ExceptT Failure (StateM σ) α) :=
  (upholds_iff _).2 fun _ holds => holds

/-- Looking at the state changes nothing. -/
instance : Upholds Invariant (get : ExceptT Failure (StateM σ) σ) :=
  (upholds_iff _).2 fun _ holds => holds

/-- Looking at the state by its type changes nothing. -/
instance : Upholds Invariant (getThe σ : ExceptT Failure (StateM σ) σ) :=
  (upholds_iff _).2 fun _ holds => holds

/-- A change upholds what it keeps. -/
theorem upholds_modify (change : σ → σ)
    (kept : ∀ state, Invariant state → Invariant (change state)) :
    Upholds Invariant (modify change : ExceptT Failure (StateM σ) PUnit) :=
  (upholds_iff _).2 kept

/-- A state may be put in the place of another one that had the invariant, if it has the
invariant as well. -/
theorem upholds_replace {β : Type} (replacement : σ → Except Failure σ)
    (kept : ∀ state replaced, replacement state = .ok replaced → Invariant state →
      Invariant replaced)
    {rest : ExceptT Failure (StateM σ) β} (upholds : Upholds Invariant rest) :
    Upholds Invariant (do
      set (← settle (replacement (← getThe σ)))
      rest) := by
  rw [upholds_iff]
  intro before holds
  have looked : (getThe σ : ExceptT Failure (StateM σ) σ) before = (.ok before, before) := rfl
  have settled : (settle (replacement before) : ExceptT Failure (StateM σ) σ) before =
      (replacement before, before) := rfl
  rw [bind_ok _ _ _ _ _ looked]
  cases ran : replacement before with
  | error failure =>
    rw [ran] at settled
    rw [bind_error _ _ _ _ _ settled]
    exact holds
  | ok replaced =>
    have put : (set replaced : ExceptT Failure (StateM σ) PUnit) before = (.ok ⟨⟩, replaced) := rfl
    rw [ran] at settled
    rw [bind_ok _ _ _ _ _ settled, bind_ok _ _ _ _ _ put]
    exact (upholds_iff rest).1 upholds replaced (kept before replaced ran holds)

/-- What is remembered besides does not concern the state. -/
instance (step : ExceptT Failure (StateM σ) α) [inner : Upholds Invariant step] :
    Upholds Invariant (liftM step : StateT ρ (ExceptT Failure (StateM σ)) α) where
  upheld before after := by
    rintro ⟨remembered, left⟩ holds
    obtain left | ⟨value, middle, begun, left⟩ := Changing.of_bind _ _ _ _ left
    · exact inner.upheld before after left holds
    · rw [Changing.of_pure _ _ _ left]
      exact inner.upheld before middle begun holds

/-- Looking at what is remembered changes no state. -/
instance : Upholds Invariant (getThe ρ : StateT ρ (ExceptT Failure (StateM σ)) ρ) where
  upheld before after := by
    rintro ⟨remembered, rfl⟩ holds
    exact holds

/-- Looking at the state changes nothing, also where something is remembered. -/
instance : Upholds Invariant (getThe σ : StateT ρ (ExceptT Failure (StateM σ)) σ) :=
  inferInstanceAs (Upholds Invariant
    (liftM (get : ExceptT Failure (StateM σ) σ) : StateT ρ (ExceptT Failure (StateM σ)) σ))

/-- Remembering something else changes no state. -/
instance (change : ρ → ρ) :
    Upholds Invariant (modifyThe ρ change : StateT ρ (ExceptT Failure (StateM σ)) PUnit) where
  upheld before after := by
    rintro ⟨remembered, rfl⟩ holds
    exact holds

end

end NullGuard.Stateful
