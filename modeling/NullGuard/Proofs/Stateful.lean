import NullGuard.Proofs.Outcome

/-!
# Steps with state

A step that changes a state and may fail keeps what it has changed when it
fails. Here only runs that succeed matter: from which state with which value to
which state. Steps in a row run one after the other, and a list of steps hands
the state on from each member to the next.
-/

namespace NullGuard.Stateful

variable {σ α β : Type}

/-- A step succeeds with a value and leaves a state behind. -/
def Runs (step : ExceptT Failure (StateM σ) α) (before : σ) (value : α) (after : σ) : Prop :=
  step before = (.ok value, after)

/-- Returning a value runs through and leaves the state alone. -/
theorem runs_pure (value found : α) (before after : σ) :
    Runs (pure value) before found after ↔ found = value ∧ after = before := by
  constructor
  · intro ran
    obtain ⟨same, rfl⟩ := Prod.mk.inj ran
    exact ⟨(Except.ok.inj same).symm, rfl⟩
  · rintro ⟨rfl, rfl⟩
    rfl

/-- Behind a step that succeeds the next one begins in the state that it leaves. -/
theorem bind_ok (first : ExceptT Failure (StateM σ) α) (next : α → ExceptT Failure (StateM σ) β)
    (before middle : σ) (found : α) (ran : first before = (.ok found, middle)) :
    (first >>= next) before = next found middle := by
  show (fun pair : Except Failure α × σ => ExceptT.bindCont next pair.1 pair.2) (first before) = _
  rw [ran]
  rfl

/-- Behind a step that fails nothing is done. -/
theorem bind_error (first : ExceptT Failure (StateM σ) α)
    (next : α → ExceptT Failure (StateM σ) β) (before middle : σ) (failure : Failure)
    (ran : first before = (.error failure, middle)) :
    (first >>= next) before = (.error failure, middle) := by
  show (fun pair : Except Failure α × σ => ExceptT.bindCont next pair.1 pair.2) (first before) = _
  rw [ran]
  rfl

/-- Two steps in a row succeed when the first does and then the second. -/
theorem runs_bind (first : ExceptT Failure (StateM σ) α)
    (next : α → ExceptT Failure (StateM σ) β) (before after : σ) (value : β) :
    Runs (first >>= next) before value after ↔
      ∃ found middle, Runs first before found middle ∧ Runs (next found) middle value after := by
  constructor
  · intro ran
    cases begun : first before with
    | mk result middle =>
      cases result with
      | ok found =>
        rw [Runs, bind_ok first next before middle found begun] at ran
        exact ⟨found, middle, begun, ran⟩
      | error failure =>
        rw [Runs, bind_error first next before middle failure begun] at ran
        cases (Prod.mk.inj ran).1
  · rintro ⟨found, middle, begun, ran⟩
    rw [Runs, bind_ok first next before middle found begun]
    exact ran

/-- A value that is converted comes from a step that runs through. -/
theorem runs_map (convert : α → β) (step : ExceptT Failure (StateM σ) α) (before after : σ)
    (value : β) :
    Runs (convert <$> step) before value after ↔
      ∃ found, Runs step before found after ∧ value = convert found := by
  rw [map_eq_pure_bind, runs_bind]
  simp only [runs_pure]
  constructor
  · rintro ⟨found, middle, ran, rfl, rfl⟩
    exact ⟨found, ran, rfl⟩
  · rintro ⟨found, ran, rfl⟩
    exact ⟨found, after, ran, rfl, rfl⟩

/-- A computation without state leaves the state as it is. -/
theorem runs_settle (outcome : Except Failure α) (before after : σ) (value : α) :
    Runs (settle outcome) before value after ↔ outcome = .ok value ∧ after = before := by
  constructor
  · intro ran
    obtain ⟨same, rfl⟩ := Prod.mk.inj ran
    exact ⟨same, rfl⟩
  · rintro ⟨rfl, rfl⟩
    rfl

/-- A failure does not run through. -/
theorem not_runs_fail (cause : Cause) (before after : σ) (value : α) :
    ¬ Runs (fail cause : ExceptT Failure (StateM σ) α) before value after := by
  intro ran
  cases (Prod.mk.inj ran).1

/-- Naming the step of a failure changes nothing but the failure. -/
theorem during_apply (name : Step) (step : ExceptT Failure (StateM σ) α) (before : σ) :
    (during name step : ExceptT Failure (StateM σ) α) before =
      ((step before).1.mapError (Failure.during name), (step before).2) := by
  cases begun : step before with
  | mk result middle =>
    simp only [during, tryCatchThe, MonadExceptOf.tryCatch, ExceptT.tryCatch, ExceptT.mk, bind,
      StateT.bind, begun]
    cases result <;> rfl

/-- What a failure would be reported under makes no difference to a success. -/
theorem runs_during (name : Step) (step : ExceptT Failure (StateM σ) α) (before after : σ)
    (value : α) :
    Runs (during name step) before value after ↔ Runs step before value after := by
  rw [Runs, Runs, during_apply]
  cases step before with
  | mk result middle =>
    cases result with
    | ok found => rfl
    | error failure =>
      constructor
      · intro impossible
        cases (Prod.mk.inj impossible).1
      · intro impossible
        cases (Prod.mk.inj impossible).1

/-- Looking at the state gives the state. -/
theorem runs_get (before after value : σ) :
    Runs (get : ExceptT Failure (StateM σ) σ) before value after ↔
      value = before ∧ after = before := by
  constructor
  · intro ran
    obtain ⟨same, rfl⟩ := Prod.mk.inj ran
    exact ⟨(Except.ok.inj same).symm, rfl⟩
  · rintro ⟨rfl, rfl⟩
    rfl

/-- Setting the state replaces it. -/
theorem runs_set (before after state : σ) (value : PUnit) :
    Runs (set state : ExceptT Failure (StateM σ) PUnit) before value after ↔ after = state := by
  constructor
  · intro ran
    exact (Prod.mk.inj ran).2.symm
  · rintro rfl
    rfl

/-- Changing the state replaces it by what the change makes of it. -/
theorem runs_modify (change : σ → σ) (before after : σ) (value : PUnit) :
    Runs (modify change : ExceptT Failure (StateM σ) PUnit) before value after ↔
      after = change before := by
  constructor
  · intro ran
    exact (Prod.mk.inj ran).2.symm
  · rintro rfl
    rfl

/-! Such steps at the front of others, or with others in front of them. -/

/-- A computation without state in front of other steps. -/
theorem runs_settle_bind (outcome : Except Failure α) (next : α → ExceptT Failure (StateM σ) β)
    (before after : σ) (value : β) :
    Runs (settle outcome >>= next) before value after ↔
      ∃ found, outcome = .ok found ∧ Runs (next found) before value after := by
  rw [runs_bind]
  constructor
  · rintro ⟨found, middle, settled, ran⟩
    obtain ⟨succeeded, same⟩ := (runs_settle ..).1 settled
    rw [same] at ran
    exact ⟨found, succeeded, ran⟩
  · rintro ⟨found, succeeded, ran⟩
    exact ⟨found, before, (runs_settle ..).2 ⟨succeeded, rfl⟩, ran⟩

/-- Steps that look at the state. -/
theorem runs_get_bind (next : σ → ExceptT Failure (StateM σ) β) (before after : σ) (value : β) :
    Runs (get >>= next) before value after ↔ Runs (next before) before value after := by
  rw [runs_bind]
  constructor
  · rintro ⟨found, middle, looked, ran⟩
    obtain ⟨same, stays⟩ := (runs_get ..).1 looked
    rw [same, stays] at ran
    exact ran
  · intro ran
    exact ⟨before, before, (runs_get ..).2 ⟨rfl, rfl⟩, ran⟩

/-- A step whose result is only converted. -/
theorem runs_bind_pure (convert : α → β) (step : ExceptT Failure (StateM σ) α) (before after : σ)
    (value : β) :
    Runs (step >>= fun found => pure (convert found)) before value after ↔
      ∃ found, Runs step before found after ∧ value = convert found := by
  rw [← map_eq_pure_bind, runs_map]

/-- A step that may be left out, in front of other steps. -/
theorem runs_optional_bind (condition : Bool) (step : ExceptT Failure (StateM σ) PUnit)
    (next : ExceptT Failure (StateM σ) β) (before after : σ) (value : β) :
    Runs (if condition = true then step >>= fun _ => next else next) before value after ↔
      ∃ middle, (if condition = true then Runs step before () middle else middle = before) ∧
        Runs next middle value after := by
  split
  next =>
    rw [runs_bind]
    constructor
    · rintro ⟨_, middle, first, rest⟩
      exact ⟨middle, first, rest⟩
    · rintro ⟨middle, first, rest⟩
      exact ⟨(), middle, first, rest⟩
  next =>
    constructor
    · intro ran
      exact ⟨before, rfl, ran⟩
    · rintro ⟨middle, rfl, ran⟩
      exact ran

/-! ## Steps that remember something besides -/

variable {ρ : Type}

/-- A step with a second state succeeds with a value and leaves both states
behind. -/
def RunsWith (step : StateT ρ (ExceptT Failure (StateM σ)) α) (before : ρ × σ) (value : α)
    (after : ρ × σ) : Prop :=
  Runs (step.run before.1) before.2 (value, after.1) after.2

/-- Returning a value leaves both states alone. -/
theorem runsWith_pure (value found : α) (before after : ρ × σ) :
    RunsWith (pure value) before found after ↔ found = value ∧ after = before := by
  rw [RunsWith, StateT.run_pure, runs_pure]
  constructor
  · rintro ⟨same, state⟩
    obtain ⟨rfl, remembered⟩ := Prod.mk.inj same
    exact ⟨rfl, Prod.ext remembered state⟩
  · rintro ⟨rfl, rfl⟩
    exact ⟨rfl, rfl⟩

/-- Steps in a row run through if both do, each with both states. -/
theorem runsWith_bind (first : StateT ρ (ExceptT Failure (StateM σ)) α)
    (next : α → StateT ρ (ExceptT Failure (StateM σ)) β) (before after : ρ × σ) (value : β) :
    RunsWith (first >>= next) before value after ↔
      ∃ found middle, RunsWith first before found middle ∧
        RunsWith (next found) middle value after := by
  rw [RunsWith, StateT.run_bind, runs_bind]
  constructor
  · rintro ⟨⟨found, remembered⟩, state, begun, ran⟩
    exact ⟨found, (remembered, state), begun, ran⟩
  · rintro ⟨found, middle, begun, ran⟩
    exact ⟨(found, middle.1), middle.2, begun, ran⟩

/-- A step without the second state leaves that state as it is. -/
theorem runsWith_lift (step : ExceptT Failure (StateM σ) α) (before after : ρ × σ) (value : α) :
    RunsWith (liftM step) before value after ↔
      Runs step before.2 value after.2 ∧ after.1 = before.1 := by
  have unfolded : (liftM step : StateT ρ (ExceptT Failure (StateM σ)) α).run before.1 =
      step >>= fun value => pure (value, before.1) := rfl
  rw [RunsWith, unfolded, runs_bind]
  simp only [runs_pure]
  constructor
  · rintro ⟨found, state, ran, same, rfl⟩
    obtain ⟨rfl, remembered⟩ := Prod.mk.inj same
    exact ⟨ran, remembered⟩
  · rintro ⟨ran, remembered⟩
    exact ⟨value, after.2, ran, by rw [remembered], rfl⟩

/-- Looking at what is remembered. -/
theorem runsWith_remembered (before after : ρ × σ) (value : ρ) :
    RunsWith (getThe ρ) before value after ↔ value = before.1 ∧ after = before := by
  constructor
  · intro ran
    obtain ⟨same, state⟩ := Prod.mk.inj ran
    obtain ⟨looked, remembered⟩ := Prod.mk.inj (Except.ok.inj same)
    exact ⟨looked.symm, Prod.ext remembered.symm state.symm⟩
  · rintro ⟨rfl, rfl⟩
    rfl

/-- Looking at the state. -/
theorem runsWith_state (before after : ρ × σ) (value : σ) :
    RunsWith (getThe σ) before value after ↔ value = before.2 ∧ after = before := by
  constructor
  · intro ran
    obtain ⟨same, state⟩ := Prod.mk.inj ran
    obtain ⟨looked, remembered⟩ := Prod.mk.inj (Except.ok.inj same)
    exact ⟨looked.symm, Prod.ext remembered.symm state.symm⟩
  · rintro ⟨rfl, rfl⟩
    rfl

/-- Changing what is remembered. -/
theorem runsWith_remember (change : ρ → ρ) (before after : ρ × σ) (value : PUnit) :
    RunsWith (modifyThe ρ change) before value after ↔ after = (change before.1, before.2) := by
  constructor
  · intro ran
    obtain ⟨same, state⟩ := Prod.mk.inj ran
    obtain ⟨-, remembered⟩ := Prod.mk.inj (Except.ok.inj same)
    exact Prod.ext remembered.symm state.symm
  · rintro rfl
    rfl

/-! ## Lists of steps -/

/-- Steps that run one after the other, each from the state that the one before it
left behind. -/
inductive RunsAll {State : Type} (Step : α → State → β → State → Prop) :
    List α → State → List β → State → Prop
  | nil (state : State) : RunsAll Step [] state [] state
  | cons {item : α} {items : List α} {result : β} {results : List β} {before middle after : State}
      (first : Step item before result middle) (rest : RunsAll Step items middle results after) :
      RunsAll Step (item :: items) before (result :: results) after

/-- A list of steps runs if its members do, whatever running means. -/
theorem runsAll_of_mapM {m : Type → Type} [Monad m] [LawfulMonad m] {State : Type}
    (Running : {γ : Type} → m γ → State → γ → State → Prop)
    (ofPure : ∀ {γ : Type} (value found : γ) (before after : State),
      Running (pure value) before found after → found = value ∧ after = before)
    (ofBind : ∀ {γ δ : Type} (first : m γ) (next : γ → m δ) (before after : State) (value : δ),
      Running (first >>= next) before value after →
        ∃ found middle, Running first before found middle ∧
          Running (next found) middle value after)
    (step : α → m β) (items : List α) (before after : State) (results : List β)
    (ran : Running (items.mapM step) before results after) :
    RunsAll (fun item => Running (step item)) items before results after := by
  induction items generalizing before results with
  | nil =>
    rw [List.mapM_nil] at ran
    obtain ⟨rfl, rfl⟩ := ofPure _ _ _ _ ran
    exact .nil _
  | cons item others inductionHypothesis =>
    rw [List.mapM_cons] at ran
    obtain ⟨result, middle, first, ran⟩ := ofBind _ _ _ _ _ ran
    obtain ⟨later, last, rest, returned⟩ := ofBind _ _ _ _ _ ran
    obtain ⟨rfl, rfl⟩ := ofPure _ _ _ _ returned
    exact .cons first (inductionHypothesis middle later rest)

/-- Going through a list that runs through is a run of every step, from each state to the
next. -/
theorem runsAll_of_runs (step : α → ExceptT Failure (StateM σ) β) (items : List α)
    (before after : σ) (results : List β) (ran : Runs (items.mapM step) before results after) :
    RunsAll (fun item => Runs (step item)) items before results after :=
  runsAll_of_mapM Runs (fun _ _ _ _ => (runs_pure ..).1) (fun _ _ _ _ _ => (runs_bind ..).1)
    step items before after results ran

/-- The same with something that is remembered besides. -/
theorem runsAll_of_runsWith (step : α → StateT ρ (ExceptT Failure (StateM σ)) β)
    (items : List α) (before after : ρ × σ) (results : List β)
    (ran : RunsWith (items.mapM step) before results after) :
    RunsAll (fun item => RunsWith (step item)) items before results after :=
  runsAll_of_mapM RunsWith (fun _ _ _ _ => (runsWith_pure ..).1)
    (fun _ _ _ _ _ => (runsWith_bind ..).1) step items before after results ran

/-- States only grow, and what holds of a step's result goes on to hold when they
do. So in the end it holds of every result. -/
theorem RunsAll.forall₂ {State : Type} {Step : α → State → β → State → Prop}
    (Grows : State → State → Prop) (Holds : State → α → β → Prop)
    (refl : ∀ state, Grows state state)
    (trans : ∀ first second third, Grows first second → Grows second third → Grows first third)
    (lasts : ∀ state later item result, Grows state later → Holds state item result →
      Holds later item result)
    {items : List α} {before after : State} {results : List β}
    (ran : RunsAll Step items before results after)
    (each : ∀ item ∈ items, ∀ state result next, Grows before state →
      Step item state result next → Grows state next ∧ Holds next item result) :
    Grows before after ∧ List.Forall₂ (Holds after) items results := by
  induction ran with
  | nil state => exact ⟨refl state, .nil⟩
  | @cons item items result results before middle after first rest inductionHypothesis =>
    obtain ⟨here, behind⟩ := List.forall_mem_cons.1 each
    obtain ⟨grown, holds⟩ := here before result middle (refl before) first
    obtain ⟨grownAgain, holdAll⟩ := inductionHypothesis
      fun item member state result next grows =>
        behind item member state result next (trans _ _ _ grown grows)
    exact ⟨trans _ _ _ grown grownAgain, .cons (lasts _ _ _ _ grownAgain holds) holdAll⟩

/-- What a step leaves as it is whenever its result is of some kind stays as it is over a list
of steps whose results are all of that kind. -/
theorem RunsAll.stays {State γ : Type} {Step : α → State → β → State → Prop} (part : State → γ)
    (Quiet : β → Prop) {items : List α} {before after : State} {results : List β}
    (ran : RunsAll Step items before results after) (quiet : ∀ result ∈ results, Quiet result)
    (each : ∀ item state result next, part state = part before → Step item state result next →
      Quiet result → part next = part state) :
    part after = part before := by
  induction ran with
  | nil state => rfl
  | @cons item items result results before middle after first _ inductionHypothesis =>
    obtain ⟨here, behind⟩ := List.forall_mem_cons.1 quiet
    have stayed := each item before result middle rfl first here
    rw [← stayed]
    exact inductionHypothesis behind fun item state result next same =>
      each item state result next (same.trans stayed)

/-! ## Steps that fail -/

/-- A step fails and leaves a state behind. -/
def Fails (step : ExceptT Failure (StateM σ) α) (before : σ) (failure : Failure)
    (after : σ) : Prop :=
  step before = (.error failure, after)

/-- Two steps in a row fail when the first does, or the second behind it. -/
theorem fails_bind (first : ExceptT Failure (StateM σ) α)
    (next : α → ExceptT Failure (StateM σ) β) (before after : σ) (failure : Failure) :
    Fails (first >>= next) before failure after ↔
      Fails first before failure after ∨
        ∃ found middle, Runs first before found middle ∧
          Fails (next found) middle failure after := by
  cases begun : first before with
  | mk result middle =>
    cases result with
    | ok found =>
      rw [Fails, bind_ok first next before middle found begun]
      constructor
      · intro failed
        exact .inr ⟨found, middle, begun, failed⟩
      · rintro (failed | ⟨other, state, ran, failed⟩)
        · cases begun.symm.trans failed
        · cases begun.symm.trans ran
          exact failed
    | error other =>
      rw [Fails, bind_error first next before middle other begun]
      constructor
      · intro failed
        cases failed
        exact .inl begun
      · rintro (failed | ⟨found, state, ran, -⟩)
        · cases begun.symm.trans failed
          rfl
        · cases begun.symm.trans ran

/-- A step fails under a name if it fails, and the failure carries the name. -/
theorem fails_during (name : Step) (step : ExceptT Failure (StateM σ) α) (before after : σ)
    (failure : Failure) :
    Fails (during name step) before failure after ↔
      ∃ inner, Fails step before inner after ∧ failure = inner.during name := by
  rw [Fails, during_apply]
  constructor
  · intro failed
    obtain ⟨result, rfl⟩ := Prod.mk.inj failed
    cases ran : step before with
    | mk found state =>
      rw [ran] at result
      cases found with
      | ok value => cases result
      | error inner => exact ⟨inner, ran, (Except.error.inj result).symm⟩
  · rintro ⟨inner, failed, rfl⟩
    rw [failed]
    rfl

/-- A computation without state leaves the state as it is when it fails. -/
theorem fails_settle (outcome : Except Failure α) (before after : σ) (failure : Failure) :
    Fails (settle outcome) before failure after ↔ outcome = .error failure ∧ after = before := by
  constructor
  · intro failed
    obtain ⟨same, rfl⟩ := Prod.mk.inj failed
    exact ⟨same, rfl⟩
  · rintro ⟨rfl, rfl⟩
    rfl

/-- A list of steps fails at one of them, in a state that the ones before it have
made. -/
theorem exists_of_fails_mapM (Grows : σ → σ → Prop) (refl : ∀ state, Grows state state)
    (trans : ∀ first second third, Grows first second → Grows second third → Grows first third)
    (step : α → ExceptT Failure (StateM σ) β) (items : List α) (before after : σ)
    (failure : Failure)
    (each : ∀ item ∈ items, ∀ state result next, Grows before state →
      Runs (step item) state result next → Grows state next)
    (failed : Fails (items.mapM step) before failure after) :
    ∃ item ∈ items, ∃ state last, Grows before state ∧ Fails (step item) state failure last := by
  induction items generalizing before with
  | nil =>
    rw [List.mapM_nil] at failed
    cases failed
  | cons item others inductionHypothesis =>
    obtain ⟨here, behind⟩ := List.forall_mem_cons.1 each
    rw [List.mapM_cons, fails_bind] at failed
    obtain first | ⟨result, middle, ran, failed⟩ := failed
    · exact ⟨item, List.mem_cons_self, before, after, refl before, first⟩
    · have grown := here before result middle (refl before) ran
      obtain rest | ⟨results, last, -, returned⟩ := (fails_bind ..).1 failed
      · obtain ⟨other, inside, state, last, grows, failedThere⟩ := inductionHypothesis middle
          (fun other inside state result next grows =>
            behind other inside state result next (trans _ _ _ grown grows)) rest
        exact ⟨other, List.mem_cons_of_mem _ inside, state, last, trans _ _ _ grown grows,
          failedThere⟩
      · cases returned

/-! ## Steps that succeed or fail -/

/-- The states before and after a step are related, also when the step fails. -/
def Keeps (Related : σ → σ → Prop) (step : ExceptT Failure (StateM σ) α) : Prop :=
  ∀ before, Related before (step before).2

section

variable {Related : σ → σ → Prop}

/-- Two steps in a row keep a relation that is transitive. -/
theorem Keeps.bind (trans : ∀ first second third, Related first second → Related second third →
      Related first third) {first : ExceptT Failure (StateM σ) α}
    {next : α → ExceptT Failure (StateM σ) β} (begun : Keeps Related first)
    (rest : ∀ value, Keeps Related (next value)) : Keeps Related (first >>= next) := by
  intro before
  cases ran : first before with
  | mk result middle =>
    have here : Related before middle := by
      have kept := begun before
      rw [ran] at kept
      exact kept
    cases result with
    | ok found =>
      rw [bind_ok _ _ _ _ _ ran]
      exact trans _ _ _ here (rest found middle)
    | error failure =>
      rw [bind_error _ _ _ _ _ ran]
      exact here

variable (refl : ∀ state, Related state state)
include refl

/-- An outcome that is taken over keeps what is reflexive. -/
theorem keeps_settle (outcome : Except Failure α) :
    Keeps Related (settle outcome : ExceptT Failure (StateM σ) α) := refl

/-- Returning a value keeps what is reflexive. -/
theorem keeps_pure (value : α) : Keeps Related (pure value : ExceptT Failure (StateM σ) α) := refl

/-- Looking at the state keeps what is reflexive. -/
theorem keeps_get : Keeps Related (get : ExceptT Failure (StateM σ) σ) := refl

omit refl in
/-- What a failure is reported under changes nothing about the states. -/
theorem Keeps.during {step : ExceptT Failure (StateM σ) α} (kept : Keeps Related step)
    (name : Step) : Keeps Related (NullGuard.during name step) := by
  intro before
  rw [during_apply]
  exact kept before

end

end NullGuard.Stateful
