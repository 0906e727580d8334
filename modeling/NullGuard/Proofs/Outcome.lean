import Mathlib.Data.List.Forall2
import NullGuard.Failure

/-!
# Successful computations

What it takes for a computation that may fail to succeed: each of its parts has
to. A list of such computations succeeds exactly when all of them do, each with
the result that stands at its place.
-/

namespace NullGuard.Outcome

variable {α β : Type}

/-- Two computations in a row succeed when the first does and then the second. -/
theorem bind_eq_ok (first : Except Failure α) (next : α → Except Failure β) (value : β) :
    (first >>= next) = .ok value ↔ ∃ found, first = .ok found ∧ next found = .ok value := by
  cases first with
  | error failure => simp [bind, Except.bind]
  | ok found => simp [bind, Except.bind]

/-- Two computations in a row fail when the first does, or the second behind it. -/
theorem bind_eq_error (first : Except Failure α) (next : α → Except Failure β)
    (failure : Failure) :
    (first >>= next) = .error failure ↔
      first = .error failure ∨ ∃ found, first = .ok found ∧ next found = .error failure := by
  cases first with
  | error other => simp [bind, Except.bind]
  | ok found => simp [bind, Except.bind]

/-- A value that is returned is the outcome. -/
@[simp] theorem pure_eq_ok (value other : α) :
    (pure value : Except Failure α) = .ok other ↔ value = other := by
  simp [pure, Except.pure]

/-- A failure is no value. -/
@[simp] theorem fail_ne_ok (cause : Cause) (value : α) :
    (fail cause : Except Failure α) ≠ .ok value := by
  intro impossible
  cases impossible

/-- A check has to be passed. -/
theorem check_eq_ok (wrong : Prop) [Decidable wrong] (cause : Cause) (rest : Except Failure α)
    (value : α) :
    (if wrong then fail cause else rest) = .ok value ↔ ¬ wrong ∧ rest = .ok value := by
  by_cases known : wrong
  · simp [known]
  · simp [known]

/-- Naming the step of a failure does not change a success. -/
@[simp] theorem during_eq_ok (step : Step) (action : Except Failure α) (value : α) :
    (during step action : Except Failure α) = .ok value ↔ action = .ok value := by
  have unfolded : (during step action : Except Failure α) =
      tryCatch action fun failure => throw (failure.during step) := rfl
  rw [unfolded]
  cases action with
  | error failure =>
    constructor
    · intro impossible
      cases impossible
    · intro impossible
      cases impossible
  | ok result => rfl

/-- A list of computations succeeds with the results of its members. -/
theorem mapM_eq_ok (action : α → Except Failure β) (items : List α) (results : List β) :
    items.mapM action = .ok results ↔
      List.Forall₂ (fun item result => action item = .ok result) items results := by
  induction items generalizing results with
  | nil =>
    rw [List.mapM_nil, pure_eq_ok]
    constructor
    · rintro rfl
      exact .nil
    · intro none
      cases none
      rfl
  | cons item others inductionHypothesis =>
    rw [List.mapM_cons, bind_eq_ok]
    constructor
    · rintro ⟨result, succeeded, rest⟩
      obtain ⟨results, each, returned⟩ := (bind_eq_ok ..).1 rest
      obtain rfl := (pure_eq_ok ..).1 returned
      exact .cons succeeded ((inductionHypothesis results).1 each)
    · intro each
      cases each with
      | @cons _ result _ results succeeded rest =>
        refine ⟨result, succeeded, (bind_eq_ok ..).2 ?_⟩
        exact ⟨results, (inductionHypothesis results).2 rest, rfl⟩

/-- In two lists that are related place by place each member of the second has a
partner in the first. -/
theorem exists_of_forall₂ {R : α → β → Prop} {items : List α} {results : List β}
    (each : List.Forall₂ R items results) : ∀ result ∈ results, ∃ item ∈ items, R item result := by
  induction each with
  | nil => simp
  | @cons item result _ _ related _ inductionHypothesis =>
    rw [List.forall_mem_cons]
    refine ⟨⟨item, List.mem_cons_self, related⟩, ?_⟩
    intro other member
    obtain ⟨found, inside, reached⟩ := inductionHypothesis other member
    exact ⟨found, List.mem_cons_of_mem _ inside, reached⟩

/-- The partner of a member stands at the same place. -/
theorem getElem?_of_forall₂ {R : α → β → Prop} {items : List α} {results : List β}
    (each : List.Forall₂ R items results) (place : Nat) (item : α)
    (here : items[place]? = some item) :
    ∃ result, results[place]? = some result ∧ R item result := by
  induction each generalizing place with
  | nil => cases here
  | @cons first result _ _ related _ inductionHypothesis =>
    cases place with
    | zero =>
      obtain rfl := Option.some.inj here
      exact ⟨result, rfl, related⟩
    | succ place => exact inductionHypothesis place here

/-- Two lists are related if their members are at each place. -/
theorem forall₂_of_getElem? {R : α → β → Prop} {items : List α} {results : List β}
    (counted : items.length = results.length)
    (each : ∀ (place : Nat) (item : α) (result : β), items[place]? = some item →
      results[place]? = some result → R item result) : List.Forall₂ R items results := by
  refine List.forall₂_iff_get.2 ⟨counted, fun place inside resultInside => ?_⟩
  exact each place _ _ (List.getElem?_eq_getElem inside) (List.getElem?_eq_getElem resultInside)

/-- What agrees at each place agrees in the lists. -/
theorem map_eq_of_forall₂ {γ : Type} {R : α → β → Prop} (f : α → γ) (g : β → γ)
    (agree : ∀ item result, R item result → g result = f item) {items : List α}
    {results : List β} (each : List.Forall₂ R items results) :
    results.map g = items.map f := by
  induction each with
  | nil => rfl
  | cons related _ inductionHypothesis =>
    rw [List.map_cons, List.map_cons, agree _ _ related, inductionHypothesis]

/-- Of two related lists both are empty or neither is. -/
theorem ne_nil_iff_of_forall₂ {R : α → β → Prop} {items : List α} {results : List β}
    (each : List.Forall₂ R items results) : items ≠ [] ↔ results ≠ [] := by
  rw [← List.length_pos_iff, ← List.length_pos_iff, each.length_eq]

/-- Lists that are related to one list in the middle are related to each other. -/
theorem forall₂_trans {γ : Type} {R : α → β → Prop} {S : β → γ → Prop} {T : α → γ → Prop}
    (compose : ∀ item middle result, R item middle → S middle result → T item result)
    {items : List α} {middles : List β} {results : List γ} (first : List.Forall₂ R items middles)
    (second : List.Forall₂ S middles results) : List.Forall₂ T items results := by
  induction first generalizing results with
  | nil =>
    cases second
    exact .nil
  | cons related _ inductionHypothesis =>
    cases second with
    | cons relatedToo rest =>
      exact .cons (compose _ _ _ related relatedToo) (inductionHypothesis rest)

/-- What holds between members of one list holds between their partners. -/
theorem pairwise_of_forall₂ {R : α → β → Prop} {P : α → α → Prop} {Q : β → β → Prop}
    (carries : ∀ first second newFirst newSecond, R first newFirst → R second newSecond →
      P first second → Q newFirst newSecond)
    {items : List α} {results : List β} (each : List.Forall₂ R items results)
    (pairs : items.Pairwise P) : results.Pairwise Q := by
  induction each with
  | nil => exact .nil
  | @cons item result _ others related each inductionHypothesis =>
    obtain ⟨here, later⟩ := List.pairwise_cons.1 pairs
    refine List.pairwise_cons.2 ⟨?_, inductionHypothesis later⟩
    intro other member
    obtain ⟨found, inside, reached⟩ := exists_of_forall₂ each other member
    exact carries _ _ _ _ related reached (here found inside)

/-- Each result of a list of computations is the result of one of them. -/
theorem exists_of_mem_mapM (action : α → Except Failure β) (items : List α) (results : List β)
    (ran : items.mapM action = .ok results) :
    ∀ result ∈ results, ∃ item ∈ items, action item = .ok result :=
  exists_of_forall₂ ((mapM_eq_ok ..).1 ran)

/-- Each member of a list of computations that succeeds does so itself. -/
theorem exists_of_mapM (action : α → Except Failure β) (items : List α) (results : List β)
    (ran : items.mapM action = .ok results) :
    ∀ item ∈ items, ∃ result, action item = .ok result := by
  intro item member
  have each := (mapM_eq_ok ..).1 ran
  obtain ⟨result, -, succeeded⟩ := exists_of_forall₂
    (R := fun result item => action item = .ok result) each.flip item member
  exact ⟨result, succeeded⟩

/-- If each member succeeds with a known result, so does the list. -/
theorem mapM_of (action : α → Except Failure β) (f : α → β) (items : List α)
    (each : ∀ item ∈ items, action item = .ok (f item)) :
    items.mapM action = .ok (items.map f) := by
  rw [mapM_eq_ok, List.forall₂_map_right_iff, List.forall₂_same]
  exact each

/-- If each member has a partner, there is a list of the partners. -/
theorem exists_forall₂ {R : α → β → Prop} (items : List α)
    (each : ∀ item ∈ items, ∃ result, R item result) : ∃ results, List.Forall₂ R items results := by
  induction items with
  | nil => exact ⟨[], .nil⟩
  | cons item others inductionHypothesis =>
    obtain ⟨⟨result, related⟩, rest⟩ := List.forall_mem_cons.1 each
    obtain ⟨results, relatedAll⟩ := inductionHypothesis rest
    exact ⟨result :: results, .cons related relatedAll⟩

/-- If each member succeeds, so does the list. -/
theorem exists_mapM_eq_ok (action : α → Except Failure β) (items : List α)
    (each : ∀ item ∈ items, ∃ result, action item = .ok result) :
    ∃ results, items.mapM action = .ok results := by
  obtain ⟨results, succeeded⟩ := exists_forall₂ items each
  exact ⟨results, (mapM_eq_ok ..).2 succeeded⟩

/-- A list of computations fails as one of its members does. -/
theorem exists_of_mapM_error (action : α → Except Failure β) (items : List α) (failure : Failure)
    (ran : items.mapM action = .error failure) : ∃ item ∈ items, action item = .error failure := by
  induction items with
  | nil => cases ran
  | cons item others inductionHypothesis =>
    rw [List.mapM_cons, bind_eq_error] at ran
    obtain first | ⟨result, -, rest⟩ := ran
    · exact ⟨item, List.mem_cons_self, first⟩
    · obtain later | ⟨results, -, returned⟩ := (bind_eq_error ..).1 rest
      · obtain ⟨found, member, failed⟩ := inductionHypothesis later
        exact ⟨found, List.mem_cons_of_mem _ member, failed⟩
      · cases returned

/-- A list of computations whose successes and results are known. -/
theorem mapM_eq_ok_iff {action : α → Except Failure β} {f : α → β} {Fits : α → Prop}
    (exactly : ∀ item result, action item = .ok result ↔ Fits item ∧ result = f item)
    (items : List α) (results : List β) :
    items.mapM action = .ok results ↔ (∀ item ∈ items, Fits item) ∧ results = items.map f := by
  constructor
  · intro ran
    have fit : ∀ item ∈ items, Fits item := by
      intro item member
      obtain ⟨result, succeeded⟩ := exists_of_mapM action items results ran item member
      exact ((exactly ..).1 succeeded).1
    have known := mapM_of action f items fun item member => (exactly ..).2 ⟨fit item member, rfl⟩
    exact ⟨fit, Except.ok.inj (ran.symm.trans known)⟩
  · rintro ⟨fit, rfl⟩
    exact mapM_of action f items fun item member => (exactly ..).2 ⟨fit item member, rfl⟩

end NullGuard.Outcome
