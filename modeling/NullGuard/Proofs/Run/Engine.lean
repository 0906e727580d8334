import NullGuard.Proofs.Dispatcher.Order
import NullGuard.Proofs.Nullness.Race
import NullGuard.Run.Engine

/-!
# Engines

The classes of an input share one dispatcher and what it has found out about packages.
Nevertheless each of them comes to what it would come to alone, whichever classes were
transformed before and whatever is going on at the same time. So the results of an
engine are those of its classes one by one, and its totals add them up.
-/

namespace NullGuard

/-! ## Counts -/

namespace Statistics

/-- The counts that make up statistics. -/
def components : List (Statistics → Nat) :=
  [arguments, results, fieldReads, fieldWrites, constructorExits, staticInitializerExits,
    rewrittenMethods, synthesizedMethods]

/-- Counters are added one by one. -/
theorem component_add (a b : Statistics) :
    ∀ component ∈ components, component (a.add b) = component a + component b := by
  simp [components, add]

/-- Sums are taken component by component. -/
theorem component_sum (component : Statistics → Nat) (member : component ∈ components)
    (all : List Statistics) : component (sum all) = (all.map component).sum := by
  have nothing : component zero = 0 := by
    revert component
    simp [components, zero]
  have step (start : Statistics) :
      component (all.foldl add start) = component start + (all.map component).sum := by
    induction all generalizing start with
    | nil => simp
    | cons first others inductionHypothesis =>
      rw [List.foldl_cons, inductionHypothesis, component_add _ _ component member, List.map_cons,
        List.sum_cons, Nat.add_assoc]
  rw [sum, step, nothing, Nat.zero_add]

end Statistics

namespace EngineOutput

/-- The totals count what was done to the classes that were rewritten. -/
theorem totals_ofClasses (classes : List ClassResult) (component : Statistics → Nat)
    (member : component ∈ Statistics.components) :
    component (ofClasses classes).totals =
      ((ofClasses classes).rewritten.map fun item => component item.2.statistics).sum := by
  rw [ofClasses, rewritten, Statistics.component_sum component member, List.map_filterMap,
    List.map_filterMap]
  congr 2
  funext result
  cases result.outcome with
  | unchanged reason => rfl
  | rewritten woven => rfl

end EngineOutput

namespace Engine

/-! ## Classes of the input -/

/-- The classes of the entries are there with their positions. -/
theorem mem_classesOf (entries : List InputEntry) (position : Nat) (name : String)
    (bytes : List UInt8) :
    (position, name, bytes) ∈ classesOf entries ↔
      ∃ entry, entries[position]? = some entry ∧ entry.className = some name ∧
        entry.bytes = bytes := by
  simp [classesOf, List.mem_filterMap, List.mem_zipIdx_iff_getElem?]

/-- The classes stand in the order of the input. -/
theorem pairwise_classesOf (entries : List InputEntry) :
    (classesOf entries).Pairwise fun earlier later => earlier.1 < later.1 := by
  have positions : entries.zipIdx.Pairwise fun earlier later => earlier.2 < later.2 := by
    rw [← List.pairwise_map (f := Prod.snd), List.zipIdx_map_snd]
    exact List.pairwise_lt_range'
  rw [classesOf, List.pairwise_filterMap]
  refine positions.imp fun before first firstHere second secondHere => ?_
  obtain ⟨_, _, rfl⟩ := Option.map_eq_some_iff.1 firstHere
  obtain ⟨_, _, rfl⟩ := Option.map_eq_some_iff.1 secondHere
  exact before

/-! ## Weaving -/

/-- An engine can be made for every text that names a scope. -/
theorem create_of_parse {root : String} {scope : RootScope}
    (parsed : RootScope.parse root = .ok scope) : create root = .ok ⟨⟨some scope, .empty⟩⟩ := by
  rw [create, Dispatcher.activate, parsed]
  rfl

/-- What becomes of one class of the input if no other is transformed. -/
def resultAlone (scope : RootScope) (lookup : ClassLookup) (item : Nat × String × List UInt8) :
    Except Failure ClassResult := do
  let outcome ← during (.failedToWeave item.2.1)
    (Dispatcher.outcomeAlone scope lookup item.2.1 item.2.2)
  return ⟨item.1, item.2.1, outcome⟩

/-- The result for a class is what the dispatcher makes of it without having seen any other.
-/
theorem resultAlone_eq_ok (scope : RootScope) (lookup : ClassLookup)
    (item : Nat × String × List UInt8) (result : ClassResult) :
    resultAlone scope lookup item = .ok result ↔
      result.entry = item.1 ∧ result.name = item.2.1 ∧
        Dispatcher.outcomeAlone scope lookup item.2.1 item.2.2 = .ok result.outcome := by
  simp only [resultAlone, Outcome.bind_eq_ok, Outcome.during_eq_ok, Outcome.pure_eq_ok]
  constructor
  · rintro ⟨outcome, alone, rfl⟩
    exact ⟨rfl, rfl, alone⟩
  · rintro ⟨position, name, alone⟩
    exact ⟨result.outcome, alone, by rw [← position, ← name]⟩

section

variable {scope : RootScope} {lookup : ClassLookup}

/-- Each class in turn comes to what it comes to alone. -/
theorem weaveFrom_eq (dispatcher : Dispatcher) (sound : dispatcher.Sound scope lookup)
    (done : List ClassResult) (classes : List (Nat × String × List UInt8)) :
    weaveFrom lookup dispatcher done classes = do
      let results ← classes.mapM (resultAlone scope lookup)
      return done.reverse ++ results := by
  induction classes generalizing dispatcher done with
  | nil => simp [weaveFrom, pure, Except.pure, bind, Except.bind]
  | cons item others inductionHypothesis =>
    obtain ⟨position, name, bytes⟩ := item
    rw [weaveFrom, sound.result name bytes, List.mapM_cons, resultAlone]
    simp only [bind_assoc, pure_bind]
    congr 1
    funext outcome
    rw [inductionHypothesis _ (sound.transform name bytes)]
    simp

/-- The results are those of the classes one by one. -/
theorem weave_eq_ok {engine : Engine} (sound : engine.dispatcher.Sound scope lookup)
    (entries : List InputEntry) (output : EngineOutput) :
    engine.weave entries lookup = .ok output ↔
      ∃ results, List.Forall₂ (fun item result => resultAlone scope lookup item = .ok result)
        (classesOf entries) results ∧ output = .ofClasses results := by
  rw [weave, weaveFrom_eq engine.dispatcher sound]
  simp only [Outcome.bind_eq_ok, Outcome.pure_eq_ok, Outcome.mapM_eq_ok]
  constructor
  · rintro ⟨results, ⟨_, each, rfl⟩, rfl⟩
    exact ⟨_, each, rfl⟩
  · rintro ⟨results, each, rfl⟩
    exact ⟨results, ⟨results, each, rfl⟩, rfl⟩

/-- There are results if the host's own failures are ordinary. -/
theorem exists_output {engine : Engine} (sound : engine.dispatcher.Sound scope lookup)
    [∀ sought, Ordinary (lookup sought)] (entries : List InputEntry) :
    ∃ output, engine.weave entries lookup = .ok output := by
  have each (item : Nat × String × List UInt8) :
      ∃ result, resultAlone scope lookup item = .ok result := by
    obtain ⟨outcome, answer⟩ := engine.dispatcher.exists_outcome lookup item.2.1 item.2.2
    rw [sound.result] at answer
    exact ⟨⟨item.1, item.2.1, outcome⟩, (resultAlone_eq_ok ..).2 ⟨rfl, rfl, answer⟩⟩
  obtain ⟨results, ran⟩ := Outcome.exists_mapM_eq_ok (resultAlone scope lookup)
    (classesOf entries) fun item _ => each item
  exact ⟨_, (weave_eq_ok sound entries _).2 ⟨results, (Outcome.mapM_eq_ok ..).1 ran, rfl⟩⟩

end

section

variable {scope : RootScope} {lookup : ClassLookup} {entries : List InputEntry}
variable {results : List ClassResult}
variable (each : List.Forall₂ (fun item result => resultAlone scope lookup item = .ok result)
  (classesOf entries) results)
include each

/-- Each result is that of a class of the input. -/
theorem exists_entry (result : ClassResult) (member : result ∈ results) :
    ∃ entry, entries[result.entry]? = some entry ∧ entry.className = some result.name ∧
      Dispatcher.outcomeAlone scope lookup result.name entry.bytes = .ok result.outcome := by
  obtain ⟨⟨position, name, bytes⟩, inside, alone⟩ := Outcome.exists_of_forall₂ each result member
  obtain ⟨rfl, rfl, outcome⟩ := (resultAlone_eq_ok ..).1 alone
  obtain ⟨entry, here, named, rfl⟩ := (mem_classesOf ..).1 inside
  exact ⟨entry, here, named, outcome⟩

/-- Each class of the input has a result. -/
theorem exists_result (position : Nat) (entry : InputEntry) (name : String)
    (here : entries[position]? = some entry) (named : entry.className = some name) :
    ∃ outcome, ⟨position, name, outcome⟩ ∈ results := by
  have inside := (mem_classesOf entries position name entry.bytes).2 ⟨entry, here, named, rfl⟩
  obtain ⟨result, member, alone⟩ := Outcome.exists_of_forall₂
    (R := fun result item => resultAlone scope lookup item = .ok result) each.flip _ inside
  obtain ⟨rfl, rfl, -⟩ := (resultAlone_eq_ok ..).1 alone
  exact ⟨result.outcome, member⟩

/-- The results stand in the order of the input. -/
theorem pairwise_results :
    results.Pairwise fun earlier later => earlier.entry < later.entry := by
  have positions : List.Forall₂ (· = ·) ((classesOf entries).map Prod.fst)
      (results.map ClassResult.entry) := by
    rw [List.forall₂_map_left_iff, List.forall₂_map_right_iff]
    exact each.imp fun item result alone => ((resultAlone_eq_ok ..).1 alone).1.symm
  rw [List.forall₂_eq_eq_eq] at positions
  rw [← List.pairwise_map (f := ClassResult.entry), ← positions, List.pairwise_map]
  exact pairwise_classesOf entries

end

/-- The dispatcher of an engine makes of a class what a new one makes of it, whichever
classes it has transformed before, and also if calls for verdicts take their steps in
between those of others (`Race`). An engine has one result for each class of the input,
in the order of the input, namely what a new dispatcher makes of the class, and it adds
up what was done. It always has results, provided that the host's own failures are
ordinary. -/
theorem weave_independent (root : String) (engine : Engine) (lookup : ClassLookup)
    (created : create root = .ok engine) :
    Dispatcher.idle.activate root = .ok engine.dispatcher ∧
      (∀ (earlier : List (String × List UInt8)) (name : String) (bytes : List UInt8),
        ((engine.dispatcher.afterAll (earlier.map fun item =>
          .transform lookup item.1 item.2)).transform lookup name bytes).result =
            (engine.dispatcher.transform lookup name bytes).result) ∧
      (∀ (scope : RootScope) (packages : List String) (schedule : List Nat) (race : Race),
        engine.dispatcher.root = some scope →
        (Race.start packages).moves ⟨scope, Dispatcher.packageMarkers lookup⟩ schedule =
          some race →
        ∀ (place : Nat) (name : String) (bytes : List UInt8) (verdict : Except Failure Bool),
          packages[place]? = some (packageOf name) →
          race.calls[place]? = some (.finished verdict) →
          Dispatcher.outcomeBy (some scope) (fun _ => verdict) name bytes =
            (engine.dispatcher.transform lookup name bytes).result) ∧
      ∀ entries : List InputEntry,
        ((∀ sought failure, lookup sought = .error failure → failure.isInvariant = false) →
          ∃ output, engine.weave entries lookup = .ok output) ∧
        ∀ output, engine.weave entries lookup = .ok output →
          (output.classes.Pairwise fun earlier later => earlier.entry < later.entry) ∧
          (∀ (position : Nat) (entry : InputEntry) (name : String),
            entries[position]? = some entry → entry.className = some name →
            ∃ outcome, ⟨position, name, outcome⟩ ∈ output.classes) ∧
          (∀ result ∈ output.classes, ∃ entry, entries[result.entry]? = some entry ∧
            entry.className = some result.name ∧
            (engine.dispatcher.transform lookup result.name entry.bytes).result =
              .ok result.outcome) ∧
          ∀ component ∈ Statistics.components, component output.totals =
            (output.rewritten.map fun item => component item.2.statistics).sum := by
  obtain ⟨dispatcher, activated, returned⟩ := (Outcome.bind_eq_ok ..).1 created
  cases returned
  obtain ⟨scope, sound⟩ := Dispatcher.sound_of_activate activated
  refine ⟨activated, ?_, ?_, ?_⟩
  · intro earlier name bytes
    rw [((sound lookup).afterAll earlier).result, (sound lookup).result]
  · intro other packages schedule race active ran place name bytes verdict target finished
    cases active.symm.trans (sound lookup).root
    rw [(sound lookup).result, Dispatcher.outcomeAlone]
    apply Dispatcher.outcomeBy_congr
    exact (Race.verdictOn_of_finished ran place _ verdict target finished).symm
  · intro entries
    constructor
    · intro ordinary
      have (sought : String) : Ordinary (lookup sought) := ⟨ordinary sought⟩
      exact exists_output (sound lookup) entries
    · intro output ran
      obtain ⟨results, each, rfl⟩ := (weave_eq_ok (sound lookup) entries output).1 ran
      refine ⟨pairwise_results each, exists_result each, ?_, EngineOutput.totals_ofClasses results⟩
      intro result member
      simp only [(sound lookup).result]
      exact exists_entry each result member

/-- A file that is no class and a class whose package forbids null. -/
def mixedEntries : List InputEntry :=
  [⟨"readme", none, []⟩, ⟨"r/A.class", some "r/A", Dispatcher.fieldClass⟩]

/-- Weaving a mixed input gives for the class in it what is given for that class alone. -/
theorem weave_independent_mixedEntries :
    create "r" = .ok ⟨some ⟨"r"⟩, .empty⟩ ∧
      ∃ output outcome,
        Engine.weave ⟨some ⟨"r"⟩, .empty⟩ mixedEntries Dispatcher.packageLookup = .ok output ∧
        ⟨1, "r/A", outcome⟩ ∈ output.classes ∧
        (Dispatcher.transform ⟨some ⟨"r"⟩, .empty⟩ Dispatcher.packageLookup "r/A"
          Dispatcher.fieldClass).result = .ok outcome := by
  have created : create "r" = .ok ⟨some ⟨"r"⟩, .empty⟩ := by decide +kernel
  obtain ⟨-, -, -, each⟩ := weave_independent "r" _ Dispatcher.packageLookup created
  obtain ⟨outcomes, results⟩ := each mixedEntries
  obtain ⟨output, ran⟩ := outcomes fun sought failure failed => nomatch failed
  obtain ⟨-, given, alone, -⟩ := results output ran
  obtain ⟨outcome, member⟩ := given 1 _ "r/A" rfl rfl
  obtain ⟨entry, here, -, same⟩ := alone _ member
  cases here
  exact ⟨created, output, outcome, ran, member, same⟩

end Engine

end NullGuard
