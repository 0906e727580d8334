import NullGuard.Proofs.Nullness.Scope
import NullGuard.Proofs.Run.Engine
import NullGuard.Proofs.Run.Rejection

/-!
# The root package of a run

A run parses its root package once. Its engine is made from the normal form and parses that
again, which comes to the same scope. So the scope that was accepted is the one that classes
are compared with (`Engine.GoesBy`) and the one that the report names (`Run.Shown`).
-/

namespace NullGuard

/-- The report names the root package of its context. -/
theorem Report.names_root (report : Report) : ∃ members, report.toJson = .object members ∧
    ("root_package", .text report.context.root) ∈ members :=
  ⟨_, rfl, by simp⟩

namespace Engine

/-- The classes that were left alone as foreign are those whose names do not begin with the
root package. -/
def GoesBy (root : RootScope) (output : EngineOutput) : Prop :=
  ∀ result ∈ output.classes,
    result.outcome = .unchanged .outOfScope ↔ ¬ root.stem.toList <+: result.name.toList

/-- The outcomes of an engine are those under its root. -/
theorem goesBy_of_weave {engine : Engine} {root : RootScope} {lookup : ClassLookup}
    (sound : engine.dispatcher.Sound root lookup) (entries : List InputEntry)
    (output : EngineOutput) (ran : engine.weave entries lookup = .ok output) :
    GoesBy root output := by
  obtain ⟨results, each, rfl⟩ := (weave_eq_ok sound entries output).1 ran
  intro result member
  obtain ⟨entry, -, -, alone⟩ := exists_entry each result member
  have foreign := Dispatcher.outcomeAlone_eq_outOfScope root lookup result.name entry.bytes
  rw [alone, Except.ok.injEq] at foreign
  rw [foreign, RootScope.contains, Text.startsWith, ← Bool.not_eq_true,
    List.isPrefixOf_iff_prefix]

end Engine

namespace Run

/-- A report is where it was asked for. -/
inductive Shown (path : String) (report : Report) (before : FileTree) (result : RunResult)
    (after : FileTree) : Prop
  | printed (toCaller : Path.same path printedPath = true)
    (handed : result.printed = some report.text)
  | written (toFile : Path.same path printedPath = false)
    (stands : after.node? (before.destination path) = some (.file report.text.toUTF8.toList))

/-- Delivering a report hands it to the caller or writes its file. -/
theorem runs_deliver (path : String) (report : Report) (before after : FileTree)
    (printed : Option String)
    (ran : Stateful.Runs (deliver path report) before printed after) :
    Path.same path printedPath = true ∧ printed = some report.text ∨
      Path.same path printedPath = false ∧
        after.node? (before.destination path) = some (.file report.text.toUTF8.toList) := by
  unfold deliver at ran
  split at ran
  next toCaller => exact .inl ⟨toCaller, ((Stateful.runs_pure ..).1 ran).1⟩
  next toFile =>
    obtain ⟨_, middle, wrote, returned⟩ := (Stateful.runs_bind ..).1 ran
    obtain ⟨-, rfl⟩ := (Stateful.runs_pure ..).1 returned
    exact .inr ⟨Bool.eq_false_iff.2 toFile, Running.node?_of_runs_write _ path _ before after wrote⟩

/-- A run that succeeds shows the report that was asked for. -/
theorem shown_of_runs_finish [ArchiveLibrary] (options : Options) (prepared : Prepared)
    (before after : FileTree) (result : RunResult)
    (ran : Stateful.Runs (finish options prepared) before result after) (path : String)
    (asked : options.report = some path) :
    ∃ report, report.context.root = prepared.root.stem ∧ report.woven = prepared.woven ∧
      Shown path report before result after := by
  obtain ⟨summary, middle, wrote, ran⟩ := (Stateful.runs_bind ..).1 ran
  rw [asked] at ran
  obtain ⟨printed, last, delivered, returned⟩ := (Stateful.runs_bind ..).1 ran
  obtain ⟨rfl, rfl⟩ := (Stateful.runs_pure ..).1 returned
  let context : ReportContext :=
    ⟨prepared.root.stem, options.mode, none, prepared.inputs.classpath.length⟩
  refine ⟨⟨context, prepared.woven, summary⟩, rfl, rfl, ?_⟩
  obtain ⟨toCaller, handed⟩ | ⟨toFile, stands⟩ := runs_deliver _ _ _ _ _ delivered
  · exact .printed toCaller handed
  · refine .written toFile ?_
    obtain ⟨support, known, -⟩ := Output.exists_missing prepared.inputs options.mode
    have touched := Output.touches_output prepared.inputs prepared.woven options.mode
      options.output support known before
    rw [wrote] at touched
    rw [FileTree.destination, ← touched.current]
    exact stands

section

variable {options : Options} {tree after : FileTree} {result : RunResult} {root : RootScope}
variable (parsed : RootScope.parse options.root = .ok root)
variable [ArchiveLibrary]
variable (ran : runWith options tree = (.ok result, after))
include parsed ran

/-- A run that succeeds has been prepared with the root that its options name. -/
theorem prepared_of_run : ∃ prepared index, Ready options tree prepared index ∧
    prepared.root = root ∧ prepared.woven = result.woven ∧
    Stateful.Runs (finish options prepared) tree result after := by
  cases known : prepare options tree with
  | error failure => cases (run_of_error failure known).symm.trans ran
  | ok prepared =>
    obtain ⟨index, ready⟩ := (prepare_eq_ok ..).1 known
    have finished := (run_of_ok prepared known).symm.trans ran
    have woven := woven_of_runs_finish options prepared tree after result finished
    exact ⟨prepared, index, ready, Except.ok.inj (ready.root.symm.trans parsed), woven.symm,
      finished⟩

/-- The outcomes of a run are those under its root. -/
theorem goesBy_of_run : Engine.GoesBy root result.woven := by
  obtain ⟨prepared, index, ready, rfl, woven, -⟩ := prepared_of_run parsed ran
  obtain ⟨engine, created, wove⟩ := ready.woven
  rw [Engine.create_of_parse (RootScope.parse_stem _ _ parsed)] at created
  obtain rfl := Except.ok.inj created
  rw [← woven]
  exact Engine.goesBy_of_weave ⟨rfl, PackageCache.sound_empty _⟩ _ _ wove

/-- A report that is asked for is about the run and its root, and is shown where it is asked
for. -/
theorem shown_of_run (path : String) (asked : options.report = some path) :
    ∃ report, report.context.root = root.stem ∧ report.woven = result.woven ∧
      Shown path report tree result after := by
  obtain ⟨prepared, index, -, rfl, woven, finished⟩ := prepared_of_run parsed ran
  rw [← woven]
  exact shown_of_runs_finish options prepared tree after result finished path asked

end

/-- A root has one normal form. The texts that are accepted are those that spell segments,
with dots or slashes between them and perhaps one behind them, and the root is those
segments with slashes between them. Parsing that form again gives the same root, so the
engine of a run can be made from it; what the engine leaves alone as foreign is what does
not begin with that root, and a run reports the root by that form. -/
theorem root_normal_form [ArchiveLibrary] (raw : String) :
    ((∃ root, RootScope.parse raw = .ok root) ↔ ∃ segments, RootScope.Spells raw segments) ∧
      ∀ root, RootScope.parse raw = .ok root →
        (∀ segments, RootScope.Spells raw segments →
          root.stem.toList = List.intercalate ['/'] segments) ∧
        RootScope.parse root.stem = .ok root ∧
        Engine.create root.stem = .ok ⟨⟨some root, .empty⟩⟩ ∧
        (∀ entries lookup output,
          Engine.weave ⟨⟨some root, .empty⟩⟩ entries lookup = .ok output →
          Engine.GoesBy root output) ∧
        ∀ options tree result after, options.root = raw →
          runWith options tree = (.ok result, after) →
          Engine.GoesBy root result.woven ∧
          ∀ path, options.report = some path →
            ∃ report members, report.toJson = .object members ∧
              ("root_package", .text root.stem) ∈ members ∧ report.woven = result.woven ∧
              Shown path report tree result after := by
  refine ⟨?_, fun root parsed => ⟨?_, ?_, ?_, ?_, ?_⟩⟩
  · simp only [RootScope.parse_eq_ok]
    constructor
    · rintro ⟨root, segments, spells, -⟩
      exact ⟨segments, spells⟩
    · rintro ⟨segments, spells⟩
      exact ⟨⟨String.ofList (List.intercalate ['/'] segments)⟩, segments, spells,
        String.toList_ofList⟩
  · intro segments spells
    obtain ⟨others, spellsToo, kept⟩ := (RootScope.parse_eq_ok raw root).1 parsed
    rw [kept, ← spellsToo.normalized_eq, spells.normalized_eq]
  · exact RootScope.parse_stem raw root parsed
  · exact Engine.create_of_parse (RootScope.parse_stem raw root parsed)
  · intro entries lookup output ran
    exact Engine.goesBy_of_weave ⟨rfl, PackageCache.sound_empty _⟩ entries output ran
  · rintro options tree result after rfl ran
    refine ⟨goesBy_of_run parsed ran, fun path asked => ?_⟩
    obtain ⟨report, named, woven, shown⟩ := shown_of_run parsed ran path asked
    obtain ⟨members, written, member⟩ := report.names_root
    rw [named] at member
    exact ⟨report, members, written, member, woven, shown⟩

/-- Options by which the root has a dot behind it and the report is handed to the caller. -/
def dottedOptions : Options :=
  { smallOptions "A.class" "out" with root := "r.", report := some printedPath }

attribute [local instance] Archive.uncompressed in
/-- A root with a dot behind it is the root without the dot: the run goes by it, and the
report that is handed over names it. -/
theorem root_normal_form_dotted : ∃ (result : RunResult) (after : FileTree) (report : Report)
    (members : List (String × Json)),
    RootScope.parse "r." = .ok ⟨"r"⟩ ∧ RootScope.parse "r" = .ok ⟨"r"⟩ ∧
      Engine.create "r" = .ok ⟨⟨some ⟨"r"⟩, .empty⟩⟩ ∧
      run dottedOptions (smallTree "A.class" (.file Dispatcher.fieldClass)) =
        (.ok result, after) ∧
      Engine.GoesBy ⟨"r"⟩ result.woven ∧
      report.toJson = .object members ∧ ("root_package", .text "r") ∈ members ∧
      result.printed = some report.text := by
  have parsed : RootScope.parse "r." = .ok ⟨"r"⟩ := by decide
  obtain ⟨-, each⟩ := root_normal_form "r."
  obtain ⟨-, again, created, -, runs⟩ := each ⟨"r"⟩ parsed
  obtain ⟨result, after, ran, -⟩ := exists_result dottedOptions
    (smallTree "A.class" (.file Dispatcher.fieldClass)) FileTree.current [] (by decide +kernel)
  obtain ⟨goes, reported⟩ := runs dottedOptions _ result after rfl ran
  obtain ⟨report, members, written, member, -, shown⟩ := reported printedPath rfl
  refine ⟨result, after, report, members, parsed, again, created, ran, goes, written, member, ?_⟩
  cases shown with
  | printed toCaller handed => exact handed
  | written toFile stands => exact absurd toFile (by decide)

end Run

end NullGuard
