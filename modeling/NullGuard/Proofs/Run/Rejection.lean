import NullGuard.Proofs.Dispatcher.Stages
import NullGuard.Proofs.Run.Basic
import NullGuard.Proofs.Run.Written

/-!
# What a rejected run leaves behind

Whatever speaks against a run (`Run.Objection`) is found while the run is prepared, so it
fails with all files as they were. Any other failure comes from writing the output or the
report (`Run.WritingFails`).
-/

namespace NullGuard

namespace Run

/-- What speaks against a run before anything is written. -/
inductive Objection [ArchiveLibrary] (options : Options) (tree : FileTree) : Prop
  | inputMissing (missing : tree.pathExists options.input = false)
  | classpathMissing (path : String) (given : path ∈ options.classpath)
      (missing : tree.pathExists path = false)
  | badRoot (failure : Failure) (refused : RootScope.parse options.root = .error failure)
  | outputIsInput (same : tree.leadToSame options.input options.output = true)
  /-- The input or an entry of the class path is missing, of no known kind, or broken. -/
  | unreadable (failure : Failure)
      (failed : Scan.inputs tree options.input options.classpath = .error failure)
  | outputNotJar (inputs : Inputs)
      (scanned : Scan.inputs tree options.input options.classpath = .ok inputs)
      (form : inputs.layout = .jar) (other : Path.isJar options.output = false)
  | duplicates (inputs : Inputs)
      (scanned : Scan.inputs tree options.input options.classpath = .ok inputs)
      (failure : Failure) (refused : ClassIndex.ofInputs inputs = .error failure)
  | helperMissing (inputs : Inputs) (index : ClassIndex)
      (scanned : Scan.inputs tree options.input options.classpath = .ok inputs)
      (indexed : ClassIndex.ofInputs inputs = .ok index) (external : options.mode = .external)
      (missing : index.lookup helperClass = .ok none)
  | notWoven (root : RootScope) (inputs : Inputs) (index : ClassIndex)
      (parsed : RootScope.parse options.root = .ok root)
      (scanned : Scan.inputs tree options.input options.classpath = .ok inputs)
      (indexed : ClassIndex.ofInputs inputs = .ok index) (failure : Failure)
      (failed : (Engine.create root.stem >>= fun engine =>
        engine.weave inputs.entries index.lookup) = .error failure)

variable {options : Options} {tree : FileTree}

/-- The check for the helper class asks the index that the engine asks. -/
theorem lookup_helperClass (index : ClassIndex) :
    index.contains helperClass = true ↔
      ∃ bytes, index.lookup helperClass = .ok (some bytes) := by
  rw [ClassIndex.contains, Option.isSome_iff_exists]
  apply exists_congr
  intro bytes
  rw [ClassIndex.lookup, Except.ok.injEq]

/-- Against a run that is ready to write nothing speaks. -/
theorem Ready.noObjection [ArchiveLibrary] {prepared : Prepared} {index : ClassIndex}
    (ready : Ready options tree prepared index) : ¬ Objection options tree := by
  intro objection
  cases objection with
  | inputMissing missing => cases ready.inputExists.symm.trans missing
  | classpathMissing path given missing =>
    cases (ready.classpathExists path given).symm.trans missing
  | badRoot failure refused => cases ready.root.symm.trans refused
  | outputIsInput same => cases ready.apart.symm.trans same
  | unreadable failure failed => cases ready.scanned.symm.trans failed
  | outputNotJar inputs scanned form other =>
    obtain rfl := Except.ok.inj (ready.scanned.symm.trans scanned)
    cases (ready.jar form).symm.trans other
  | duplicates inputs scanned failure refused =>
    obtain rfl := Except.ok.inj (ready.scanned.symm.trans scanned)
    cases ready.indexed.symm.trans refused
  | helperMissing inputs other scanned indexed external missing =>
    obtain rfl := Except.ok.inj (ready.scanned.symm.trans scanned)
    obtain rfl := Except.ok.inj (ready.indexed.symm.trans indexed)
    obtain ⟨bytes, found⟩ := (lookup_helperClass index).1 (ready.helper external)
    cases found.symm.trans missing
  | notWoven root inputs other parsed scanned indexed failure failed =>
    obtain rfl := Except.ok.inj (ready.root.symm.trans parsed)
    obtain rfl := Except.ok.inj (ready.scanned.symm.trans scanned)
    obtain rfl := Except.ok.inj (ready.indexed.symm.trans indexed)
    obtain ⟨engine, created, wove⟩ := ready.woven
    rw [created] at failed
    cases wove.symm.trans failed

/-- A run against which nothing speaks is ready to write. -/
theorem exists_ready [ArchiveLibrary] (fine : ¬ Objection options tree) :
    ∃ prepared index, Ready options tree prepared index := by
  have inputExists : tree.pathExists options.input = true :=
    Bool.of_not_eq_false fun missing => fine (.inputMissing missing)
  have classpathExists : ∀ path ∈ options.classpath, tree.pathExists path = true :=
    fun path given => Bool.of_not_eq_false fun missing =>
      fine (.classpathMissing path given missing)
  have apart : tree.leadToSame options.input options.output = false :=
    Bool.of_not_eq_true fun same => fine (.outputIsInput same)
  -- One stage after the other: its failure is an objection, its result goes into the next.
  cases parsed : RootScope.parse options.root with
  | error failure => exact (fine (.badRoot failure parsed)).elim
  | ok root =>
    cases scanned : Scan.inputs tree options.input options.classpath with
    | error failure => exact (fine (.unreadable failure scanned)).elim
    | ok inputs =>
      have jar (form : inputs.layout = .jar) : Path.isJar options.output = true :=
        Bool.of_not_eq_false fun other => fine (.outputNotJar inputs scanned form other)
      cases indexed : ClassIndex.ofInputs inputs with
      | error failure => exact (fine (.duplicates inputs scanned failure indexed)).elim
      | ok index =>
        have helper (external : options.mode = .external) : index.contains helperClass = true := by
          rw [lookup_helperClass]
          cases found : index.find? helperClass with
          | none =>
            exact (fine (.helperMissing inputs index scanned indexed external
              (congrArg Except.ok found))).elim
          | some bytes => exact ⟨bytes, congrArg Except.ok found⟩
        cases created : Engine.create root.stem with
        | error failure =>
          refine (fine (.notWoven root inputs index parsed scanned indexed failure ?_)).elim
          rw [created]
          rfl
        | ok engine =>
          cases wove : engine.weave inputs.entries index.lookup with
          | error failure =>
            refine (fine (.notWoven root inputs index parsed scanned indexed failure ?_)).elim
            rw [created]
            exact wove
          | ok woven =>
            exact ⟨⟨root, inputs, woven⟩, index, inputExists, classpathExists, parsed, apart,
              scanned, jar, indexed, helper, engine, created, wove⟩

/-- What speaks against a run is what its preparation fails for. -/
theorem objection_iff [ArchiveLibrary] :
    Objection options tree ↔ ∃ failure, prepare options tree = .error failure := by
  constructor
  · intro objection
    cases known : prepare options tree with
    | error failure => exact ⟨failure, rfl⟩
    | ok prepared =>
      obtain ⟨index, ready⟩ := (prepare_eq_ok ..).1 known
      exact (ready.noObjection objection).elim
  · rintro ⟨failure, failed⟩
    by_contra fine
    obtain ⟨prepared, index, ready⟩ := exists_ready fine
    have known := (prepare_eq_ok options tree prepared).2 ⟨index, ready⟩
    cases known.symm.trans failed

/-! ## Behind the preparation -/

/-- What is done behind the preparation. -/
def finish [ArchiveLibrary] (options : Options) (prepared : Prepared) : Running RunResult := do
  let summary ← Output.write prepared.inputs prepared.woven options.mode options.output
  match options.report with
  | none => return ⟨none, prepared.woven⟩
  | some path =>
    let context : ReportContext :=
      ⟨prepared.root.stem, options.mode, none, prepared.inputs.classpath.length⟩
    return ⟨← deliver path ⟨context, prepared.woven, summary⟩, prepared.woven⟩

/-- A run that cannot be prepared changes nothing. -/
theorem run_of_error [ArchiveLibrary] (failure : Failure)
    (failed : prepare options tree = .error failure) :
    runWith options tree = (.error failure, tree) := by
  show (settle (prepare options tree) >>= finish options) tree = _
  rw [failed]
  exact Stateful.bind_error _ _ tree tree failure rfl

/-- A run that can be prepared is finished. -/
theorem run_of_ok [ArchiveLibrary] (prepared : Prepared)
    (known : prepare options tree = .ok prepared) :
    runWith options tree = finish options prepared tree := by
  show (settle (prepare options tree) >>= finish options) tree = _
  rw [known]
  exact Stateful.bind_ok _ _ tree tree prepared rfl

/-- Writing the output fails, or opening the report does behind it. -/
inductive WritingFails [ArchiveLibrary] (options : Options) (prepared : Prepared)
    (before : FileTree) (failure : Failure) (after : FileTree) : Prop
  | output (support : List SupportClass)
      (known : Output.missingSupport prepared.inputs options.mode = .ok support)
      (failed : Stateful.Fails (Output.place prepared.inputs.layout options.output
        (Output.files prepared.inputs prepared.woven support)) before failure after)
  | report (summary : OutputSummary) (path : String) (asked : options.report = some path)
      (isFile : Path.same path printedPath = false) (fault : SystemFault) (report : Report)
      (wrote : Stateful.Runs (Output.write prepared.inputs prepared.woven options.mode
        options.output) before summary after)
      (failed : FileTree.write path report.text.toUTF8.toList after = (.error fault, after))
      (named : failure = ⟨[.failedToOpen path], .system fault⟩)

end Run

namespace FileTree

/-- A file that cannot be written leaves everything as it is. -/
theorem eq_of_write_error (path : String) (bytes : List UInt8) (before after : FileTree)
    (fault : SystemFault) (failed : write path bytes before = (.error fault, after)) :
    after = before := by
  rw [write_apply] at failed
  split at failed
  next => exact (Prod.mk.inj failed).2.symm
  next =>
    split at failed
    next => exact (Prod.mk.inj failed).2.symm
    next => cases failed

end FileTree

namespace Run

/-- A report that is asked for as a file cannot be opened; nothing else can go wrong with
it. -/
theorem fails_deliver (path : String) (report : Report) (before after : FileTree)
    (failure : Failure) (failed : Stateful.Fails (deliver path report) before failure after) :
    Path.same path printedPath = false ∧ ∃ fault,
      FileTree.write path report.text.toUTF8.toList before = (.error fault, before) ∧
        failure = ⟨[.failedToOpen path], .system fault⟩ ∧ after = before := by
  unfold deliver at failed
  split at failed
  next => cases failed
  next isFile =>
    obtain failed | ⟨_, _, -, returned⟩ := (Stateful.fails_bind ..).1 failed
    · rw [Stateful.Fails, Running.change_apply] at failed
      obtain ⟨result, rfl⟩ := Prod.mk.inj failed
      cases wrote : FileTree.write path report.text.toUTF8.toList before with
      | mk found later =>
        rw [wrote] at result
        cases found with
        | ok value => cases result
        | error fault =>
          obtain rfl := FileTree.eq_of_write_error path _ before later fault wrote
          exact ⟨Bool.eq_false_iff.2 isFile, fault, rfl, (Except.error.inj result).symm, rfl⟩
    · cases returned

/-- Behind the preparation only writing fails. -/
theorem fails_finish [ArchiveLibrary] (options : Options) (prepared : Prepared)
    (before after : FileTree) (failure : Failure)
    (failed : Stateful.Fails (finish options prepared) before failure after) :
    WritingFails options prepared before failure after := by
  obtain failed | ⟨summary, middle, wrote, failed⟩ := (Stateful.fails_bind ..).1 failed
  · obtain ⟨support, known, -⟩ := Output.exists_missing prepared.inputs options.mode
    rw [Output.write_eq _ _ _ _ support known] at failed
    obtain failed | ⟨_, _, -, returned⟩ := (Stateful.fails_bind ..).1 failed
    · exact .output support known failed
    · cases returned
  · split at failed
    next => cases failed
    next path asked =>
      obtain failed | ⟨_, _, -, returned⟩ := (Stateful.fails_bind ..).1 failed
      · obtain ⟨isFile, fault, wroteNothing, named, rfl⟩ := fails_deliver _ _ _ _ _ failed
        exact .report summary path asked isFile fault _ wrote wroteNothing named
      · cases returned

/-- What has been woven is handed on. -/
theorem woven_of_runs_finish [ArchiveLibrary] (options : Options) (prepared : Prepared)
    (before after : FileTree) (result : RunResult)
    (ran : Stateful.Runs (finish options prepared) before result after) :
    result.woven = prepared.woven := by
  obtain ⟨summary, middle, -, ran⟩ := (Stateful.runs_bind ..).1 ran
  split at ran
  next => rw [((Stateful.runs_pure ..).1 ran).1]
  next =>
    obtain ⟨_, _, -, returned⟩ := (Stateful.runs_bind ..).1 ran
    rw [((Stateful.runs_pure ..).1 returned).1]

/-- A run that is rejected leaves everything as it is. If anything speaks against a run, the
run fails with all files and directories as they were; if it fails though nothing does, then
writing the output failed, or opening the report. A run that succeeds has woven its input
with the lookup of an index, and if the support classes are to be provided by someone else,
that lookup finds the helper class. -/
theorem rejection_changes_nothing [ArchiveLibrary] (options : Options) (tree : FileTree) :
    (Objection options tree → ∃ failure, runWith options tree = (.error failure, tree)) ∧
      (∀ failure after, runWith options tree = (.error failure, after) →
        Objection options tree ∧ after = tree ∨
          ¬ Objection options tree ∧ ∃ prepared, prepare options tree = .ok prepared ∧
            WritingFails options prepared tree failure after) ∧
      ∀ result after, runWith options tree = (.ok result, after) →
        ¬ Objection options tree ∧ ∃ prepared index, Ready options tree prepared index ∧
          result.woven = prepared.woven ∧
          (options.mode = .external → ∃ bytes, index.lookup helperClass = .ok (some bytes)) := by
  cases known : prepare options tree with
  | error failure =>
    have objection : Objection options tree := objection_iff.2 ⟨failure, known⟩
    have rejected := run_of_error failure known
    refine ⟨fun _ => ⟨failure, rejected⟩, fun other after ran => ?_, fun result after ran => ?_⟩
    · exact .inl ⟨objection, ((Prod.mk.inj (rejected.symm.trans ran)).2).symm⟩
    · cases rejected.symm.trans ran
  | ok prepared =>
    obtain ⟨index, ready⟩ := (prepare_eq_ok ..).1 known
    have fine := ready.noObjection
    have goesOn := run_of_ok prepared known
    refine ⟨fun objection => (fine objection).elim, fun failure after ran => ?_,
      fun result after ran => ?_⟩
    · exact .inr ⟨fine, prepared, rfl,
        fails_finish options prepared tree after failure (goesOn.symm.trans ran)⟩
    · refine ⟨fine, prepared, index, ready,
        woven_of_runs_finish options prepared tree after result (goesOn.symm.trans ran),
        fun external => ?_⟩
      exact (lookup_helperClass index).1 (ready.helper external)

/-- Options by which the support classes are to be provided by someone else, but are not. -/
def noHelperOptions : Options := { smallOptions "A.class" "out" with classpath := [] }

attribute [local instance] Archive.uncompressed in
/-- That is found only after the input has been read. -/
theorem rejection_changes_nothing_noHelper :
    prepare noHelperOptions (smallTree "A.class" (.file Dispatcher.fieldClass)) =
        .error (.of (.helperMissing helperClass)) ∧
      Objection noHelperOptions (smallTree "A.class" (.file Dispatcher.fieldClass)) ∧
      ∃ failure, run noHelperOptions (smallTree "A.class" (.file Dispatcher.fieldClass)) =
        (.error failure, smallTree "A.class" (.file Dispatcher.fieldClass)) := by
  have fails : prepare noHelperOptions (smallTree "A.class" (.file Dispatcher.fieldClass)) =
      .error (.of (.helperMissing helperClass)) := by
    decide +kernel
  have objection : Objection noHelperOptions
      (smallTree "A.class" (.file Dispatcher.fieldClass)) := objection_iff.2 ⟨_, fails⟩
  exact ⟨fails, objection, (rejection_changes_nothing noHelperOptions
    (smallTree "A.class" (.file Dispatcher.fieldClass))).1 objection⟩

end Run

end NullGuard
