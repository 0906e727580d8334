import NullGuard.Proofs.Files.Tree
import NullGuard.Proofs.Guard.Weave
import NullGuard.Proofs.Outcome
import NullGuard.Run.Basic

/-!
# What it takes for a run to write

A run prepares its output before it writes any of it. It gets there if nothing is wrong
with the options, the input and the class path (`Run.prepare_eq_ok`).
-/

namespace NullGuard

namespace Outcome

variable {β : Type}

/-- A check in front of other steps has to be passed. -/
theorem check_bind_eq_ok (wrong : Prop) [Decidable wrong] (cause : Cause)
    (next : Unit → Except Failure β) (value : β) :
    (if wrong then fail cause >>= next else next ()) = .ok value ↔
      ¬ wrong ∧ next () = .ok value :=
  check_eq_ok wrong cause (next ()) value

end Outcome

namespace Run

/-- The options are in order, the input and the class path can be read, and everything is
woven. -/
structure Ready [ArchiveLibrary] (options : Options) (tree : FileTree) (prepared : Prepared)
    (index : ClassIndex) : Prop where
  inputExists : tree.pathExists options.input = true
  classpathExists : ∀ path ∈ options.classpath, tree.pathExists path = true
  root : RootScope.parse options.root = .ok prepared.root
  apart : tree.leadToSame options.input options.output = false
  scanned : Scan.inputs tree options.input options.classpath = .ok prepared.inputs
  jar : prepared.inputs.layout = .jar → Path.isJar options.output = true
  indexed : ClassIndex.ofInputs prepared.inputs = .ok index
  helper : options.mode = .external → index.contains helperClass = true
  woven : ∃ engine, Engine.create prepared.root.stem = .ok engine ∧
    engine.weave prepared.inputs.entries index.lookup = .ok prepared.woven

/-- A run is prepared exactly if each of its stages is. -/
theorem prepare_eq_ok [ArchiveLibrary] (options : Options) (tree : FileTree) (prepared : Prepared) :
    prepare options tree = .ok prepared ↔ ∃ index, Ready options tree prepared index := by
  constructor
  · intro ran
    unfold prepare at ran
    rw [Outcome.check_bind_eq_ok] at ran
    obtain ⟨inputExists, ran⟩ := ran
    beta_reduce at ran
    cases missing : options.classpath.find? fun path => !tree.pathExists path with
    | some path =>
      rw [missing] at ran
      cases ran
    | none =>
      rw [missing] at ran
      obtain ⟨root, parsed, ran⟩ := (Outcome.bind_eq_ok ..).1 ran
      rw [Outcome.check_bind_eq_ok] at ran
      obtain ⟨apart, ran⟩ := ran
      obtain ⟨inputs, scanned, ran⟩ := (Outcome.bind_eq_ok ..).1 ran
      rw [Outcome.check_bind_eq_ok] at ran
      obtain ⟨jar, ran⟩ := ran
      obtain ⟨index, indexed, ran⟩ := (Outcome.bind_eq_ok ..).1 ran
      rw [Outcome.check_bind_eq_ok] at ran
      obtain ⟨helper, ran⟩ := ran
      obtain ⟨engine, created, ran⟩ := (Outcome.bind_eq_ok ..).1 ran
      obtain ⟨woven, wove, returned⟩ := (Outcome.bind_eq_ok ..).1 ran
      obtain rfl := Except.ok.inj returned
      exact ⟨index, by simpa using inputExists, by simpa using missing,
        (Outcome.during_eq_ok ..).1 parsed, by simpa using apart, scanned, by simpa using jar,
        indexed, by simpa using helper, engine, created, wove⟩
  · rintro ⟨index, ready⟩
    obtain ⟨engine, created, wove⟩ := ready.woven
    have missing : (options.classpath.find? fun path => !tree.pathExists path) = none := by
      simpa using ready.classpathExists
    unfold prepare
    rw [Outcome.check_bind_eq_ok]
    refine ⟨by simp [ready.inputExists], ?_⟩
    beta_reduce
    rw [missing]
    refine (Outcome.bind_eq_ok ..).2 ⟨prepared.root, (Outcome.during_eq_ok ..).2 ready.root, ?_⟩
    rw [Outcome.check_bind_eq_ok]
    refine ⟨by simp [ready.apart], ?_⟩
    refine (Outcome.bind_eq_ok ..).2 ⟨prepared.inputs, ready.scanned, ?_⟩
    rw [Outcome.check_bind_eq_ok]
    refine ⟨by simpa using ready.jar, ?_⟩
    refine (Outcome.bind_eq_ok ..).2 ⟨index, ready.indexed, ?_⟩
    rw [Outcome.check_bind_eq_ok]
    refine ⟨by simpa using ready.helper, ?_⟩
    refine (Outcome.bind_eq_ok ..).2 ⟨engine, created, ?_⟩
    exact (Outcome.bind_eq_ok ..).2 ⟨prepared.woven, wove, rfl⟩

/-! ## Small runs -/

/-- A class that has nothing but the name of the helper class. -/
def emptyHelper : List UInt8 :=
  Written.u32 ClassFile.magic ++ [0, 0, 0, 49, 0, 3] ++ holderText helperClass ++ [7, 0, 1] ++
    [0, 0x21, 0, 2, 0, 0, 0, 0, 0, 0, 0, 0, 0, 0]

/-- A tree with the helper class and something else in it. -/
def smallTree (name : String) (branch : Branch) : FileTree :=
  ⟨[("H.class", .file emptyHelper), (name, branch)], []⟩

/-- Options that name an input, an output and the helper class. -/
def smallOptions (input output : String) : Options :=
  ⟨input, output, "r", ["H.class"], .external, none, none, true, false⟩

/-- The small tree is proper if what it has beside the helper class is. -/
theorem isProper_smallTree (name : String) (branch : Branch) (named : Path.IsName name)
    (proper : branch.IsProper) : (smallTree name branch).root.IsProper := by
  have helper : Path.IsName "H.class" := ⟨by decide, by decide, by decide⟩
  refine .directory _ ?_ ?_
  · simpa [smallTree] using ⟨helper, named⟩
  · simpa [smallTree] using ⟨Branch.IsProper.file emptyHelper, proper⟩

/-- What has been prepared, as far as it does not depend on weaving. -/
theorem exists_prepared [ArchiveLibrary] (options : Options) (tree : FileTree)
    (layout : InputLayout) (paths : List String)
    (known : (prepare options tree).toOption.map (fun prepared =>
      (prepared.inputs.layout, prepared.inputs.entries.map InputEntry.path)) =
        some (layout, paths)) :
    ∃ prepared, prepare options tree = .ok prepared ∧ prepared.inputs.layout = layout ∧
      prepared.inputs.entries.map InputEntry.path = paths := by
  cases ran : prepare options tree with
  | error failure =>
    rw [ran] at known
    cases known
  | ok prepared =>
    rw [ran] at known
    obtain ⟨form, same⟩ := Prod.mk.inj (Option.some.inj known)
    exact ⟨prepared, rfl, form, same⟩

/-- What a run that succeeds leaves behind. -/
theorem exists_result {α : Type} (options : Options) (tree : FileTree) (look : FileTree → α)
    (seen : α) (known : (run options tree).1.isOk = true ∧ look (run options tree).2 = seen) :
    ∃ result after, run options tree = (.ok result, after) ∧ look after = seen := by
  obtain ⟨succeeded, looked⟩ := known
  cases ran : run options tree with
  | mk found after =>
    rw [ran] at succeeded looked
    cases found with
    | error failure => cases succeeded
    | ok result => exact ⟨result, after, rfl, looked⟩

end Run

end NullGuard
