import NullGuard.Proofs.Files.Changes
import NullGuard.Proofs.Run.Output
import NullGuard.Proofs.Stateful

/-!
# Where the output is written

A jar is written where the path of the output leads; the files of any other output are
written where their own paths lead from there (`Output.targets`). At no other location does
writing the output touch a file, even if it fails half-way (`keeps_place`), and if it
succeeds the files stand where they were written (`Output.Writes`).
-/

namespace NullGuard

open FileTree

/-! ## Changes as steps of a run -/

namespace Running

variable {α : Type}

/-- A change of a run is done to the tree; its fault becomes a failure under the step. -/
theorem change_apply (step : Step) (change : Change α) (tree : FileTree) :
    Running.change step change tree =
      ((change tree).1.mapError fun fault => (Failure.of (.system fault)).during step,
        (change tree).2) := by
  simp only [Running.change, ExceptT.mk, ExceptT.run, bind, StateT.bind]
  cases change tree with
  | mk found after => cases found <;> rfl

/-- A step touches files at the given locations at most when the current directory is the
given one. -/
def Touching (current : Location) (targets : List Location) (before after : FileTree) : Prop :=
  before.current = current → Touches targets before after

variable {current : Location} {targets : List Location}

/-- No location is touched by doing nothing. -/
theorem Touching.refl (tree : FileTree) : Touching current targets tree tree :=
  fun _ => Touches.refl tree

/-- What two changes touch is what each of them touches, from the same place. -/
theorem Touching.trans (first second third : FileTree)
    (begun : Touching current targets first second)
    (ended : Touching current targets second third) : Touching current targets first third := by
  intro here
  have touched := begun here
  exact touched.trans (ended (touched.current.trans here))

/-- A change of the tree touches as a change of the run what it touches there. -/
theorem keeps_change (step : Step) (change : Change α)
    (touched : ∀ tree, tree.current = current → Touches targets tree (change tree).2) :
    Stateful.Keeps (Touching current targets) (Running.change step change) := by
  intro tree here
  rw [change_apply]
  exact touched tree here

/-- Making directories touches no file. -/
theorem keeps_createDirectories (step : Step) (path : String) :
    Stateful.Keeps (Touching current targets) (Running.change step (createDirectories path)) :=
  keeps_change step _ fun tree _ =>
    (createDirectories_writesNothing path tree).mono (List.nil_subset targets)

/-- Writing a file touches where its path leads. -/
theorem keeps_write (step : Step) (path : String) (bytes : List UInt8)
    (target : Path.destination current path ∈ targets) :
    Stateful.Keeps (Touching current targets)
      (Running.change step (FileTree.write path bytes)) := by
  refine keeps_change step _ fun tree here => (touches_write path bytes tree).mono ?_
  rw [destination, here]
  simpa using target

/-- What a step has written stands where its path leads. -/
theorem node?_of_runs_write (step : Step) (path : String) (bytes : List UInt8)
    (before after : FileTree)
    (ran : Stateful.Runs (Running.change step (FileTree.write path bytes)) before () after) :
    after.node? (before.destination path) = some (.file bytes) := by
  rw [Stateful.Runs, change_apply] at ran
  obtain ⟨result, rfl⟩ := Prod.mk.inj ran
  refine node?_of_write path bytes before _ ?_
  cases written : FileTree.write path bytes before with
  | mk found later =>
    rw [written] at result
    cases found with
    | ok value => rfl
    | error fault => cases result

/-- Create the directories around what a path leads to. -/
def createAround (path : String) : Running Unit :=
  match Path.parent? path with
  | some around => Running.change (.failedToCreate around) (createDirectories around)
  | none => pure ()

/-- Making the directories around a path touches no file. -/
theorem keeps_createAround (path : String) :
    Stateful.Keeps (Touching current targets) (createAround path) := by
  unfold createAround
  split
  · exact keeps_createDirectories _ _
  · exact Stateful.keeps_pure Touching.refl ()

end Running

namespace Output

open Running

/-! ## Files and jars -/

/-- A file is written after the directories around it have been made. -/
theorem writeFile_eq (directory : String) (file : OutputFile) :
    writeFile directory file = (do
      createAround (target directory file)
      Running.change (.failedToWrite (target directory file))
        (FileTree.write (target directory file) file.bytes)) := by
  unfold writeFile createAround
  dsimp only
  cases Path.parent? (target directory file) with
  | some around => rfl
  | none => simp only [pure_bind]

/-- The archive that a library makes of some files. -/
def archived [ArchiveLibrary] (files : List OutputFile) : WrittenArchive :=
  ArchiveLibrary.write (files.map fun file => ⟨file.path, file.bytes⟩)

/-- Fail if the library has failed. -/
def refuse (jar : String) : Option (ArchiveStage × ArchiveFault) → Running Unit
  | some (stage, fault) => during (failedStep jar stage) (fail (.archive fault))
  | none => pure ()

/-- An archive is written after the directories around it have been made, and as far as the
library has made it. -/
theorem writeJar_eq [ArchiveLibrary] (jar : String) (files : List OutputFile) :
    writeJar jar files = (do
      createAround jar
      Running.change (.failedToCreate jar) (FileTree.write jar (archived files).bytes)
      refuse jar (archived files).fault) := by
  unfold writeJar createAround archived
  dsimp only
  cases (ArchiveLibrary.write (files.map fun file => ⟨file.path, file.bytes⟩)).fault with
  | some fault =>
    cases Path.parent? jar with
    | some around => rfl
    | none => simp only [pure_bind, refuse]
  | none =>
    cases Path.parent? jar with
    | some around => rfl
    | none => simp only [pure_bind, refuse]

/-- Refusing an archive touches nothing. -/
theorem keeps_refuse {current : Location} {locations : List Location} (jar : String)
    (fault : Option (ArchiveStage × ArchiveFault)) :
    Stateful.Keeps (Touching current locations) (refuse jar fault) := by
  cases fault with
  | some item => exact (Stateful.keeps_settle Touching.refl (.error _)).during _
  | none => exact Stateful.keeps_pure Touching.refl ()

/-- The locations at which files are written. -/
def targets (current : Location) (layout : InputLayout) (output : String)
    (files : List OutputFile) : List Location :=
  match layout with
  | .jar => [Path.destination current output]
  | .directory | .classFile => files.map fun file => Path.destination current (target output file)

/-- What is written where. -/
def Writes [ArchiveLibrary] (current : Location) (layout : InputLayout) (output : String)
    (files : List OutputFile) (location : Location) (bytes : List UInt8) : Prop :=
  match layout with
  | .jar => location = Path.destination current output ∧
    bytes = (archived files).bytes
  | .directory | .classFile => ∃ file ∈ files,
    location = Path.destination current (target output file) ∧ bytes = file.bytes

variable {current : Location}

/-- A location that is touched in a directory is that of some file. -/
theorem exists_of_mem_targets {layout : InputLayout} {output : String} {files : List OutputFile}
    {location : Location} (form : layout ≠ .jar)
    (member : location ∈ targets current layout output files) :
    ∃ file ∈ files, Path.destination current (target output file) = location := by
  cases layout with
  | jar => exact absurd rfl form
  | directory => exact List.mem_map.1 member
  | classFile => exact List.mem_map.1 member

/-- Writing a file into a directory touches where the path of the file leads. -/
theorem keeps_writeFile (directory : String) (file : OutputFile) (locations : List Location)
    (target : Path.destination current (target directory file) ∈ locations) :
    Stateful.Keeps (Touching current locations) (writeFile directory file) := by
  rw [writeFile_eq]
  exact (keeps_createAround _).bind Touching.trans fun _ => keeps_write _ _ _ target

/-- Writing files into a directory touches where their paths lead. The induction is on the
files. -/
theorem keeps_writeFiles (directory : String) (files : List OutputFile) (locations : List Location)
    (included : ∀ file ∈ files, Path.destination current (target directory file) ∈ locations) :
    Stateful.Keeps (Touching current locations) (files.forM (writeFile directory)) := by
  rw [List.forM_eq_forM]
  induction files with
  | nil => exact Stateful.keeps_pure Touching.refl ()
  | cons file rest inductionHypothesis =>
    obtain ⟨here, behind⟩ := List.forall_mem_cons.1 included
    rw [List.forM_cons]
    exact (keeps_writeFile directory file locations here).bind Touching.trans fun _ =>
      inductionHypothesis behind

/-- Placing files touches their targets, in each form of output. -/
theorem keeps_place [ArchiveLibrary] (layout : InputLayout) (output : String)
    (files : List OutputFile) :
    Stateful.Keeps (Touching current (targets current layout output files))
      (place layout output files) := by
  have intoDirectory : Stateful.Keeps
      (Touching current (files.map fun file => Path.destination current (target output file)))
      (writeDirectory output files) := by
    refine (keeps_createDirectories _ output).bind Touching.trans fun _ => ?_
    exact keeps_writeFiles output files _ fun file member => List.mem_map_of_mem member
  cases layout with
  | directory => exact intoDirectory
  | classFile => exact intoDirectory
  | jar =>
    rw [place, writeJar_eq]
    refine (keeps_createAround output).bind Touching.trans fun _ => ?_
    exact (keeps_write _ output _ List.mem_cons_self).bind Touching.trans fun _ =>
      keeps_refuse output _

/-! ## What stands there in the end -/

/-- Making directories leaves the current place as it is. -/
theorem current_of_runs_createAround (path : String) (before middle : FileTree)
    (ran : Stateful.Runs (createAround path) before () middle) :
    middle.current = before.current := by
  have touched : Touches [] before (createAround path before).2 :=
    keeps_createAround path before rfl
  rw [ran] at touched
  exact touched.current

/-- A file that has been written stands where its path leads. -/
theorem node?_of_runs_writeFile (directory : String) (file : OutputFile) (before after : FileTree)
    (ran : Stateful.Runs (writeFile directory file) before () after) :
    after.node? (Path.destination before.current (target directory file)) =
      some (.file file.bytes) := by
  rw [writeFile_eq, Stateful.runs_bind] at ran
  obtain ⟨_, middle, created, wrote⟩ := ran
  rw [← current_of_runs_createAround _ before middle created]
  exact node?_of_runs_write _ _ _ middle after wrote

/-- Of several files that are written to one place the last one stands there. In any case
it is one of them. -/
theorem node?_of_runs_writeFiles (directory : String) (files : List OutputFile)
    (before after : FileTree)
    (ran : Stateful.Runs (files.forM (writeFile directory)) before () after) :
    ∀ location ∈ files.map fun file => Path.destination before.current (target directory file),
      ∃ file ∈ files, location = Path.destination before.current (target directory file) ∧
        after.node? location = some (.file file.bytes) := by
  rw [List.forM_eq_forM] at ran
  induction files generalizing before with
  | nil => simp
  | cons file rest inductionHypothesis =>
    rw [List.forM_cons, Stateful.runs_bind] at ran
    obtain ⟨_, middle, first, others⟩ := ran
    have touchedFirst : Touches [Path.destination before.current (target directory file)] before
        (writeFile directory file before).2 :=
      keeps_writeFile directory file _ List.mem_cons_self before rfl
    rw [first] at touchedFirst
    have here : middle.current = before.current := touchedFirst.current
    have known := inductionHypothesis middle others
    rw [here] at known
    intro location member
    by_cases again : location ∈
        rest.map fun file => Path.destination before.current (target directory file)
    · obtain ⟨later, inside, found⟩ := known location again
      exact ⟨later, List.mem_cons_of_mem _ inside, found⟩
    · have same : location = Path.destination before.current (target directory file) := by
        rw [List.map_cons, List.mem_cons] at member
        exact member.resolve_right again
      refine ⟨file, List.mem_cons_self, same, ?_⟩
      have touchedRest : Touches
          (rest.map fun file => Path.destination before.current (target directory file)) middle
          (rest.forM (writeFile directory) middle).2 :=
        keeps_writeFiles directory rest _ (fun file inside => List.mem_map.2 ⟨file, inside, rfl⟩)
          middle here
      rw [List.forM_eq_forM, others] at touchedRest
      rw [touchedRest.files location again, same]
      exact node?_of_runs_writeFile directory file before middle first

/-- If the output has been written, its files stand at all their places. -/
theorem writes_of_runs_place [ArchiveLibrary] (layout : InputLayout) (output : String)
    (files : List OutputFile) (before after : FileTree)
    (ran : Stateful.Runs (place layout output files) before () after) :
    ∀ location ∈ targets before.current layout output files, ∃ bytes,
      Writes before.current layout output files location bytes ∧
        after.node? location = some (.file bytes) := by
  have inDirectory (wrote : Stateful.Runs (writeDirectory output files) before () after) :
      ∀ location ∈ files.map fun file => Path.destination before.current (target output file),
        ∃ bytes, (∃ file ∈ files,
            location = Path.destination before.current (target output file) ∧
              bytes = file.bytes) ∧ after.node? location = some (.file bytes) := by
    obtain ⟨_, middle, created, others⟩ := (Stateful.runs_bind ..).1 wrote
    have touched : Touches [] before _ :=
      keeps_createDirectories (.failedToCreate output) output before rfl
    rw [created] at touched
    have known := node?_of_runs_writeFiles output files middle after others
    rw [touched.current] at known
    intro location member
    obtain ⟨file, inside, same, found⟩ := known location member
    exact ⟨file.bytes, ⟨file, inside, same, rfl⟩, found⟩
  cases layout with
  | directory => exact inDirectory ran
  | classFile => exact inDirectory ran
  | jar =>
    rw [place, writeJar_eq, Stateful.runs_bind] at ran
    obtain ⟨_, middle, created, ran⟩ := ran
    obtain ⟨_, last, wrote, refused⟩ := (Stateful.runs_bind ..).1 ran
    have here := current_of_runs_createAround _ before middle created
    have found := node?_of_runs_write _ _ _ middle last wrote
    have stays : after = last := by
      cases known : (archived files).fault with
      | some item =>
        rw [known] at refused
        exact (Stateful.not_runs_fail _ _ _ _ ((Stateful.runs_during ..).1 refused)).elim
      | none =>
        rw [known] at refused
        exact ((Stateful.runs_pure ..).1 refused).2
    intro location member
    obtain rfl := List.mem_singleton.1 member
    refine ⟨_, ⟨rfl, rfl⟩, ?_⟩
    rw [stays, ← here]
    exact found

/-! ## The whole output -/

section

variable (inputs : Inputs) (woven : EngineOutput) (mode : SupportMode) (output : String)
variable (support : List SupportClass) (known : missingSupport inputs mode = .ok support)
include known

/-- Writing an output touches its targets only. -/
theorem touches_output [ArchiveLibrary] (tree : FileTree) :
    Touches (targets tree.current inputs.layout output (files inputs woven support)) tree
      (write inputs woven mode output tree).2 := by
  rw [write_eq inputs woven mode output support known]
  exact (keeps_place inputs.layout output _).bind Touching.trans
    (fun _ => Stateful.keeps_pure Touching.refl _) tree rfl

/-- Writing an output that goes through leaves at each target the file that is meant for it.
-/
theorem writes_of_runs_output [ArchiveLibrary] (before after : FileTree) (summary : OutputSummary)
    (ran : Stateful.Runs (write inputs woven mode output) before summary after) :
    ∀ location ∈ targets before.current inputs.layout output (files inputs woven support),
      ∃ bytes, Writes before.current inputs.layout output (files inputs woven support)
        location bytes ∧ after.node? location = some (.file bytes) := by
  rw [write_eq inputs woven mode output support known, Stateful.runs_bind] at ran
  obtain ⟨_, middle, placed, returned⟩ := ran
  obtain ⟨-, rfl⟩ := (Stateful.runs_pure ..).1 returned
  exact writes_of_runs_place inputs.layout output _ before after placed

end

end Output

end NullGuard
