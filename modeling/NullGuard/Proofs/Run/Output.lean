import NullGuard.Files.Archive.Written
import NullGuard.Proofs.Run.ClassIndex
import NullGuard.Proofs.Run.Engine
import NullGuard.Run.Output

/-!
# Outputs

The output consists of the files of the input, in their order and under their paths, and
of the support classes that the input does not have. A file is replaced by its woven
class if there is one. Files are replaced by their positions, support classes are left
out by the names of classes, and what is written where is settled by paths; the three
go together, so no path is written twice (`nodup_paths`).
-/

namespace NullGuard

/-! ## Support classes -/

namespace SupportClass

/-- The names of the support classes, in the order in which they are written. -/
def names : List String :=
  markerNames ++ baseExceptionClass :: CheckKind.all.map CheckKind.exceptionClass ++ [helperClass]

/-- All support classes can be written. -/
theorem exists_all : ∃ classes, all = .ok classes ∧ classes.map SupportClass.name = names := by
  have known : (all.map fun classes => classes.map SupportClass.name).toOption = some names := by
    decide +kernel
  cases written : all with
  | error failure =>
    rw [written] at known
    cases known
  | ok classes =>
    rw [written] at known
    exact ⟨classes, rfl, Option.some.inj known⟩

/-- No two support classes have one name. -/
theorem nodup_names : names.Nodup := by
  decide +kernel

/-- A support class is found in an input under its own name. -/
theorem weavableName_names : ∀ name ∈ names, weavableName (name ++ classEnding) = some name := by
  decide +kernel

end SupportClass

/-! ## Results by position -/

namespace Engine

/-- The results of weaving one class after the other. -/
theorem weaveFrom_eq_ok (lookup : ClassLookup) (dispatcher : Dispatcher) (done : List ClassResult)
    (classes : List (Nat × String × List UInt8)) (results : List ClassResult)
    (ran : weaveFrom lookup dispatcher done classes = .ok results) :
    ∃ new, results = done.reverse ++ new ∧
      new.map (fun result => (result.entry, result.name)) =
        classes.map fun item => (item.1, item.2.1) := by
  induction classes generalizing dispatcher done with
  | nil => exact ⟨[], by rw [List.append_nil]; exact (Except.ok.inj ran).symm, rfl⟩
  | cons item others inductionHypothesis =>
    obtain ⟨position, name, bytes⟩ := item
    obtain ⟨outcome, -, ran⟩ := (Outcome.bind_eq_ok ..).1 ran
    obtain ⟨new, rfl, same⟩ := inductionHypothesis _ _ ran
    exact ⟨⟨position, name, outcome⟩ :: new, by simp, by rw [List.map_cons, same, List.map_cons]⟩

/-- Whatever weaving comes to, there is one result for each class of the input. -/
theorem results_of_weave (engine : Engine) (entries : List InputEntry) (lookup : ClassLookup)
    (output : EngineOutput) (ran : engine.weave entries lookup = .ok output) :
    output.classes.map (fun result => (result.entry, result.name)) =
      (classesOf entries).map fun item => (item.1, item.2.1) := by
  obtain ⟨results, woven, returned⟩ := (Outcome.bind_eq_ok ..).1 ran
  obtain rfl := Except.ok.inj returned
  obtain ⟨new, rfl, same⟩ := weaveFrom_eq_ok _ _ _ _ _ woven
  exact same

/-- No two results belong to the same file. -/
theorem nodup_results (engine : Engine) (entries : List InputEntry) (lookup : ClassLookup)
    (output : EngineOutput) (ran : engine.weave entries lookup = .ok output) :
    (output.classes.map ClassResult.entry).Nodup := by
  have positions : output.classes.map ClassResult.entry = (classesOf entries).map Prod.fst := by
    have same := congrArg (List.map Prod.fst) (results_of_weave engine entries lookup output ran)
    rwa [List.map_map, List.map_map] at same
  rw [positions, List.Nodup, List.pairwise_map]
  exact (pairwise_classesOf entries).imp Nat.ne_of_lt

end Engine

namespace EngineOutput

variable (output : EngineOutput)

/-- What is rewritten has a result that says so. -/
theorem mem_rewritten (position : Nat) (woven : WovenClass) :
    (position, woven) ∈ output.rewritten ↔
      ∃ result ∈ output.classes, result.entry = position ∧ result.outcome = .rewritten woven := by
  rw [rewritten, List.mem_filterMap]
  apply exists_congr
  intro result
  apply and_congr_right
  intro _
  cases result.outcome with
  | unchanged reason => simp [Outcome.woven?]
  | rewritten found => simp [Outcome.woven?]

/-- A woven class is found by the position of its file. -/
theorem lookup_rewritten (distinct : (output.classes.map ClassResult.entry).Nodup) (position : Nat)
    (woven : WovenClass) :
    output.rewritten.lookup position = some woven ↔
      ∃ result ∈ output.classes, result.entry = position ∧ result.outcome = .rewritten woven := by
  rw [← mem_rewritten]
  refine lookup_eq_some_iff_mem ?_ position woven
  rw [List.Nodup, List.pairwise_map] at distinct ⊢
  rw [rewritten, List.pairwise_filterMap]
  refine distinct.imp fun apart first firstHere second secondHere same => apart ?_
  obtain ⟨_, -, rfl⟩ := Option.map_eq_some_iff.1 firstHere
  obtain ⟨_, -, rfl⟩ := Option.map_eq_some_iff.1 secondHere
  exact same

end EngineOutput

namespace Output

/-! ## Files -/

/-- What there is in the output for a file of the input: the woven class if the file was
rewritten, and otherwise its own bytes. -/
structure Copied (woven : EngineOutput) (item : InputEntry × Nat) (file : OutputFile) : Prop where
  path : file.path = item.1.path
  rewritten : ∀ result ∈ woven.classes, result.entry = item.2 → ∀ found,
    result.outcome = .rewritten found → file.bytes = found.bytes
  unchanged : (∀ result ∈ woven.classes, result.entry = item.2 → result.outcome.woven? = none) →
    file.bytes = item.1.bytes

/-- Each entry of the input is copied once, with the class that has taken its place if there
is one. -/
theorem copied_each (inputs : Inputs) (woven : EngineOutput)
    (distinct : (woven.classes.map ClassResult.entry).Nodup) :
    List.Forall₂ (Copied woven) inputs.entries.zipIdx (copied inputs woven) := by
  rw [copied, List.forall₂_map_right_iff, List.forall₂_same]
  rintro ⟨entry, position⟩ -
  dsimp only
  split
  next found here =>
    obtain ⟨result, member, same, rewritten⟩ := (woven.lookup_rewritten distinct ..).1 here
    refine ⟨rfl, ?_, ?_⟩
    · intro other otherMember otherSame otherFound otherRewritten
      have again := (woven.lookup_rewritten distinct ..).2
        ⟨other, otherMember, otherSame, otherRewritten⟩
      rw [Option.some.inj (here.symm.trans again)]
    · intro none
      have unwoven := none result member same
      rw [rewritten] at unwoven
      cases unwoven
  next absent =>
    refine ⟨rfl, ?_, fun _ => rfl⟩
    intro result member same found rewritten
    have here := (woven.lookup_rewritten distinct ..).2 ⟨result, member, same, rewritten⟩
    rw [here] at absent
    cases absent

/-- Files keep their paths. -/
theorem paths_copied (inputs : Inputs) (woven : EngineOutput) :
    (copied inputs woven).map OutputFile.path = inputs.entries.map InputEntry.path := by
  rw [copied, List.map_map, ← List.zipIdx_map_fst 0 inputs.entries, List.map_map,
    List.zipIdx_map_fst]
  refine List.map_congr_left ?_
  rintro ⟨entry, position⟩ -
  dsimp only [Function.comp_apply]
  split <;> rfl

/-- The file that a support class is written to. -/
def ofSupport (support : SupportClass) : OutputFile := ⟨support.name ++ classEnding, support.bytes⟩

/-- The support classes that are written, in their order: those that no class of the input
has the name of, unless they are provided by someone else. -/
def Missing (inputs : Inputs) (mode : SupportMode) (support : List SupportClass) : Prop :=
  match mode with
  | .external => support = []
  | .emit => ∃ classes, SupportClass.all = .ok classes ∧
      support = classes.filter fun item =>
        decide (∀ entry ∈ inputs.entries, entry.className ≠ some item.name)

/-- The support classes that are missing can be written. -/
theorem exists_missing (inputs : Inputs) (mode : SupportMode) :
    ∃ support, missingSupport inputs mode = .ok support ∧ Missing inputs mode support := by
  cases mode with
  | external => exact ⟨[], rfl, rfl⟩
  | emit =>
    obtain ⟨classes, written, -⟩ := SupportClass.exists_all
    refine ⟨_, (Outcome.bind_eq_ok ..).2 ⟨classes, written, rfl⟩, classes, written, ?_⟩
    refine List.filter_congr fun item _ => ?_
    rw [Bool.eq_iff_iff, Bool.not_eq_true', decide_eq_true_iff, ← Bool.not_eq_true,
      List.contains_iff_mem, List.mem_map]
    constructor
    · intro absent entry inside named
      exact absent ⟨(item.name, entry), (inputs.mem_classes ..).2 ⟨inside, named⟩, rfl⟩
    · rintro absent ⟨⟨name, entry⟩, member, rfl⟩
      obtain ⟨inside, named⟩ := (inputs.mem_classes ..).1 member
      exact absent entry inside named

/-! ## Paths -/

section

variable {inputs : Inputs} {mode : SupportMode} {support : List SupportClass}
variable (missing : Missing inputs mode support)
include missing

/-- What is written besides the input are support classes. -/
theorem Missing.sublist : (support.map SupportClass.name).Sublist SupportClass.names := by
  cases mode with
  | external =>
    obtain rfl : support = [] := missing
    exact List.nil_sublist _
  | emit =>
    obtain ⟨classes, written, rfl⟩ := missing
    obtain ⟨others, writtenToo, named⟩ := SupportClass.exists_all
    obtain rfl := Except.ok.inj (written.symm.trans writtenToo)
    rw [← named]
    exact List.filter_sublist.map _

/-- No class of the input has the name of a support class that is written. -/
theorem Missing.absent : ∀ item ∈ support, ∀ entry ∈ inputs.entries,
    entry.className ≠ some item.name := by
  cases mode with
  | external =>
    obtain rfl : support = [] := missing
    intro item member
    cases member
  | emit =>
    obtain ⟨classes, -, rfl⟩ := missing
    intro item member
    exact of_decide_eq_true (List.mem_filter.1 member).2

/-- No path is written twice if that is so for the input and if classes stand where their
names say. -/
theorem Missing.nodup_paths (woven : EngineOutput)
    (distinct : (inputs.entries.map InputEntry.path).Nodup)
    (named : ∀ entry ∈ inputs.entries, entry.className = weavableName entry.path ∨
      ∃ name, entry.className = some name ∧ entry.path = name ++ classEnding) :
    ((files inputs woven support).map OutputFile.path).Nodup := by
  have paths : (support.map ofSupport).map OutputFile.path =
      (support.map SupportClass.name).map (· ++ classEnding) := by
    rw [List.map_map, List.map_map]
    rfl
  have files : files inputs woven support = copied inputs woven ++ support.map ofSupport := rfl
  rw [files, List.map_append, paths_copied, paths, List.nodup_append']
  refine ⟨distinct, ?_, ?_⟩
  · refine (missing.sublist.nodup SupportClass.nodup_names).map fun first second same => ?_
    exact (String.append_left_inj _).1 same
  · intro path here there
    obtain ⟨entry, inside, rfl⟩ := List.mem_map.1 here
    obtain ⟨name, member, same⟩ := List.mem_map.1 there
    have weavable := SupportClass.weavableName_names name (missing.sublist.subset member)
    obtain ⟨item, itemMember, rfl⟩ := List.mem_map.1 member
    apply missing.absent item itemMember entry inside
    rcases named entry inside with byPath | ⟨other, declared, path⟩
    · rw [byPath, ← same, weavable]
    · rw [declared, (String.append_left_inj _).1 (same.trans path)]

end

/-! ## Writing -/

/-- Write files in the form that the output has. -/
def place [ArchiveLibrary] (layout : InputLayout) (output : String) (files : List OutputFile) :
    Running Unit :=
  match layout with
  | .jar => writeJar output files
  | .directory | .classFile => writeDirectory output files

/-- What is written are the files of the output, and they are counted. -/
theorem write_eq [ArchiveLibrary] (inputs : Inputs) (woven : EngineOutput) (mode : SupportMode)
    (output : String) (support : List SupportClass)
    (known : missingSupport inputs mode = .ok support) :
    write inputs woven mode output = (do
      place inputs.layout output (files inputs woven support)
      return ⟨(files inputs woven support).length, woven.rewritten.length, support.length⟩) := by
  rw [write, known]
  show (match inputs.layout with | .jar => _ | .directory | .classFile => _) = _
  cases inputs.layout <;> rfl

/-- As many files are replaced as classes have been rewritten. -/
theorem length_rewritten (woven : EngineOutput) :
    woven.rewritten.length = woven.classes.countP fun result => result.outcome.woven?.isSome := by
  rw [EngineOutput.rewritten, List.length_filterMap_eq_countP]
  simp

/-- The output mirrors the input, whatever has become of its classes. What is written are
the files of the input in their order and under their paths, each with its own bytes or
with those of the woven class that it was rewritten to, and behind them the support
classes that are missing. The summary counts them. If the files of the input have
different paths and classes stand where their names say, then no path is written twice. -/
theorem write_mirrors [ArchiveLibrary] (inputs : Inputs) (engine : Engine) (lookup : ClassLookup)
    (woven : EngineOutput) (ran : engine.weave inputs.entries lookup = .ok woven)
    (mode : SupportMode) (output : String) :
    ∃ copies support, List.Forall₂ (Copied woven) inputs.entries.zipIdx copies ∧
      Missing inputs mode support ∧
      write inputs woven mode output = (do
        place inputs.layout output (copies ++ support.map ofSupport)
        return {
          entries := (copies ++ support.map ofSupport).length
          rewritten := woven.classes.countP fun result => result.outcome.woven?.isSome
          supportClasses := support.length }) ∧
      ((inputs.entries.map InputEntry.path).Nodup →
        (∀ entry ∈ inputs.entries, entry.className = weavableName entry.path ∨
          ∃ name, entry.className = some name ∧ entry.path = name ++ classEnding) →
        ((copies ++ support.map ofSupport).map OutputFile.path).Nodup) := by
  obtain ⟨support, known, missing⟩ := exists_missing inputs mode
  refine ⟨copied inputs woven, support, ?_, missing, ?_, missing.nodup_paths woven⟩
  · exact copied_each inputs woven (engine.nodup_results inputs.entries lookup woven ran)
  · rw [write_eq inputs woven mode output support known, length_rewritten]
    rfl

attribute [local instance] Archive.uncompressed in
/-- One file is copied, one class is rewritten, and all support classes are added. -/
theorem write_mirrors_mixedEntries :
    ∃ woven copies support,
      Engine.weave ⟨some ⟨"r"⟩, .empty⟩ Engine.mixedEntries Dispatcher.packageLookup = .ok woven ∧
      List.Forall₂ (Copied woven) Engine.mixedEntries.zipIdx copies ∧
      Missing ⟨.jar, Engine.mixedEntries, []⟩ .emit support ∧
      write ⟨.jar, Engine.mixedEntries, []⟩ woven .emit "woven.jar" = (do
        place .jar "woven.jar" (copies ++ support.map ofSupport)
        return ⟨(copies ++ support.map ofSupport).length,
          woven.classes.countP fun result => result.outcome.woven?.isSome, support.length⟩) ∧
      (Engine.mixedEntries.map InputEntry.path).Nodup ∧
      (∀ entry ∈ Engine.mixedEntries, entry.className = weavableName entry.path) ∧
      ((copies ++ support.map ofSupport).map OutputFile.path).Nodup := by
  have answers : (Engine.weave ⟨some ⟨"r"⟩, .empty⟩ Engine.mixedEntries
      Dispatcher.packageLookup).toOption.isSome = true := by decide +kernel
  cases ran : Engine.weave ⟨some ⟨"r"⟩, .empty⟩ Engine.mixedEntries Dispatcher.packageLookup with
  | error failure =>
    rw [ran] at answers
    cases answers
  | ok woven =>
    obtain ⟨copies, support, copied, missing, written, once⟩ :=
      write_mirrors ⟨.jar, Engine.mixedEntries, []⟩ ⟨some ⟨"r"⟩, .empty⟩ Dispatcher.packageLookup
        woven ran .emit "woven.jar"
    have distinct : (Engine.mixedEntries.map InputEntry.path).Nodup := by decide +kernel
    have named : ∀ entry ∈ Engine.mixedEntries, entry.className = weavableName entry.path := by
      decide +kernel
    exact ⟨woven, copies, support, rfl, copied, missing, written, distinct, named,
      once distinct fun entry inside => .inl (named entry inside)⟩

end Output

end NullGuard
