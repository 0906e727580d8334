import NullGuard.Proofs.Files.Tree
import NullGuard.Proofs.Outcome
import NullGuard.Proofs.Run.Output
import NullGuard.Run.Scan

/-!
# What scanning finds

The input is a directory, a jar or a single class file (`Scan.Finds`). A file in a
directory has a path made of the names that lead to it, so its path leads out of no
directory; the path of a single class file is whatever name the class gives itself
(`Scan.Finds.leadsOut_iff`).
-/

namespace NullGuard

namespace Path

/-- Whether a path ends in the name of something. -/
def EndsInName (path : String) : Prop :=
  ∃ front last, pieces path = front ++ [last] ∧ IsName last

/-- A class path ends in a name, not in a step up. -/
theorem endsInName_class (name : String) : EndsInName (name ++ classEnding) := by
  obtain ⟨front, last, whole, split⟩ := pieces_append_ending name classEnding (by decide)
  have ending : (last ++ classEnding).toList.getLast? = some 's' := by
    rw [String.toList_append, List.getLast?_append]
    rfl
  have other (text : String) (different : text.toList.getLast? ≠ some 's') :
      last ++ classEnding ≠ text := fun same => different (same ▸ ending)
  refine ⟨front, last ++ classEnding, split, ⟨?_, ?_, other ".." (by decide)⟩⟩
  · rw [IsPiece, String.toList_append, List.mem_append, not_or]
    exact ⟨whole, by decide⟩
  · simp only [isIdle, Bool.or_eq_false_iff, beq_eq_false_iff_ne]
    exact ⟨other "" (by decide), other "." (by decide)⟩

/-- Names in a row end in a name. -/
theorem endsInName_intercalate (names : List String) (any : names ≠ [])
    (named : ∀ name ∈ names, IsName name) : EndsInName (String.intercalate "/" names) := by
  have split := pieces_intercalate names any fun name member => (named name member).isPiece
  refine ⟨names.dropLast, names.getLast any, ?_, named _ (List.getLast_mem any)⟩
  rw [split, List.dropLast_append_getLast]

/-- Names in a row lead nowhere but down. -/
theorem climbs_intercalate (names : List String) (any : names ≠ [])
    (named : ∀ name ∈ names, IsName name) : climbs (String.intercalate "/" names) = false := by
  rw [climbs, pieces_intercalate names any fun name member => (named name member).isPiece]
  exact climbsFrom_names 0 names named

end Path

namespace Scan

variable {tree : FileTree} {path : String}

/-- What the input at a path is. -/
inductive Finds [ArchiveLibrary] (tree : FileTree) (path : String) :
    InputLayout → List InputEntry → Prop
  | directory (files : List (Location × Branch.Reached)) (entries : List InputEntry)
      (isDirectory : tree.isDirectory path = true)
      (listed : tree.readDirectory path = .ok files)
      (read : List.Forall₂ (fun item entry => fileEntry path item = .ok entry) files entries) :
      Finds tree path .directory entries
  | jar (entries : List InputEntry) (isFile : tree.isDirectory path = false)
      (read : jarEntries tree path = .ok entries) : Finds tree path .jar entries
  | classFile (bytes : List UInt8) (name : String) (isFile : tree.isDirectory path = false)
      (read : tree.readFile path = .ok bytes) (named : ClassFile.peekName bytes = .ok name) :
      Finds tree path .classFile [⟨name ++ classEnding, some name, bytes⟩]

/-- What an input gives is found in one of three ways. -/
theorem finds_of_input [ArchiveLibrary] (layout : InputLayout) (entries : List InputEntry)
    (scanned : input tree path = .ok (layout, entries)) : Finds tree path layout entries := by
  unfold input at scanned
  split at scanned
  next isDirectory =>
    obtain ⟨files, listed, rest⟩ := (Outcome.bind_eq_ok ..).1 scanned
    obtain ⟨found, read, returned⟩ := (Outcome.bind_eq_ok ..).1 rest
    obtain ⟨rfl, rfl⟩ := Prod.mk.inj (Except.ok.inj returned)
    exact .directory files found isDirectory listed ((Outcome.mapM_eq_ok ..).1 read)
  next isFile =>
    rw [Bool.not_eq_true] at isFile
    split at scanned
    next =>
      obtain ⟨found, read, returned⟩ := (Outcome.bind_eq_ok ..).1 scanned
      obtain ⟨rfl, rfl⟩ := Prod.mk.inj (Except.ok.inj returned)
      exact .jar found isFile read
    next =>
      split at scanned
      next =>
        obtain ⟨bytes, read, rest⟩ := (Outcome.bind_eq_ok ..).1 scanned
        obtain ⟨name, named, returned⟩ := (Outcome.bind_eq_ok ..).1 rest
        obtain ⟨rfl, rfl⟩ := Prod.mk.inj (Except.ok.inj returned)
        exact .classFile bytes name isFile read ((Outcome.during_eq_ok ..).1 named)
      next => exact (Outcome.fail_ne_ok _ _ scanned).elim

/-- Of everything that a run needs the input is scanned first. -/
theorem input_of_inputs [ArchiveLibrary] {classpath : List String} (found : Inputs)
    (scanned : inputs tree path classpath = .ok found) :
    input tree path = .ok (found.layout, found.entries) := by
  obtain ⟨⟨layout, entries⟩, first, rest⟩ := (Outcome.bind_eq_ok ..).1 scanned
  have same : found.layout = layout ∧ found.entries = entries := by
    dsimp only at rest
    split at rest
    all_goals
      obtain ⟨named, -, rest⟩ := (Outcome.bind_eq_ok ..).1 rest
      obtain ⟨expanded, -, rest⟩ := (Outcome.bind_eq_ok ..).1 rest
      obtain ⟨classes, -, returned⟩ := (Outcome.bind_eq_ok ..).1 rest
      obtain rfl := Except.ok.inj returned
      exact ⟨rfl, rfl⟩
  rw [same.1, same.2]
  exact first

/-- What is scanned beside a class path is found as without one. -/
theorem finds_of_inputs [ArchiveLibrary] {classpath : List String} (found : Inputs)
    (scanned : inputs tree path classpath = .ok found) :
    Finds tree path found.layout found.entries :=
  finds_of_input _ _ (input_of_inputs found scanned)

/-- A file below a directory has the names that lead to it in its path. -/
theorem path_of_fileEntry (item : Location × Branch.Reached) (entry : InputEntry)
    (read : fileEntry path item = .ok entry) :
    ∃ bytes, item.2 = some bytes ∧ entry = .ofFile (String.intercalate "/" item.1) bytes := by
  obtain ⟨names, reached⟩ := item
  cases reached with
  | some bytes => exact ⟨bytes, rfl, (Except.ok.inj read).symm⟩
  | none => exact (Outcome.fail_ne_ok _ _ ((Outcome.during_eq_ok ..).1 read)).elim

/-- What is read from a directory has been listed there. -/
theorem listFiles_of_readDirectory (files : List (Location × Branch.Reached))
    (listed : tree.readDirectory path = .ok files) : tree.listFiles path = .ok files := by
  unfold FileTree.readDirectory at listed
  split at listed
  next found known => rw [known, Except.ok.inj listed]
  next => exact (Outcome.fail_ne_ok _ _ ((Outcome.during_eq_ok ..).1 listed)).elim

/-- The files of a directory have paths made of names. -/
theorem names_of_fileEntries (proper : tree.root.IsProper)
    (files : List (Location × Branch.Reached)) (entries : List InputEntry)
    (listed : tree.readDirectory path = .ok files)
    (read : List.Forall₂ (fun item entry => fileEntry path item = .ok entry) files entries) :
    ∀ entry ∈ entries, ∃ names, names ≠ [] ∧ (∀ name ∈ names, Path.IsName name) ∧
      entry.path = String.intercalate "/" names := by
  intro entry member
  obtain ⟨item, inside, made⟩ := Outcome.exists_of_forall₂ read entry member
  obtain ⟨bytes, -, rfl⟩ := path_of_fileEntry item entry made
  obtain ⟨any, named⟩ := tree.names_of_listFiles proper path files
    (listFiles_of_readDirectory files listed) item inside
  exact ⟨item.1, any, named, rfl⟩

/-- The input is a class file that calls itself by a name that leads out of a directory. -/
def LeadsOut (tree : FileTree) (path : String) (layout : InputLayout) : Prop :=
  layout = .classFile ∧ ∃ bytes name, tree.readFile path = .ok bytes ∧
    ClassFile.peekName bytes = .ok name ∧ Path.climbs (name ++ classEnding) = true

section

variable (proper : tree.root.IsProper) {layout : InputLayout} {entries : List InputEntry}
variable [ArchiveLibrary]
variable (found : Finds tree path layout entries) (form : layout ≠ .jar)
include proper found form

/-- Unless the input is a jar, the path of each of its files ends in a name. -/
theorem Finds.endsInName : ∀ entry ∈ entries, Path.EndsInName entry.path := by
  intro entry member
  cases found with
  | directory files entries isDirectory listed read =>
    obtain ⟨names, any, named, same⟩ :=
      names_of_fileEntries proper files entries listed read entry member
    rw [same]
    exact Path.endsInName_intercalate names any named
  | jar entries isFile read => exact absurd rfl form
  | classFile bytes name isFile read named =>
    obtain rfl := List.mem_singleton.1 member
    exact Path.endsInName_class name

/-- Only a class file that stands alone can have a path that leads out of a directory. -/
theorem Finds.leadsOut_iff :
    LeadsOut tree path layout ↔ ∃ entry ∈ entries, Path.climbs entry.path = true := by
  constructor
  · rintro ⟨rfl, bytes, name, read, named, out⟩
    cases found with
    | classFile others called isFile readToo namedToo =>
      obtain rfl := Except.ok.inj (read.symm.trans readToo)
      obtain rfl := Except.ok.inj (named.symm.trans namedToo)
      exact ⟨_, List.mem_cons_self, out⟩
  · rintro ⟨entry, member, out⟩
    cases found with
    | directory files entries isDirectory listed read =>
      obtain ⟨names, any, named, same⟩ :=
        names_of_fileEntries proper files entries listed read entry member
      rw [same, Path.climbs_intercalate names any named] at out
      cases out
    | jar entries isFile read => exact absurd rfl form
    | classFile bytes name isFile read named =>
      obtain rfl := List.mem_singleton.1 member
      exact ⟨rfl, bytes, name, read, named, out⟩

end

end Scan

end NullGuard
