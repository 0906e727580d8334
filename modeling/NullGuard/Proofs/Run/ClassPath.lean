import NullGuard.Files.Archive.Written
import NullGuard.Proofs.Files.Extension
import NullGuard.Proofs.Guard.Weave
import NullGuard.Proofs.Run.ClassIndex
import NullGuard.Proofs.Run.Scan

/-!
# Directories and jars on the class path

A directory on the class path and a jar with the same files in the same order stand for the
same classes as far as both take the same files. A jar leaves out module descriptors and the
variants of a class for other releases; a directory takes these, too. And a directory leaves
out a file that has nothing in front of the ending, which a jar takes if it stands in a
directory. So the two answer alike for all names that no such file declares
(`Scan.directory_like_jar`).
-/

namespace NullGuard

/-- The names that lead to a file as a path. -/
def Location.path (names : Location) : String := String.intercalate "/" names

namespace Scan

/-- Files by the names that lead to them. -/
abbrev Files := List (Location × List UInt8)

/-- Whether a directory on the class path takes a class file. -/
def inDirectory (names : Location) : Bool := names.getLast? != some classEnding

/-- Whether a jar on the class path takes a class file. -/
def inJar (names : Location) : Bool := (weavableName names.path).isSome

/-- Files of which both or neither take a class. -/
structure Ordinary (names : Location) : Prop where
  notVariant : Text.startsWith names.path variantsFolder = false
  notModule : names.getLast? ≠ some "module-info.class"
  notBare : names.getLast? ≠ some classEnding

/-- The classes that some files hold, of those that are taken. -/
def classesIn (takes : Location → Bool) (files : Files) : List ClasspathClass :=
  (files.filter fun file => takes file.1).filterMap fun file => (classOf file.2).toOption

/-! ## Names of class files -/

/-- A class file by the names that lead to it. -/
structure IsClassFile (names : Location) : Prop where
  any : names ≠ []
  named : ∀ name ∈ names, Path.IsName name
  ends : ∃ stem, names.path = stem ++ classEnding

/-- The path of a class file is cut into the names that it was made of. -/
theorem pieces_path (names : Location) (classFile : IsClassFile names) :
    Path.pieces names.path = names :=
  Path.pieces_intercalate names classFile.any fun name member =>
    (classFile.named name member).isPiece

/-- Its last name has the ending, too. -/
theorem IsClassFile.exists_stem {names : Location} (classFile : IsClassFile names) :
    ∃ front stem, names = front ++ [stem ++ classEnding] ∧ Path.IsName (stem ++ classEnding) := by
  obtain ⟨whole, same⟩ := classFile.ends
  obtain ⟨front, stem, -, split⟩ := Path.pieces_append_ending whole classEnding (by decide)
  rw [← same, pieces_path names classFile] at split
  refine ⟨front, stem, split, classFile.named _ ?_⟩
  rw [split]
  exact List.mem_append_right _ List.mem_cons_self

/-- A directory takes everything with something in front of the ending. -/
theorem IsClassFile.extension {names : Location} (classFile : IsClassFile names)
    (directory : String) : Path.isJar (Path.joinAll directory names) = false ∧
      Path.isClass (Path.joinAll directory names) = inDirectory names := by
  obtain ⟨front, stem, rfl, named⟩ := classFile.exists_stem
  obtain ⟨outer, split⟩ := Path.exists_pieces_joinAll directory front _ named.isPiece
  obtain ⟨noJar, isClass⟩ := Path.extension_of_pieces _ outer stem split named
  refine ⟨noJar, ?_⟩
  rw [Bool.eq_iff_iff, isClass, inDirectory, List.getLast?_concat, bne_iff_ne, ne_eq, ne_eq,
    Option.some.injEq, String.append_eq_right_iff]

/-- What is ordinary is taken by both. -/
theorem Ordinary.taken {names : Location} (ordinary : Ordinary names)
    (classFile : IsClassFile names) : inDirectory names = true ∧ inJar names = true := by
  refine ⟨bne_iff_ne.2 ordinary.notBare, ?_⟩
  obtain ⟨front, stem, split, named⟩ := classFile.exists_stem
  obtain ⟨whole, same⟩ := classFile.ends
  have last : lastPiece names.path = stem ++ classEnding :=
    Path.lastPiece_of_pieces _ front _ ((pieces_path names classFile).trans split)
  have weavable : weavableName names.path = some whole := by
    refine (weavableName_eq_some ..).2 ⟨same, ?_, ?_, ordinary.notVariant⟩
    · rintro rfl
      rw [String.empty_append] at same
      have single := pieces_path names classFile
      rw [same] at single
      refine ordinary.notBare ?_
      rw [← single]
      decide
    · rw [last]
      intro isModule
      refine ordinary.notModule ?_
      rw [split, List.getLast?_concat, isModule]
  rw [inJar, weavable]
  rfl

/-- No jar takes a variant for another release or a module descriptor. A directory does. -/
theorem IsClassFile.not_inJar {names : Location} (classFile : IsClassFile names)
    (odd : Text.startsWith names.path variantsFolder = true ∨
      names.getLast? = some "module-info.class") : inJar names = false := by
  rw [inJar, ← Bool.not_eq_true, Option.isSome_iff_exists]
  rintro ⟨name, weavable⟩
  obtain ⟨-, -, notModule, notVariant⟩ := (weavableName_eq_some ..).1 weavable
  rcases odd with variant | isModule
  · rw [notVariant] at variant
    cases variant
  · obtain ⟨front, rfl⟩ := List.getLast?_eq_some_iff.1 isModule
    exact notModule (Path.lastPiece_of_pieces _ front _ (pieces_path _ classFile))

/-! ## Entries of the class path -/

section

variable {tree : FileTree} {directory jar : String} {files : Files}

/-- What can be listed is a directory. -/
theorem isDirectory_of_readDirectory (found : List (Location × Branch.Reached))
    (listed : tree.readDirectory directory = .ok found) :
    tree.isDirectory directory = true ∧ tree.pathExists directory = true := by
  obtain ⟨entries, there, -⟩ :=
    tree.stat_of_listFiles directory found (listFiles_of_readDirectory found listed)
  exact ⟨by rw [FileTree.isDirectory, there], (tree.pathExists_iff directory).2 ⟨_, there⟩⟩

/-- A jar that can be read is a file. -/
theorem isFile_of_readJar [ArchiveLibrary] (entries : List (Except ArchiveFault OpenedEntry))
    (read : tree.readJar jar = .ok entries) :
    tree.isDirectory jar = false ∧ tree.pathExists jar = true := by
  unfold FileTree.readJar at read
  split at read
  next bytes known =>
    have there := tree.stat_of_read jar bytes known
    exact ⟨by rw [FileTree.isDirectory, there], (tree.pathExists_iff jar).2 ⟨_, there⟩⟩
  all_goals exact (Outcome.fail_ne_ok _ _ ((Outcome.during_eq_ok ..).1 read)).elim

/-- A file of a directory on the class path gives the class in it, if it is a class file. -/
theorem looseClasses_eq [ArchiveLibrary] (file : Location × List UInt8)
    (classFile : IsClassFile file.1) :
    looseClasses tree (Path.joinAll directory file.1) (some file.2) =
      .ok (classesIn inDirectory [file]) := by
  obtain ⟨noJar, isClass⟩ := classFile.extension directory
  rw [looseClasses, noJar, isClass, classesIn, List.filter_singleton]
  cases inDirectory file.1 with
  | false => rfl
  | true => cases known : (classOf file.2).toOption <;> simp [known]

/-- Files give their classes one by one. -/
theorem classesIn_cons (takes : Location → Bool) (file : Location × List UInt8) (rest : Files) :
    classesIn takes (file :: rest) = classesIn takes [file] ++ classesIn takes rest := by
  rw [classesIn, classesIn, classesIn, ← List.filterMap_append, ← List.filter_append]
  rfl

/-- What a directory stands for. -/
theorem entryClasses_directory [ArchiveLibrary] (classFiles : ∀ file ∈ files, IsClassFile file.1)
    (listed : tree.readDirectory directory = .ok (files.map fun file => (file.1, some file.2))) :
    entryClasses tree directory = .ok (classesIn inDirectory files) := by
  have each : (files.map fun file => (file.1, some file.2)).mapM
      (fun item : Location × Branch.Reached =>
        looseClasses tree (Path.joinAll directory item.1) item.2) =
      .ok (files.map fun file => classesIn inDirectory [file]) := by
    rw [Outcome.mapM_eq_ok, List.forall₂_map_left_iff, List.forall₂_map_right_iff,
      List.forall₂_same]
    exact fun file member => looseClasses_eq file (classFiles file member)
  have whole : (files.map fun file => classesIn inDirectory [file]).flatten =
      classesIn inDirectory files := by
    clear each listed classFiles
    induction files with
    | nil => rfl
    | cons file rest inductionHypothesis =>
      rw [List.map_cons, List.flatten_cons, inductionHypothesis, ← classesIn_cons]
  unfold entryClasses
  rw [if_pos (isDirectory_of_readDirectory _ listed).1, listed]
  refine (Outcome.bind_eq_ok ..).2 ⟨_, rfl, (Outcome.bind_eq_ok ..).2 ⟨_, each, ?_⟩⟩
  rw [whole]
  rfl

/-- The files that a jar holds, as files of the input. -/
def stored (files : Files) : List InputEntry :=
  files.map fun file => .ofFile file.1.path file.2

variable [ArchiveLibrary] (isJar : Path.isJar jar = true)
variable (held : jarEntries tree jar = .ok (stored files))
include isJar held

/-- What a jar stands for. -/
theorem entryClasses_jar : entryClasses tree jar = .ok (classesIn inJar files) := by
  obtain ⟨opened, read, -⟩ := (Outcome.bind_eq_ok ..).1 held
  obtain ⟨isFile, -⟩ := isFile_of_readJar opened read
  have classes : jarClasses tree jar = .ok (classesIn inJar files) := by
    refine (Outcome.bind_eq_ok ..).2 ⟨_, held, ?_⟩
    rw [stored, List.filter_map, List.filterMap_map]
    rfl
  unfold entryClasses
  rw [if_neg (by rw [isFile]; decide), if_pos isJar]
  exact classes

end

/-- Among entries that can be read and are no manifest there is no manifest. -/
theorem manifestText_eq_none (path : String) (entries : List (Except ArchiveFault OpenedEntry))
    (other : ∀ entry ∈ entries, ∃ found, jarEntry path entry = .ok found ∧
      ∀ file ∈ found, file.path ≠ Manifest.entryName) :
    manifestText path entries = .ok none := by
  induction entries with
  | nil => rfl
  | cons entry rest inductionHypothesis =>
    obtain ⟨⟨found, read, different⟩, behind⟩ := List.forall_mem_cons.1 other
    obtain ⟨opened, known, ran⟩ := (Outcome.bind_eq_ok ..).1 read
    have named : opened.name ≠ Manifest.entryName := by
      split at ran
      next isDirectory =>
        intro same
        have slashed := opened.named isDirectory
        rw [same] at slashed
        exact absurd slashed (by decide)
      next =>
        obtain ⟨bytes, -, returned⟩ := (Outcome.bind_eq_ok ..).1 ran
        obtain rfl := Except.ok.inj returned
        exact different _ rfl
    unfold manifestText
    refine (Outcome.bind_eq_ok ..).2 ⟨opened, known, ?_⟩
    rw [if_pos named]
    exact inductionHypothesis behind

/-- A jar with class files only names nothing further for the class path. -/
theorem manifestClassPath_eq_nil [ArchiveLibrary] {tree : FileTree} {jar : String} {files : Files}
    (classFiles : ∀ file ∈ files, IsClassFile file.1)
    (held : jarEntries tree jar = .ok (stored files)) : manifestClassPath tree jar = .ok [] := by
  obtain ⟨entries, read, rest⟩ := (Outcome.bind_eq_ok ..).1 held
  obtain ⟨results, each, returned⟩ := (Outcome.bind_eq_ok ..).1 rest
  have all : results.filterMap id = stored files := Except.ok.inj returned
  have none : manifestText jar entries = .ok none := by
    refine manifestText_eq_none jar entries fun entry member => ?_
    obtain ⟨found, inside, ran⟩ := Outcome.exists_of_forall₂
      (R := fun found entry => jarEntry jar entry = .ok found)
      ((Outcome.mapM_eq_ok ..).1 each).flip entry member
    refine ⟨found, ran, fun file here same => ?_⟩
    have kept : file ∈ results.filterMap id := List.mem_filterMap.2 ⟨found, inside, here⟩
    rw [all] at kept
    obtain ⟨file, given, rfl⟩ := List.mem_map.1 kept
    obtain ⟨stem, ends⟩ := (classFiles _ given).ends
    have ending : Text.endsWith Manifest.entryName classEnding = true :=
      (Text.endsWith_iff ..).2 ⟨stem, by rw [← same]; exact ends⟩
    revert ending
    decide
  unfold manifestClassPath
  exact (Outcome.bind_eq_ok ..).2 ⟨entries, read, (Outcome.bind_eq_ok ..).2 ⟨_, none, rfl⟩⟩

/-! ## A single entry -/

/-- A class path with one entry that names nothing further is that entry. -/
theorem expand_singleton [ArchiveLibrary] (tree : FileTree) (entry : String)
    (found : tree.pathExists entry = true)
    (alone : Path.isJar entry = true → manifestClassPath tree entry = .ok []) :
    expand tree [entry] = .ok [entry] := by
  obtain ⟨bound, count⟩ : ∃ bound, pathCount = bound + 1 := by
    unfold pathCount
    generalize FileTree.maxPath + 1 = size
    exact Nat.exists_eq_succ_of_ne_zero (Nat.ne_of_gt (Nat.pow_pos (by decide)))
  have stops : expandFrom tree bound [entry] ([] ++ sorted []) = .ok [entry] := by
    rw [sorted, List.mergeSort_nil]
    cases bound <;> rfl
  rw [expand, sorted, List.mergeSort_singleton, count, expandFrom]
  simp only [List.contains_nil, List.dropWhile_cons_of_neg, Bool.false_eq_true, not_false_eq_true,
    found, Bool.not_true, if_false]
  by_cases isJar : Path.isJar entry = true
  · rw [if_pos isJar, alone isJar]
    exact stops
  · rw [if_neg isJar]
    exact stops

/-- An input that is no jar with one entry on the class path that names nothing further. -/
theorem inputs_singleton [ArchiveLibrary] (tree : FileTree) (path entry : String)
    (layout : InputLayout) (entries : List InputEntry) (classes : List ClasspathClass)
    (scanned : input tree path = .ok (layout, entries)) (form : layout ≠ .jar)
    (found : tree.pathExists entry = true) (apart : Path.same entry path = false)
    (alone : Path.isJar entry = true → manifestClassPath tree entry = .ok [])
    (read : entryClasses tree entry = .ok classes) :
    inputs tree path [entry] = .ok ⟨layout, entries, classes⟩ := by
  have others : ([entry].filter fun other => !Path.same other path).mapM (entryClasses tree) =
      .ok [classes] := by
    rw [Outcome.mapM_eq_ok, List.filter_singleton, apart]
    exact .cons read .nil
  refine (Outcome.bind_eq_ok ..).2 ⟨_, scanned, ?_⟩
  dsimp only
  rw [if_neg form]
  refine (Outcome.bind_eq_ok ..).2 ⟨[], rfl, (Outcome.bind_eq_ok ..).2 ⟨[entry], ?_, ?_⟩⟩
  · exact expand_singleton tree entry found alone
  · refine (Outcome.bind_eq_ok ..).2 ⟨_, others, ?_⟩
    rw [List.flatten_singleton]
    rfl

/-! ## Answers -/

/-- The classes of a class path by name. -/
def named (classes : List ClasspathClass) : List (String × List UInt8) :=
  classes.map fun item => (item.name, item.bytes)

/-- The names of classes in a row are those of each. -/
theorem named_append (front back : List ClasspathClass) :
    named (front ++ back) = named front ++ named back := List.map_append

/-- Files that do not declare a name make no difference to what it stands for. -/
theorem lookup_classesIn (files : Files) (name : String) (one other : Location → Bool)
    (agree : ∀ file ∈ files, ClassFile.peekName file.2 = .ok name → one file.1 = other file.1) :
    (named (classesIn one files)).lookup name = (named (classesIn other files)).lookup name := by
  induction files with
  | nil => rfl
  | cons file rest inductionHypothesis =>
    obtain ⟨here, behind⟩ := List.forall_mem_cons.1 agree
    have first : (named (classesIn one [file])).lookup name =
        (named (classesIn other [file])).lookup name := by
      have silent (takes : Location → Bool)
          (different : ClassFile.peekName file.2 ≠ .ok name) :
          (named (classesIn takes [file])).lookup name = none := by
        rw [classesIn, List.filter_singleton]
        cases takes file.1 with
        | false => rfl
        | true =>
          cases peeked : ClassFile.peekName file.2 with
          | error failure => simp [classOf, peeked, named, Except.toOption]
          | ok declared =>
            have apart : name ≠ declared := by
              rintro rfl
              exact different peeked
            simp [classOf, peeked, named, Except.toOption, apart]
      by_cases declares : ClassFile.peekName file.2 = .ok name
      · rw [classesIn, classesIn, List.filter_singleton, List.filter_singleton, here declares]
      · rw [silent one declares, silent other declares]
    rw [classesIn_cons one, classesIn_cons other, named_append, named_append, List.lookup_append,
      List.lookup_append, first, inductionHypothesis behind]

/-- What stands in the same place on a class path answers alike if it does so alone. -/
theorem answer_between (layout : InputLayout) (entries : List InputEntry)
    (before one other after : List ClasspathClass) (name : String)
    (alike : (named one).lookup name = (named other).lookup name) :
    ClassIndex.answer ⟨layout, entries, before ++ one ++ after⟩ name =
      ClassIndex.answer ⟨layout, entries, before ++ other ++ after⟩ name := by
  have split (classes : List ClasspathClass) :
      ((before ++ classes ++ after).map fun item => (item.name, item.bytes)).lookup name =
        ((named before).lookup name).or (((named classes).lookup name).or
          ((named after).lookup name)) := by
    rw [List.map_append, List.map_append, List.lookup_append, List.lookup_append, Option.or_assoc]
    rfl
  rw [ClassIndex.answer, ClassIndex.answer, split, split, alike]
  rfl

/-- Files that a directory lists are class files if their paths have the ending. -/
theorem isClassFile_of_listed (tree : FileTree) (proper : tree.root.IsProper) (files : Files)
    (directory : String) (endings : ∀ file ∈ files, ∃ stem, file.1.path = stem ++ classEnding)
    (listed : tree.readDirectory directory = .ok (files.map fun file => (file.1, some file.2))) :
    ∀ file ∈ files, IsClassFile file.1 := by
  intro file member
  obtain ⟨any, names⟩ := tree.names_of_listFiles proper directory _
    (listFiles_of_readDirectory _ listed) (file.1, some file.2)
    (List.mem_map.2 ⟨file, member, rfl⟩)
  exact ⟨any, names, endings file member⟩

/-- The same class files in a directory on the class path and in a jar. Each of the two
stands for the classes of the files that it takes, in their order, and nothing further comes
with them. Variants for other releases and module descriptors are left out by the jar only.
Whatever stands in front of the two and behind them on the class path, an index with the one
has the same answer as an index with the other for every name that only ordinary files
declare: those that are neither variants nor module descriptors nor without a name in front
of the ending. -/
theorem directory_like_jar [ArchiveLibrary] (tree : FileTree) (proper : tree.root.IsProper)
    (files : Files) (directory jar : String) (notJar : Path.isJar directory = false)
    (isJar : Path.isJar jar = true)
    (endings : ∀ file ∈ files, ∃ stem, file.1.path = stem ++ classEnding)
    (listed : tree.readDirectory directory = .ok (files.map fun file => (file.1, some file.2)))
    (held : jarEntries tree jar = .ok (stored files)) :
    entryClasses tree directory = .ok (classesIn inDirectory files) ∧
      entryClasses tree jar = .ok (classesIn inJar files) ∧
      (∀ file ∈ files, Ordinary file.1 → inDirectory file.1 = true ∧ inJar file.1 = true) ∧
      (∀ file ∈ files, Text.startsWith file.1.path variantsFolder = true ∨
        file.1.getLast? = some "module-info.class" → inJar file.1 = false) ∧
      (∀ path layout entries, input tree path = .ok (layout, entries) → layout ≠ .jar →
        Path.same directory path = false → Path.same jar path = false →
        inputs tree path [directory] = .ok ⟨layout, entries, classesIn inDirectory files⟩ ∧
          inputs tree path [jar] = .ok ⟨layout, entries, classesIn inJar files⟩) ∧
      ∀ layout entries before after index other,
        ClassIndex.ofInputs ⟨layout, entries, before ++ classesIn inDirectory files ++ after⟩ =
            .ok index →
          ClassIndex.ofInputs ⟨layout, entries, before ++ classesIn inJar files ++ after⟩ =
            .ok other →
          ∀ name, (∀ file ∈ files, ClassFile.peekName file.2 = .ok name → Ordinary file.1) →
            index.find? name = other.find? name := by
  have classFiles := isClassFile_of_listed tree proper files directory endings listed
  have ofDirectory := entryClasses_directory classFiles listed
  have ofJar := entryClasses_jar isJar held
  refine ⟨ofDirectory, ofJar, fun file member ordinary => ordinary.taken (classFiles file member),
    fun file member odd => (classFiles file member).not_inJar odd, ?_, ?_⟩
  · intro path layout entries scanned form directoryApart jarApart
    have directoryExists : tree.pathExists directory = true :=
      (isDirectory_of_readDirectory _ listed).2
    obtain ⟨opened, read, -⟩ := (Outcome.bind_eq_ok ..).1 held
    refine ⟨inputs_singleton tree path directory layout entries _ scanned form directoryExists
        directoryApart (fun isJar => ?_) ofDirectory,
      inputs_singleton tree path jar layout entries _ scanned form
        (isFile_of_readJar opened read).2 jarApart
        (fun _ => manifestClassPath_eq_nil classFiles held) ofJar⟩
    rw [notJar] at isJar
    cases isJar
  · intro layout entries before after index other indexed otherIndexed name ordinary
    rw [ClassIndex.find?_of_ofInputs _ index indexed,
      ClassIndex.find?_of_ofInputs _ other otherIndexed]
    refine answer_between layout entries before _ _ after name ?_
    refine lookup_classesIn files name inDirectory inJar fun file member declares => ?_
    obtain ⟨taken, takenToo⟩ :=
      (ordinary file member declares).taken (classFiles file member)
    rw [taken, takenToo]

/-! ## Three files in a directory and in a jar -/

section

attribute [local instance] Archive.uncompressed

/-- A class with nothing but a name and a version. -/
def bareClass (name : String) (version : UInt8) : List UInt8 :=
  Written.u32 ClassFile.magic ++ [0, 0, 0, version, 0, 3] ++ holderText name ++ [7, 0, 1] ++
    [0, 0x21, 0, 2, 0, 0, 0, 0, 0, 0, 0, 0, 0, 0]

/-- A class, a second one that has its name, and a third one as a variant for another release. -/
def libFiles : Files :=
  [(["A.class"], bareClass "A" 49), (["B.class"], bareClass "A" 50),
    (["META-INF", "versions", "9", "C.class"], bareClass "C" 49)]

/-- The three files as they stand in a directory. -/
def libBranch : Branch :=
  .directory [("A.class", .file (bareClass "A" 49)), ("B.class", .file (bareClass "A" 50)),
    ("META-INF", .directory [("versions", .directory [("9",
      .directory [("C.class", .file (bareClass "C" 49))])])])]

/-- An empty directory, and the three files in a directory and in a jar. -/
def libTree : FileTree :=
  ⟨[("in", .directory []), ("lib", libBranch),
    ("lib.jar", .file (Archive.written (libFiles.map fun file => ⟨file.1.path, file.2⟩)))], []⟩

/-- A directory with one entry is proper if the entry is. -/
theorem isProper_singleton (name : String) (branch : Branch) (named : Path.IsName name)
    (proper : branch.IsProper) : (Branch.directory [(name, branch)]).IsProper := by
  refine .directory _ ?_ ?_
  · simpa using named
  · simpa using proper

/-- The tree with the directory and the jar is proper. -/
theorem isProper_libTree : libTree.root.IsProper := by
  have name (text : String) (solid : Path.IsPiece text) (busy : Path.isIdle text = false)
      (ahead : text ≠ "..") : Path.IsName text := ⟨solid, busy, ahead⟩
  have variant : (Branch.directory [("versions", .directory [("9",
      .directory [("C.class", .file (bareClass "C" 49))])])]).IsProper := by
    refine isProper_singleton _ _ (name _ (by decide) (by decide) (by decide)) ?_
    refine isProper_singleton _ _ (name _ (by decide) (by decide) (by decide)) ?_
    exact isProper_singleton _ _ (name _ (by decide) (by decide) (by decide)) (.file _)
  have within : libBranch.IsProper := by
    refine .directory _ ?_ ?_
    · rw [List.forall_mem_cons, List.forall_mem_cons, List.forall_mem_singleton]
      exact ⟨name _ (by decide) (by decide) (by decide), name _ (by decide) (by decide) (by decide),
        name _ (by decide) (by decide) (by decide)⟩
    · rw [List.forall_mem_cons, List.forall_mem_cons, List.forall_mem_singleton]
      exact ⟨.file _, .file _, variant⟩
  refine .directory _ ?_ ?_
  · rw [libTree, List.forall_mem_cons, List.forall_mem_cons, List.forall_mem_singleton]
    exact ⟨name _ (by decide) (by decide) (by decide), name _ (by decide) (by decide) (by decide),
      name _ (by decide) (by decide) (by decide)⟩
  · rw [libTree, List.forall_mem_cons, List.forall_mem_cons, List.forall_mem_singleton]
    exact ⟨.directory _ (by simp) (by simp), within, .file _⟩

/-- The three files are named like class files. -/
theorem endings_libFiles : ∀ file ∈ libFiles, ∃ stem, file.1.path = stem ++ classEnding := by
  rw [libFiles, List.forall_mem_cons, List.forall_mem_cons, List.forall_mem_singleton]
  exact ⟨⟨"A", by decide⟩, ⟨"B", by decide⟩, ⟨"META-INF/versions/9/C", by decide⟩⟩

/-- The jar leaves out the variant. -/
theorem classesIn_libFiles :
    classesIn inDirectory libFiles =
        [⟨"A", bareClass "A" 49⟩, ⟨"A", bareClass "A" 50⟩, ⟨"C", bareClass "C" 49⟩] ∧
      classesIn inJar libFiles = [⟨"A", bareClass "A" 49⟩, ⟨"A", bareClass "A" 50⟩] := by
  decide

/-- The directory lists the files in ascending order. -/
theorem readDirectory_libTree :
    libTree.readDirectory "lib" = .ok (libFiles.map fun file => (file.1, some file.2)) := by
  have reached : Branch.reachAll (FileTree.room "lib") [("A.class", .file (bareClass "A" 49)),
      ("B.class", .file (bareClass "A" 50)), ("META-INF", .directory [("versions",
        .directory [("9", .directory [("C.class", .file (bareClass "C" 49))])])])] =
      libFiles.map fun file => (file.1, some file.2) := by decide +kernel
  have listed : libTree.listFiles "lib" =
      .ok ((libFiles.map fun file => (file.1, some file.2)).mergeSort fun a b => !(b.1 < a.1)) := by
    rw [← reached]
    rfl
  have ascending : (libFiles.map fun file => (file.1, some file.2)).mergeSort
      (fun a b => !(b.1 < a.1)) = libFiles.map fun file => (file.1, some file.2) :=
    List.mergeSort_of_pairwise (by decide)
  rw [FileTree.readDirectory, listed, ascending]

/-- The jar holds them in the same order. -/
theorem jarEntries_libTree : jarEntries libTree "lib.jar" = .ok (stored libFiles) := by
  decide +kernel

/-- The index that some classes on the class path make up on their own. -/
theorem exists_index_of_classpath (classes : List ClasspathClass) :
    ∃ index, ClassIndex.ofInputs ⟨.directory, [], classes⟩ = .ok index ∧
      ∀ name, index.find? name = (named classes).lookup name :=
  ClassIndex.exists_index ⟨.directory, [], classes⟩ List.nodup_nil

/-- Of the two classes with one name both the directory and the jar have the first one, and
only the directory has the variant. -/
theorem directory_like_jar_libFiles : ∃ index other,
    libTree.root.IsProper ∧ Path.isJar "lib" = false ∧ Path.isJar "lib.jar" = true ∧
      (∀ file ∈ libFiles, ∃ stem, file.1.path = stem ++ classEnding) ∧
      libTree.readDirectory "lib" = .ok (libFiles.map fun file => (file.1, some file.2)) ∧
      jarEntries libTree "lib.jar" = .ok (stored libFiles) ∧
      entryClasses libTree "lib" = .ok
        [⟨"A", bareClass "A" 49⟩, ⟨"A", bareClass "A" 50⟩, ⟨"C", bareClass "C" 49⟩] ∧
      entryClasses libTree "lib.jar" = .ok
        [⟨"A", bareClass "A" 49⟩, ⟨"A", bareClass "A" 50⟩] ∧
      ClassIndex.ofInputs ⟨.directory, [], classesIn inDirectory libFiles⟩ = .ok index ∧
      ClassIndex.ofInputs ⟨.directory, [], classesIn inJar libFiles⟩ = .ok other ∧
      index.find? "A" = some (bareClass "A" 49) ∧ index.find? "A" = other.find? "A" := by
  have notJar : Path.isJar "lib" = false := by decide
  have isJar : Path.isJar "lib.jar" = true := by decide
  obtain ⟨ofDirectory, ofJar, -, -, -, alike⟩ := directory_like_jar libTree isProper_libTree
    libFiles "lib" "lib.jar" notJar isJar endings_libFiles readDirectory_libTree
    jarEntries_libTree
  obtain ⟨taken, takenToo⟩ := classesIn_libFiles
  obtain ⟨index, indexed, answers⟩ := exists_index_of_classpath (classesIn inDirectory libFiles)
  obtain ⟨other, otherIndexed, -⟩ := exists_index_of_classpath (classesIn inJar libFiles)
  have alike := alike .directory [] [] [] index other (by rw [List.append_nil]; exact indexed)
    (by rw [List.append_nil]; exact otherIndexed)
  refine ⟨index, other, isProper_libTree, notJar, isJar, endings_libFiles, readDirectory_libTree,
    jarEntries_libTree, taken ▸ ofDirectory, takenToo ▸ ofJar, indexed, otherIndexed, ?_,
    alike "A" ?_⟩
  · rw [answers, taken]
    rfl
  · -- The variant declares another name, so it need not be ordinary.
    have declared : ClassFile.peekName (bareClass "C" 49) ≠ .ok "A" := by decide
    rw [libFiles, List.forall_mem_cons, List.forall_mem_cons, List.forall_mem_singleton]
    exact ⟨fun _ => ⟨by decide, by decide, by decide⟩, fun _ => ⟨by decide, by decide, by decide⟩,
      fun same => (declared same).elim⟩

/-- The variant is found in the directory, but not in the jar. -/
theorem directory_unlike_jar_variant : ∃ index other,
    libTree.readDirectory "lib" = .ok (libFiles.map fun file => (file.1, some file.2)) ∧
      jarEntries libTree "lib.jar" = .ok (stored libFiles) ∧
      (inputs libTree "in" ["lib"] >>= ClassIndex.ofInputs) = .ok index ∧
      (inputs libTree "in" ["lib.jar"] >>= ClassIndex.ofInputs) = .ok other ∧
      index.find? "C" = some (bareClass "C" 49) ∧ other.find? "C" = none := by
  have classFiles := isClassFile_of_listed libTree isProper_libTree libFiles "lib" endings_libFiles
    readDirectory_libTree
  have scanned : input libTree "in" = .ok (.directory, []) := by decide +kernel
  have ofDirectory := inputs_singleton libTree "in" "lib" .directory [] _ scanned (by decide)
    (by decide) (by decide) (fun isJar => absurd isJar (by decide))
    (entryClasses_directory classFiles readDirectory_libTree)
  have ofJar := inputs_singleton libTree "in" "lib.jar" .directory [] _ scanned (by decide)
    (by decide) (by decide)
    (fun _ => manifestClassPath_eq_nil classFiles jarEntries_libTree)
    (entryClasses_jar (by decide) jarEntries_libTree)
  obtain ⟨index, indexed, answers⟩ := exists_index_of_classpath (classesIn inDirectory libFiles)
  obtain ⟨other, otherIndexed, otherAnswers⟩ :=
    exists_index_of_classpath (classesIn inJar libFiles)
  refine ⟨index, other, readDirectory_libTree, jarEntries_libTree, ?_, ?_, ?_, ?_⟩
  · rw [ofDirectory]
    exact indexed
  · rw [ofJar]
    exact otherIndexed
  · rw [answers, classesIn_libFiles.1]
    rfl
  · rw [otherAnswers, classesIn_libFiles.2]
    rfl

end

end Scan

end NullGuard
