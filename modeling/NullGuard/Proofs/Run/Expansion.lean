import NullGuard.Files.Archive.Written
import NullGuard.Proofs.Files.Extension
import NullGuard.Proofs.Run.ClassPath
import NullGuard.Proofs.Run.Search

/-!
# Following the manifests of jars

Jars may name each other and themselves: each path is followed once. But this is about the
texts of paths. Different texts can lead to the same file, and then the file is met more
than once. A jar that names itself by way of the directory around its own gives itself a
longer path each time (`selfPath`), until a path is too long for anything to be found there
(`expand_selfReference`).
-/

namespace NullGuard

namespace Scan

/-! ### Manifests -/

/-- Whether the manifest of a jar can be read does not depend on the path to it. -/
theorem manifestText_path {path : String} (other : String)
    {entries : List (Except ArchiveFault OpenedEntry)} {found : Option String}
    (read : manifestText path entries = .ok found) :
    manifestText other entries = .ok found := by
  induction entries with
  | nil => exact read
  | cons entry rest inductionHypothesis =>
    unfold manifestText at read ⊢
    obtain ⟨opened, known, ran⟩ := (Outcome.bind_eq_ok ..).1 read
    rw [Outcome.during_eq_ok] at known
    refine (Outcome.bind_eq_ok ..).2 ⟨opened, (Outcome.during_eq_ok ..).2 known, ?_⟩
    split at ran
    next different =>
      rw [if_pos different]
      exact inductionHypothesis ran
    next same =>
      rw [if_neg same]
      exact ran

/-- Paths that lead to one jar name what its manifest lists, each from where it stands. -/
theorem manifestClassPath_of_read [ArchiveLibrary] {tree : FileTree} {bytes : List UInt8}
    {entries : List (Except ArchiveFault OpenedEntry)} {path text : String}
    (isArchive : Archive.settle (ArchiveLibrary.read bytes) = .ok entries)
    (listed : manifestText path entries = .ok (some text)) (other : String)
    (there : tree.read other = .ok bytes) :
    manifestClassPath tree other = .ok (Manifest.classPath other text) := by
  have opened : tree.readJar other = .ok entries := by
    rw [FileTree.readJar, there]
    exact (Outcome.during_eq_ok ..).2 isArchive
  refine (Outcome.bind_eq_ok ..).2 ⟨entries, opened, (Outcome.bind_eq_ok ..).2 ⟨some text, ?_, rfl⟩⟩
  exact manifestText_path other listed

/-! ### The search -/

/-- Following the manifests of jars comes to an end, whatever they name. It succeeds if
there is something at every path that can be reached and the manifests can be read;
otherwise it fails with one of the reasons that there are. If it succeeds, all paths that
can be reached are there, each one once and the nearer ones first, with the given ones in
ascending order in front. As long as different paths lead to different files, this goes for
files, too. -/
theorem expand_breadth_first [ArchiveLibrary] (tree : FileTree) (given : List String) :
    ((∃ result, expand tree given = .ok result) ↔ ∀ path, Reached tree given path →
      tree.pathExists path = true ∧
        (Path.isJar path = true → ∃ found, manifestClassPath tree path = .ok found)) ∧
    (∀ failure, expand tree given = .error failure → ∃ path, Reached tree given path ∧
      ((tree.pathExists path = false ∧ failure = .of (.classpathNotFound path)) ∨
        (tree.pathExists path = true ∧ Path.isJar path = true ∧
          manifestClassPath tree path = .error failure))) ∧
    ∀ result, expand tree given = .ok result → BreadthFirst tree given result ∧
      (Unambiguous tree given → ∀ path, Reached tree given path →
        result.countP (tree.leadToSame path) = 1) := by
  obtain ⟨result, ran, follows, each⟩ | ⟨failure, path, ran, reached, failed⟩ :=
    expand_cases tree given
  · have breadthFirst := BreadthFirst.of_follows follows fun path member => (each path member).1
    refine ⟨⟨fun _ path reached => ?_, fun _ => ⟨result, ran⟩⟩, ?_, ?_⟩
    · exact exists_visit_iff.1 (each path ((breadthFirst.mem_iff path).2 reached)).2
    · intro failure impossible
      rw [ran] at impossible
      cases impossible
    · intro other same
      obtain rfl := Except.ok.inj (ran.symm.trans same)
      refine ⟨breadthFirst, fun unambiguous path reached => ?_⟩
      refine breadthFirst.countP_leadToSame (fun path member => ?_) unambiguous reached
      exact (exists_visit_iff.1 (each path member).2).1
  · refine ⟨⟨?_, fun fine => ?_⟩, ?_, ?_⟩
    · rintro ⟨result, impossible⟩
      rw [ran] at impossible
      cases impossible
    · obtain ⟨behind, opened⟩ := exists_visit_iff.2 (fine path reached)
      rw [failed] at opened
      cases opened
    · intro other same
      obtain rfl := Except.error.inj (ran.symm.trans same)
      exact ⟨path, reached, (visit_eq_error tree).1 failed⟩
    · intro result impossible
      rw [ran] at impossible
      cases impossible

/-! ### Jars that say something -/

section

attribute [local instance] Archive.uncompressed

/-- A jar whose manifest says this. -/
def jarSaying (text : String) : List UInt8 :=
  Archive.written [⟨Manifest.entryName, text.toUTF8.toList⟩]

/-- What a jar says can be read. -/
def Legible (text : String) : Prop :=
  (Archive.settle (ArchiveLibrary.read (jarSaying text)) >>= manifestText "") = .ok (some text)

/-- A jar brings with it what its manifest lists. -/
theorem visit_of_legible {tree : FileTree} {path text : String} {location : List String}
    (legible : Legible text) (isJar : Path.isJar path = true)
    (there : tree.stat path = .ok (location, .file (jarSaying text))) :
    visit tree path = .ok (Manifest.classPath path text) := by
  obtain ⟨entries, isArchive, listed⟩ := (Outcome.bind_eq_ok ..).1 legible
  have read : tree.read path = .ok (jarSaying text) := by
    rw [FileTree.read, there]
    rfl
  refine (visit_eq_ok ..).2 ⟨by rw [FileTree.pathExists, there]; rfl, ?_⟩
  rw [isJar, if_pos rfl]
  exact manifestClassPath_of_read isArchive listed path read

/-! ### Two jars that name each other -/

/-- Two jars in one directory. -/
def pairTree (bytes : List UInt8) : FileTree :=
  ⟨[("lib", .directory [("a.jar", .file bytes), ("b.jar", .file bytes)])], []⟩

/-- A manifest that names both of them. -/
def bothText : String := "Class-Path: a.jar b.jar\n"

/-- A tree with two jars, each of which names both. -/
def cyclicTree : FileTree := pairTree (jarSaying bothText)

/-- The manifest of both can be read. -/
theorem legible_bothText : Legible bothText := by
  rw [Legible]
  decide +kernel

/-- Each of the two jars leads to both of them. -/
theorem visit_cyclicTree :
    visit cyclicTree "lib/a.jar" = .ok ["lib/a.jar", "lib/b.jar"] ∧
      visit cyclicTree "lib/b.jar" = .ok ["lib/a.jar", "lib/b.jar"] := by
  have named : Manifest.classPath "lib/a.jar" bothText = ["lib/a.jar", "lib/b.jar"] ∧
      Manifest.classPath "lib/b.jar" bothText = ["lib/a.jar", "lib/b.jar"] := by decide +kernel
  constructor
  · exact named.1 ▸ visit_of_legible legible_bothText (by decide) rfl
  · exact named.2 ▸ visit_of_legible legible_bothText (by decide) rfl

/-- From one of the jars both are found, each once. -/
theorem expand_cyclicTree :
    expand cyclicTree ["lib/a.jar"] = .ok ["lib/a.jar", "lib/b.jar"] := by
  obtain ⟨bound, count⟩ : ∃ bound, pathCount = bound + 3 := by
    refine Nat.exists_eq_add_of_le' ?_
    unfold pathCount
    generalize FileTree.maxPath = size
    calc 3 ≤ 256 ^ 1 := by decide
      _ ≤ 256 ^ (size + 1) := Nat.pow_le_pow_right (by decide) (Nat.le_add_left 1 size)
  have both : sorted ["lib/a.jar", "lib/b.jar"] = ["lib/a.jar", "lib/b.jar"] :=
    List.mergeSort_of_pairwise (by decide)
  have alone : sorted ["lib/a.jar"] = ["lib/a.jar"] := List.mergeSort_singleton ..
  obtain ⟨visitA, visitB⟩ := visit_cyclicTree
  rw [expand, count, alone, expandFrom_succ]
  show (visit cyclicTree "lib/a.jar" >>= _) = _
  rw [visitA]
  show expandFrom cyclicTree (bound + 2) ["lib/a.jar"] (sorted ["lib/a.jar", "lib/b.jar"]) = _
  rw [both, expandFrom_succ]
  show (visit cyclicTree "lib/b.jar" >>= _) = _
  rw [visitB]
  show expandFrom cyclicTree (bound + 1) ["lib/b.jar", "lib/a.jar"]
    (sorted ["lib/a.jar", "lib/b.jar"]) = _
  rw [both, expandFrom_succ]
  rfl

/-- Each of the two jars is met once. -/
theorem expand_breadth_first_cyclicTree :
    expand cyclicTree ["lib/a.jar"] = .ok ["lib/a.jar", "lib/b.jar"] ∧
      Unambiguous cyclicTree ["lib/a.jar"] ∧ Reached cyclicTree ["lib/a.jar"] "lib/b.jar" ∧
      ["lib/a.jar", "lib/b.jar"].countP (cyclicTree.leadToSame "lib/b.jar") = 1 := by
  obtain ⟨-, -, succeeded⟩ := expand_breadth_first cyclicTree ["lib/a.jar"]
  obtain ⟨breadthFirst, once⟩ := succeeded _ expand_cyclicTree
  have apart : ∀ path ∈ ["lib/a.jar", "lib/b.jar"], ∀ other ∈ ["lib/a.jar", "lib/b.jar"],
      cyclicTree.leadToSame path other = true → path = other := by decide
  have unambiguous : Unambiguous cyclicTree ["lib/a.jar"] := fun path other reached reachedToo =>
    apart path ((breadthFirst.mem_iff path).2 reached) other
      ((breadthFirst.mem_iff other).2 reachedToo)
  have reached : Reached cyclicTree ["lib/a.jar"] "lib/b.jar" :=
    (breadthFirst.mem_iff "lib/b.jar").1 (by decide)
  exact ⟨expand_cyclicTree, unambiguous, reached, once unambiguous _ reached⟩

/-! ### A jar that names itself -/

/-- The directory of a jar, by way of so many references from the jar to itself. -/
def climbed : Nat → String
  | 0 => "lib"
  | steps + 1 => climbed steps ++ "/" ++ "../lib"

/-- The jar by way of so many references to itself. -/
def selfPath (steps : Nat) : String := climbed steps ++ "/" ++ "a.jar"

/-- However often the way is gone round, some path is left. -/
theorem climbed_ne_empty (steps : Nat) : climbed steps ≠ "" := by
  cases steps with
  | zero => decide
  | succ steps => simp [climbed]

/-- The way round leads from where the run takes place. -/
theorem isAbsolute_climbed (steps : Nat) : Path.isAbsolute (climbed steps) = false := by
  induction steps with
  | zero => decide
  | succ steps inductionHypothesis =>
    rw [climbed, String.append_assoc, Path.isAbsolute_append _ _ (climbed_ne_empty steps),
      inductionHypothesis]

/-- The jar by way of itself is looked for from where the run takes place. -/
theorem isAbsolute_selfPath (steps : Nat) : Path.isAbsolute (selfPath steps) = false := by
  rw [selfPath, String.append_assoc, Path.isAbsolute_append _ _ (climbed_ne_empty steps),
    isAbsolute_climbed]

/-- Going round once more adds two pieces. -/
theorem pieces_climbed_succ (steps : Nat) :
    Path.pieces (climbed (steps + 1)) = Path.pieces (climbed steps) ++ ["..", "lib"] := by
  have last : Path.pieces "../lib" = ["..", "lib"] := by decide
  rw [climbed, Path.pieces_slash, last]

/-- The jar stands at the end of the way round. -/
theorem pieces_selfPath (steps : Nat) :
    Path.pieces (selfPath steps) = Path.pieces (climbed steps) ++ ["a.jar"] := by
  have single : Path.pieces "a.jar" = ["a.jar"] := by decide
  rw [selfPath, Path.pieces_slash, single]

/-- The name of the jar is one. -/
theorem isName_jar : Path.IsName "a.jar" := ⟨by decide, by decide, by decide⟩

/-- By way of itself the jar is still named like a jar. -/
theorem isJar_selfPath (steps : Nat) : Path.isJar (selfPath steps) = true := by
  rw [Path.isJar, Path.hasExtension, Path.extension?,
    Path.fileName?_of_pieces _ _ _ (pieces_selfPath steps) isName_jar]
  decide

/-- From the directory that a path names the reference leads there again. -/
theorem join_parent_selfPath (steps : Nat) :
    Path.join ((Path.parent? (selfPath steps)).getD "") "../lib/a.jar" = selfPath (steps + 1) := by
  obtain ⟨front, split⟩ : ∃ front, Path.pieces (climbed steps) = front ++ ["lib"] := by
    cases steps with
    | zero => exact ⟨[], by decide⟩
    | succ steps => exact ⟨Path.pieces (climbed steps) ++ [".."], by simp [pieces_climbed_succ]⟩
  have around := Path.parent?_slash (climbed steps) "a.jar" (isAbsolute_climbed steps)
    (climbed_ne_empty steps) isName_jar split (by decide)
  have notClosed : (climbed steps).endsWith '/' = false := by
    rw [← Bool.not_eq_true]
    intro closed
    obtain ⟨text, same⟩ := String.endsWith_char_iff_exists_append.1 closed
    have ends : (climbed steps).toList.getLast? = some 'b' := by
      cases steps with
      | zero => decide
      | succ steps => simp [climbed]
    rw [same] at ends
    simp at ends
  have relative : Path.isAbsolute "../lib/a.jar" = false := by decide
  have text : "../lib/a.jar" = "../lib" ++ "/" ++ "a.jar" := by decide
  rw [selfPath, around, Option.getD_some, Path.join, relative, Bool.false_or,
    if_neg (by simpa using climbed_ne_empty steps), notClosed, if_neg Bool.false_ne_true,
    text, selfPath, climbed]
  simp only [String.append_assoc]

/-- Each time round adds seven bytes. -/
theorem size_selfPath (steps : Nat) : (selfPath steps).utf8ByteSize = 9 + 7 * steps := by
  have whole : (climbed steps).utf8ByteSize = 3 + 7 * steps := by
    induction steps with
    | zero => decide
    | succ steps inductionHypothesis =>
      have added : "/".utf8ByteSize + "../lib".utf8ByteSize = 7 := by decide
      rw [climbed, String.utf8ByteSize_append, String.utf8ByteSize_append, inductionHypothesis]
      omega
  have added : "/".utf8ByteSize + "a.jar".utf8ByteSize = 6 := by decide
  rw [selfPath, String.utf8ByteSize_append, String.utf8ByteSize_append, whole]
  omega

/-- No path round holds a zero. -/
theorem plain_selfPath (steps : Nat) : (selfPath steps).toList.any (·.toNat == 0) = false := by
  have whole : (climbed steps).toList.any (·.toNat == 0) = false := by
    induction steps with
    | zero => decide
    | succ steps inductionHypothesis =>
      rw [climbed, String.toList_append, String.toList_append, List.any_append, List.any_append,
        inductionHypothesis]
      decide
  rw [selfPath, String.toList_append, String.toList_append, List.any_append, List.any_append,
    whole]
  decide

/-- All these paths lead to the jar. -/
theorem destination_selfPath (steps : Nat) :
    Path.destination [] (selfPath steps) = ["lib", "a.jar"] := by
  have inside : Path.follow [] (Path.pieces (climbed steps)) = ["lib"] := by
    induction steps with
    | zero => decide
    | succ steps inductionHypothesis =>
      rw [pieces_climbed_succ, Path.follow_append, inductionHypothesis]
      decide
  rw [Path.destination, isAbsolute_selfPath, if_neg Bool.false_ne_true, pieces_selfPath,
    Path.follow_append, inside]
  decide

/-- A jar in a directory. -/
def jarTree (bytes : List UInt8) : FileTree :=
  ⟨[("lib", .directory [("a.jar", .file bytes)])], []⟩

/-- The jar is found, as long as the path is short enough. -/
theorem stat_selfPath (bytes : List UInt8) (steps : Nat)
    (short : (selfPath steps).utf8ByteSize ≤ FileTree.maxPath) :
    (jarTree bytes).stat (selfPath steps) = .ok (["lib", "a.jar"], .file bytes) := by
  have inside : (Path.pieces (climbed steps)).foldlM Spot.step ((jarTree bytes).spot []) =
      .ok ((jarTree bytes).spot ["lib"]) := by
    clear short
    induction steps with
    | zero =>
      have single : Path.pieces (climbed 0) = ["lib"] := by decide
      rw [single]
      rfl
    | succ steps inductionHypothesis =>
      rw [pieces_climbed_succ, List.foldlM_append, inductionHypothesis]
      rfl
  have any : ¬ (selfPath steps).isEmpty = true := by simp [selfPath]
  have route : (jarTree bytes).route (selfPath steps) =
      .ok ([], Path.pieces (climbed steps) ++ ["a.jar"]) := by
    rw [FileTree.route, plain_selfPath, if_neg Bool.false_ne_true, if_neg any,
      if_neg (Nat.not_lt.2 short), isAbsolute_selfPath, if_neg Bool.false_ne_true,
      pieces_selfPath]
    rfl
  have located : (jarTree bytes).locate (selfPath steps) =
      .ok ((jarTree bytes).spot ["lib", "a.jar"]) := by
    rw [FileTree.locate, route]
    show (Path.pieces (climbed steps) ++ ["a.jar"]).foldlM Spot.step ((jarTree bytes).spot []) = _
    rw [List.foldlM_append, inside]
    rfl
  rw [FileTree.stat, located]
  rfl

/-- A manifest that names its own jar. -/
def selfText : String := "Class-Path: ../lib/a.jar\n"

/-- A tree with a jar that names itself. -/
def selfTree : FileTree := jarTree (jarSaying selfText)

/-- The manifest of the jar can be read. -/
theorem legible_selfText : Legible selfText := by
  rw [Legible]
  decide +kernel

/-- From wherever the jar is, its manifest names it again. -/
theorem classPath_selfText (jar : String) : Manifest.classPath jar selfText =
    [Path.join ((Path.parent? jar).getD "") "../lib/a.jar"] := by
  have listed : ((Manifest.headers selfText.toList).find? fun header =>
      header.name == Manifest.classPathName).map (fun header => Manifest.words header.value) =
        some ["../lib/a.jar".toList] := by decide
  obtain ⟨header, found, words⟩ := Option.map_eq_some_iff.1 listed
  rw [Manifest.classPath, found]
  dsimp only
  rw [words]
  simp

/-- Each of these paths brings the next one with it. -/
theorem visit_selfPath (steps : Nat) (short : (selfPath steps).utf8ByteSize ≤ FileTree.maxPath) :
    visit selfTree (selfPath steps) = .ok [selfPath (steps + 1)] := by
  have there := stat_selfPath (jarSaying selfText) steps short
  rw [selfTree, visit_of_legible legible_selfText (isJar_selfPath steps) there,
    classPath_selfText, join_parent_selfPath]

/-- The jar refers to itself by a longer path, until the path is too long for anything to be
there. -/
theorem references_selfPath (steps : Nat) :
    references selfTree (selfPath steps) =
      if (selfPath steps).utf8ByteSize ≤ FileTree.maxPath then [selfPath (steps + 1)] else [] := by
  split
  next short =>
    rw [references, visit_selfPath steps short]
    exact List.mergeSort_singleton ..
  next long =>
    have missing : selfTree.pathExists (selfPath steps) = false := by
      rw [← Bool.not_eq_true]
      exact fun found => long (size_of_pathExists found)
    rw [references, (visit_eq_error ..).2 (.inl ⟨missing, rfl⟩)]
    exact List.mergeSort_nil ..

/-- A path that can be reached is one of these. -/
theorem exists_of_reached_selfTree {path : String} (reached : Reached selfTree [selfPath 0] path) :
    ∃ steps, path = selfPath steps := by
  obtain ⟨count, within⟩ := reached
  induction count generalizing path with
  | zero => exact ⟨0, List.mem_singleton.1 within⟩
  | succ count inductionHypothesis =>
    obtain start | ⟨jar, nearer, there⟩ := within
    · exact ⟨0, List.mem_singleton.1 start⟩
    · obtain ⟨steps, rfl⟩ := inductionHypothesis nearer
      rw [references_selfPath] at there
      split at there
      · exact ⟨steps + 1, List.mem_singleton.1 there⟩
      · cases there

/-- All of these can be reached up to the first one that is too long. -/
theorem within_selfPath (steps : Nat) (few : steps ≤ 584) :
    Within selfTree [selfPath 0] steps (selfPath steps) := by
  induction steps with
  | zero => exact List.mem_singleton_self _
  | succ steps inductionHypothesis =>
    have short : (selfPath steps).utf8ByteSize ≤ FileTree.maxPath := by
      rw [size_selfPath, FileTree.maxPath]
      omega
    refine .inr ⟨selfPath steps, inductionHypothesis (Nat.le_of_succ_le few), ?_⟩
    rw [references_selfPath, if_pos short]
    exact List.mem_singleton_self _

/-- The manifest of a jar names the jar itself by a path that leads out of its directory and
back. Every path that can be reached leads to this one file, but each of them is new, until
one is too long for anything to be found there. -/
theorem expand_selfReference : ∃ path,
    expand selfTree ["lib/a.jar"] = .error (.of (.classpathNotFound path)) ∧
      selfTree.node? (selfTree.destination path) = some (.file (jarSaying selfText)) ∧
      ∀ other, Reached selfTree ["lib/a.jar"] other →
        selfTree.destination other = selfTree.destination "lib/a.jar" := by
  have start : "lib/a.jar" = selfPath 0 := by decide
  have leads (steps : Nat) : selfTree.destination (selfPath steps) = ["lib", "a.jar"] :=
    destination_selfPath steps
  rw [start, leads]
  have all (other : String) (reached : Reached selfTree [selfPath 0] other) :
      selfTree.destination other = ["lib", "a.jar"] := by
    obtain ⟨steps, rfl⟩ := exists_of_reached_selfTree reached
    exact leads steps
  obtain ⟨result, ran, follows, each⟩ | ⟨failure, path, ran, reached, failed⟩ :=
    expand_cases selfTree [selfPath 0]
  · have breadthFirst := BreadthFirst.of_follows follows fun path member => (each path member).1
    have last := (breadthFirst.mem_iff _).2 ⟨584, within_selfPath 584 (Nat.le_refl _)⟩
    obtain ⟨found, -⟩ := exists_visit_iff.1 (each _ last).2
    have short := size_of_pathExists found
    rw [size_selfPath, FileTree.maxPath] at short
    omega
  · refine ⟨path, ?_, ?_, all⟩
    · obtain ⟨steps, rfl⟩ := exists_of_reached_selfTree reached
      obtain ⟨-, rfl⟩ | ⟨found, -⟩ := (visit_eq_error ..).1 failed
      · exact ran
      · rw [visit_selfPath steps (size_of_pathExists found)] at failed
        cases failed
    · rw [all path reached]
      rfl

end

end Scan

end NullGuard
