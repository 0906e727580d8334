import NullGuard.Files.Archive.Written
import Mathlib.Data.List.Sort
import NullGuard.Proofs.Run.ClassIndex
import NullGuard.Proofs.Run.Search

/-!
# Which class counts

A name stands for the class of the input that has it, and otherwise for the first class of
the class path that has it. Names that several classes of the input share are refused, all
of them at once. The order of the class path is not that of the paths that were given: they
are sorted, and a search passes over what it has met already. So a scan depends on nothing
but which paths were given (`Scan.inputs_congr`).
-/

namespace NullGuard

/-- Of several items with one key the first one is found. -/
theorem lookup_map {α β : Type} (key : α → String) (value : α → β) (items : List α)
    (name : String) :
    (items.map fun item => (key item, value item)).lookup name =
      (items.find? fun item => key item == name).map value := by
  induction items with
  | nil => rfl
  | cons item others inductionHypothesis =>
    by_cases same : name = key item
    · simp [same]
    · simpa [List.lookup_cons, beq_eq_false_iff_ne.2 same, Ne.symm same] using
        inductionHypothesis

/-! ## Names of the input -/

namespace Inputs

variable (inputs : Inputs) (name : String)

/-- The entries that hold classes of a name. -/
def entriesOf : List InputEntry := inputs.entries.filter fun entry => entry.className = some name

/-- Two entries of the input hold classes of this name. -/
def Shares : Prop :=
  ∃ first second, [first, second].Sublist inputs.entries ∧
    first.className = some name ∧ second.className = some name

variable {inputs name}

/-- The entries of a name are those that hold a class of that name. -/
theorem mem_entriesOf {entry : InputEntry} :
    entry ∈ inputs.entriesOf name ↔ entry ∈ inputs.entries ∧ entry.className = some name := by
  simp [entriesOf]

/-- Two entries share a name if there is more than one of that name. -/
theorem shares_iff : inputs.Shares name ↔ 1 < (inputs.entriesOf name).length := by
  constructor
  · rintro ⟨first, second, both, firstNamed, secondNamed⟩
    have kept := both.filter fun entry => entry.className = some name
    have stay : [first, second].filter (fun entry => entry.className = some name) =
        [first, second] := by simp [firstNamed, secondNamed]
    rw [stay] at kept
    exact kept.length_le
  · intro several
    have part : (inputs.entriesOf name).Sublist inputs.entries := List.filter_sublist
    have named : ∀ entry ∈ inputs.entriesOf name, entry.className = some name :=
      fun entry member => (mem_entriesOf.1 member).2
    cases held : inputs.entriesOf name with
    | nil => simp [held] at several
    | cons first rest =>
      cases rest with
      | nil => simp [held] at several
      | cons second more =>
        rw [held] at part named
        have both : [first, second].Sublist (first :: second :: more) := by simp
        exact ⟨first, second, both.trans part, named first (by simp), named second (by simp)⟩

/-- A name that is not shared stands for one class at most. -/
theorem head?_entriesOf (alone : ¬ inputs.Shares name) {entry : InputEntry}
    (member : entry ∈ inputs.entriesOf name) : (inputs.entriesOf name).head? = some entry := by
  rw [shares_iff] at alone
  cases held : inputs.entriesOf name with
  | nil => simp [held] at member
  | cons first rest =>
    have last : rest = [] := by simpa [held] using alone
    simpa [held, last, eq_comm] using member

/-- The classes of a name are the entries that hold them. -/
theorem filter_classes (inputs : Inputs) (name : String) :
    (inputs.classes.filter fun item => item.1 == name) =
      (inputs.entriesOf name).map fun entry => (name, entry) := by
  rw [classes, entriesOf]
  induction inputs.entries with
  | nil => rfl
  | cons entry others inductionHypothesis =>
    cases held : entry.className with
    | none => simpa [held] using inductionHypothesis
    | some other =>
      by_cases same : other = name
      · simpa [held, same] using inductionHypothesis
      · simpa [held, same] using inductionHypothesis

/-- A class is looked up in the first entry of its name. -/
theorem lookup_classes_eq (inputs : Inputs) (name : String) :
    (inputs.classes.map fun item => (item.1, item.2.bytes)).lookup name =
      (inputs.entriesOf name).head?.map InputEntry.bytes := by
  rw [lookup_map, ← List.head?_filter, filter_classes, List.head?_map, Option.map_map]
  rfl

end Inputs

/-! ## Shared names -/

namespace ClassIndex

/-- Nothing is left twice after what stands there again has been left out. -/
theorem nodup_eraseDups (names : List String) : names.eraseDups.Nodup := by
  induction size : names.length using Nat.strongRecOn generalizing names with
  | ind size inductionHypothesis =>
    cases names with
    | nil => simp
    | cons first rest =>
      rw [List.eraseDups_cons, List.nodup_cons]
      constructor
      · simp [List.mem_eraseDups]
      · refine inductionHypothesis _ ?_ _ rfl
        rw [← size, List.length_cons, Nat.lt_succ_iff]
        exact List.length_filter_le ..

variable {inputs : Inputs}

/-- What is refused: the shared names with all their paths. -/
theorem mem_duplicates {name : String} {paths : List String} :
    (name, paths) ∈ duplicates inputs ↔
      inputs.Shares name ∧ paths = (inputs.entriesOf name).map InputEntry.path := by
  have known (several : 1 < (inputs.entriesOf name).length) :
      ∃ item ∈ inputs.classes, item.1 = name := by
    obtain ⟨entry, member⟩ := List.exists_mem_of_length_pos (Nat.zero_lt_of_lt several)
    exact ⟨(name, entry), (inputs.mem_classes ..).2 (Inputs.mem_entriesOf.1 member), rfl⟩
  simp only [duplicates, Inputs.filter_classes, List.map_map, List.mem_filter, List.mem_map,
    List.mem_mergeSort, List.mem_eraseDups, Inputs.shares_iff, decide_eq_true_iff]
  constructor
  · rintro ⟨⟨other, -, same⟩, several⟩
    obtain ⟨rfl, rfl⟩ := Prod.mk.inj same
    exact ⟨by simpa using several, rfl⟩
  · rintro ⟨several, rfl⟩
    exact ⟨⟨name, known several, rfl⟩, by simpa using several⟩

/-- The names that are reported come in ascending order. -/
theorem pairwise_duplicates (inputs : Inputs) :
    ((duplicates inputs).map Prod.fst).Pairwise (· < ·) := by
  have names := Scan.pairwise_lt (Scan.pairwise_sorted (inputs.classes.map Prod.fst).eraseDups)
    ((List.mergeSort_perm ..).nodup_iff.2 (nodup_eraseDups _))
  rw [List.pairwise_map]
  refine List.Pairwise.filter _ ?_
  rwa [List.pairwise_map]

end ClassIndex

/-! ## Given paths -/

namespace Scan

variable {tree : FileTree}

/-- Behind two lists that bring the same paths others stand first in the same places. -/
theorem firsts_append_congr {known front other : List String}
    (same : firsts known front = firsts known other) (back : List String) :
    firsts known (front ++ back) = firsts known (other ++ back) := by
  rw [firsts_append, firsts_append, same]
  congr 1
  refine firsts_congr (fun path => ?_) back
  have either (paths : List String) :
      path ∈ paths ++ known ↔ path ∈ firsts known paths ∨ path ∈ known := by
    rw [List.mem_append, mem_firsts]
    tauto
  rw [either, either, same]

/-- The first path that is new is met, and known from then on. -/
theorem firsts_of_met {known queue rest : List String} {path : String}
    (split : queue.dropWhile known.contains = path :: rest) :
    firsts known queue = path :: firsts (path :: known) rest := by
  simpa using (firsts_of_dropWhile split []).2.2.2

/-- A search depends on its queue through the paths that are still to be met. -/
theorem expandFrom_congr [ArchiveLibrary] (bound : Nat) (found queue other : List String)
    (same : firsts found queue = firsts found other) :
    expandFrom tree bound found queue = expandFrom tree bound found other := by
  induction bound generalizing found queue other with
  | zero => rfl
  | succ bound inductionHypothesis =>
    rw [expandFrom_succ, expandFrom_succ]
    cases first : queue.dropWhile found.contains with
    | nil =>
      rw [firsts_of_passed first] at same
      cases second : other.dropWhile found.contains with
      | nil => rfl
      | cons path rest =>
        rw [firsts_of_met second] at same
        cases same
    | cons path rest =>
      rw [firsts_of_met first] at same
      cases second : other.dropWhile found.contains with
      | nil =>
        rw [firsts_of_passed second] at same
        cases same
      | cons otherPath otherRest =>
        rw [firsts_of_met second] at same
        obtain ⟨rfl, behind⟩ := List.cons.inj same
        dsimp only
        congr 1
        funext named
        exact inductionHypothesis _ _ _ (firsts_append_congr behind (sorted named))

/-- What paths are given decides which are met, not how often or in which order they are. -/
theorem firsts_sorted_congr {given other : List String}
    (same : ∀ path, path ∈ given ↔ path ∈ other) :
    firsts [] (sorted given) = firsts [] (sorted other) := by
  refine (pairwise_firsts_sorted given).eq_of_mem_iff (pairwise_firsts_sorted other) fun path => ?_
  simp only [mem_firsts, sorted, List.mem_mergeSort, same]

/-- Expansion depends only on which paths are given. -/
theorem expand_congr [ArchiveLibrary] {given other : List String}
    (same : ∀ path, path ∈ given ↔ path ∈ other) :
    expand tree given = expand tree other :=
  expandFrom_congr _ _ _ _ (firsts_sorted_congr same)

/-- A scan depends on the paths of the class path, but not on their order, nor on how often
each of them was given. -/
theorem inputs_congr [ArchiveLibrary] (path : String) {given other : List String}
    (same : ∀ path, path ∈ given ↔ path ∈ other) :
    inputs tree path given = inputs tree path other := by
  have extended (named : List String) :
      expand tree (given ++ named) = expand tree (other ++ named) := by
    apply expand_congr
    simp [same]
  simp only [inputs, extended]

end Scan

/-! ## Answers -/

namespace ClassIndex

variable {inputs : Inputs}

/-- There is no index of an input that shares names. All of them are told, each with the
paths of its classes. -/
theorem ofInputs_eq_error (failure : Failure) :
    ofInputs inputs = .error failure ↔
      duplicates inputs ≠ [] ∧ failure = .of (.duplicateClasses (duplicates inputs)) := by
  rw [ofInputs]
  cases duplicates inputs with
  | nil => simp
  | cons first rest => simp [fail, throwThe, MonadExceptOf.throw, eq_comm]

/-- There is no index exactly if two entries of the input share a name. -/
theorem exists_error_iff :
    (∃ failure, ofInputs inputs = .error failure) ↔ ∃ name, inputs.Shares name := by
  simp only [ofInputs_eq_error, exists_and_left, exists_eq, and_true]
  constructor
  · intro shared
    obtain ⟨⟨name, paths⟩, member⟩ := List.exists_mem_of_ne_nil _ shared
    exact ⟨name, (mem_duplicates.1 member).1⟩
  · rintro ⟨name, shares⟩
    exact List.ne_nil_of_mem (mem_duplicates.2 ⟨shares, rfl⟩)

/-- There is an index of an input unless two of its classes share a name, and then all
shared names are told, each one with the paths of all its classes. An index answers for a
name with the class of the input, if there is one, and otherwise with the first class of the
class path that has it. What is on the class path, and in which order, or why it cannot be
read, depends only on which paths were given. -/
theorem precedence [ArchiveLibrary] :
    (∀ inputs : Inputs,
      ((∃ failure, ofInputs inputs = .error failure) ↔ ∃ name, inputs.Shares name) ∧
      (∀ failure, ofInputs inputs = .error failure → ∃ shared,
        failure = .of (.duplicateClasses shared) ∧
        failure.message = "duplicate classes found: " ++ String.intercalate ", "
          (shared.map fun item => item.1 ++ ": " ++ Text.quoteList item.2) ∧
        (shared.map Prod.fst).Pairwise (· < ·) ∧
        ∀ name paths, (name, paths) ∈ shared ↔
          inputs.Shares name ∧ paths = (inputs.entriesOf name).map InputEntry.path) ∧
      ∀ index, ofInputs inputs = .ok index → ∀ name,
        (∀ entry ∈ inputs.entries, entry.className = some name →
          index.lookup name = .ok (some entry.bytes)) ∧
        ((∀ entry ∈ inputs.entries, entry.className ≠ some name) →
          index.lookup name = .ok ((inputs.classpath.find? fun item => item.name = name).map
            ClasspathClass.bytes))) ∧
      ∀ (tree : FileTree) (path : String) (given other : List String),
        (∀ path, path ∈ given ↔ path ∈ other) →
        Scan.inputs tree path given = Scan.inputs tree path other := by
  refine ⟨fun inputs => ⟨?_, ?_, ?_⟩, fun tree path given other same =>
    Scan.inputs_congr path same⟩
  · exact exists_error_iff
  · intro failure failed
    obtain ⟨-, rfl⟩ := (ofInputs_eq_error failure).1 failed
    exact ⟨duplicates inputs, rfl, rfl, pairwise_duplicates inputs, fun _ _ => mem_duplicates⟩
  · intro index indexed name
    have alone : ¬ inputs.Shares name := by
      intro shares
      obtain ⟨failure, failed⟩ := exists_error_iff.2 ⟨name, shares⟩
      cases failed.symm.trans indexed
    rw [lookup, find?_of_ofInputs inputs index indexed, answer, Inputs.lookup_classes_eq,
      lookup_map]
    constructor
    · intro entry member named
      rw [Inputs.head?_entriesOf alone (Inputs.mem_entriesOf.2 ⟨member, named⟩)]
      rfl
    · intro foreign
      have none : inputs.entriesOf name = [] := by
        simpa [Inputs.entriesOf] using foreign
      rw [none]
      rfl

/-- A class of the input, one of the same name on the class path, and two others. -/
def hidingInputs : Inputs :=
  ⟨.directory, [⟨"r/A.class", some "r/A", [1]⟩], [⟨"r/A", [2]⟩, ⟨"r/B", [3]⟩, ⟨"r/B", [4]⟩]⟩

attribute [local instance] Archive.uncompressed in
/-- The input hides the class of its name, and the first of the two others hides the second.
Giving a path twice, or in another order, changes nothing. -/
theorem precedence_hidingInputs : ∃ index, ofInputs hidingInputs = .ok index ∧
    index.lookup "r/A" = .ok (some [1]) ∧ index.lookup "r/B" = .ok (some [3]) ∧
      index.lookup "r/C" = .ok none ∧
      ∀ tree path, Scan.inputs tree path ["b", "a", "b"] = Scan.inputs tree path ["a", "b"] := by
  obtain ⟨indices, scans⟩ := precedence
  obtain ⟨refused, -, answers⟩ := indices hidingInputs
  cases indexed : ofInputs hidingInputs with
  | error failure =>
    obtain ⟨name, first, second, both, -⟩ := refused.1 ⟨failure, indexed⟩
    exact absurd both.length_le (by simp [hidingInputs])
  | ok index =>
    have found := answers index indexed
    refine ⟨index, rfl, (found "r/A").1 _ List.mem_cons_self rfl, ?_, ?_, ?_⟩
    · exact (found "r/B").2 (by simp [hidingInputs])
    · exact (found "r/C").2 (by simp [hidingInputs])
    · exact fun tree path => scans tree path _ _ (by simp)

end ClassIndex

end NullGuard
