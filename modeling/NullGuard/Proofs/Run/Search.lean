import Mathlib.Data.List.Nodup
import Mathlib.Data.List.Perm.Subperm
import Mathlib.Data.Nat.Digits.Defs
import NullGuard.Proofs.Files.Tree
import NullGuard.Proofs.Outcome
import NullGuard.Run.Scan

/-!
# Searching the class path

A class path is searched breadth first. Each path that is met is visited once: there has to
be something, and if that is a jar, the paths that its manifest names are put at the end of
the queue. There are only so many texts that are short enough to be the path of something
(`length_lt_pathCount`), so the queue runs empty, whatever the manifests name.

What is met are the paths that can be reached from the given ones. Their order can be told
from the result alone: it holds the given paths and then what its members bring with them,
member by member, each path where it stands first (`BreadthFirst.follows`). Hence nearer
paths stand in front of those further away.
-/

namespace NullGuard

namespace Scan

/-! ## Texts that can be paths -/

/-- The bytes of a text as the digits of a number, with a digit behind them that is not
zero. -/
def number (text : String) : Nat :=
  Nat.ofDigits 256 (text.toByteArray.data.toList.map UInt8.toNat ++ [1])

/-- The digits of a text are digits. -/
theorem digits_small (bytes : List UInt8) :
    ∀ digit ∈ bytes.map UInt8.toNat ++ [1], digit < 256 := by
  intro digit member
  obtain inside | last := List.mem_append.1 member
  · obtain ⟨byte, -, rfl⟩ := List.mem_map.1 inside
    exact byte.toNat_lt
  · obtain rfl := List.mem_singleton.1 last
    decide

/-- A number has the digits of its text, since the last of them is not zero. -/
theorem digits_number (text : String) :
    Nat.digits 256 (number text) = text.toByteArray.data.toList.map UInt8.toNat ++ [1] :=
  Nat.digits_ofDigits 256 (by decide) _ (digits_small _) (by simp)

/-- Different texts have different numbers. -/
theorem number_injective : Function.Injective number := by
  intro text other same
  have digits := congrArg (Nat.digits 256) same
  rw [digits_number, digits_number] at digits
  have bytes := List.map_injective_iff.2 (fun _ _ => UInt8.toNat_inj.1)
    (List.append_cancel_right digits)
  exact String.toByteArray_inj.1 (ByteArray.ext (Array.toList_inj.1 bytes))

/-- No text has the number zero. -/
theorem number_ne_zero (text : String) : number text ≠ 0 := by
  intro zero
  have digits := digits_number text
  rw [zero, Nat.digits_zero] at digits
  simp at digits

/-- A short text has a small number. -/
theorem number_lt {text : String} {size : Nat} (short : text.utf8ByteSize ≤ size) :
    number text < 256 ^ (size + 1) := by
  have small := Nat.ofDigits_lt_base_pow_length (by decide)
    (digits_small text.toByteArray.data.toList)
  refine Nat.lt_of_lt_of_le small (Nat.pow_le_pow_right (by decide) ?_)
  rw [List.length_append, List.length_map, List.length_singleton]
  exact Nat.succ_le_succ short

/-- There are only so many short texts. -/
theorem length_lt_of_short {texts : List String} (size : Nat) (distinct : texts.Nodup)
    (short : ∀ text ∈ texts, text.utf8ByteSize ≤ size) : texts.length < 256 ^ (size + 1) := by
  have numbers : (0 :: texts.map number).Nodup := by
    refine List.nodup_cons.2 ⟨fun zero => ?_, distinct.map number_injective⟩
    obtain ⟨text, -, impossible⟩ := List.mem_map.1 zero
    exact number_ne_zero text impossible
  have below : 0 :: texts.map number ⊆ List.range (256 ^ (size + 1)) := by
    intro other member
    rw [List.mem_range]
    obtain rfl | inside := List.mem_cons.1 member
    · exact Nat.pow_pos (by decide)
    · obtain ⟨text, given, rfl⟩ := List.mem_map.1 inside
      exact number_lt (short text given)
  have length := (List.subperm_of_subset numbers below).length_le
  rw [List.length_cons, List.length_map, List.length_range] at length
  exact length

/-- The bound on what can be met is never reached. -/
theorem length_lt_pathCount {paths : List String} (distinct : paths.Nodup)
    (short : ∀ path ∈ paths, path.utf8ByteSize ≤ FileTree.maxPath) :
    paths.length < pathCount := by
  unfold pathCount
  generalize FileTree.maxPath = size at short ⊢
  exact length_lt_of_short size distinct short

/-- What stands somewhere has a short path. -/
theorem size_of_pathExists {tree : FileTree} {path : String} (found : tree.pathExists path = true) :
    path.utf8ByteSize ≤ FileTree.maxPath := by
  refine Nat.le_of_not_lt fun long => ?_
  obtain ⟨place, there⟩ := (tree.pathExists_iff path).1 found
  unfold FileTree.stat FileTree.locate FileTree.route at there
  rw [if_pos long] at there
  split at there
  · cases there
  · split at there
    · cases there
    · cases there

/-! ## Where a path stands first -/

/-- The members of a list that are not known yet, each where it stands first. -/
def firsts (known : List String) : List String → List String
  | [] => []
  | path :: rest => if path ∈ known then firsts known rest else path :: firsts (path :: known) rest

/-- The first occurrences are of the paths that are not known. -/
theorem mem_firsts {known paths : List String} {path : String} :
    path ∈ firsts known paths ↔ path ∈ paths ∧ path ∉ known := by
  induction paths generalizing known with
  | nil => simp [firsts]
  | cons first rest inductionHypothesis =>
    rw [firsts]
    split
    next old =>
      rw [inductionHypothesis, List.mem_cons]
      constructor
      · exact fun found => ⟨.inr found.1, found.2⟩
      · rintro ⟨rfl | inside, fresh⟩
        · exact (fresh old).elim
        · exact ⟨inside, fresh⟩
    next new =>
      rw [List.mem_cons, inductionHypothesis, List.mem_cons, List.mem_cons]
      by_cases same : path = first
      · simp [same, new]
      · simp [same]

/-- No path occurs first twice. -/
theorem nodup_firsts (known paths : List String) : (firsts known paths).Nodup := by
  induction paths generalizing known with
  | nil => exact List.nodup_nil
  | cons first rest inductionHypothesis =>
    rw [firsts]
    split
    · exact inductionHypothesis known
    · refine List.nodup_cons.2 ⟨fun again => ?_, inductionHypothesis (first :: known)⟩
      exact (mem_firsts.1 again).2 List.mem_cons_self

/-- First occurrences stand in the order of the paths. -/
theorem firsts_sublist (known paths : List String) : (firsts known paths).Sublist paths := by
  induction paths generalizing known with
  | nil => exact List.Sublist.refl _
  | cons first rest inductionHypothesis =>
    rw [firsts]
    split
    · exact (inductionHypothesis known).cons first
    · exact (inductionHypothesis (first :: known)).cons_cons first

/-- It only matters which paths are known. -/
theorem firsts_congr {known other : List String} (same : ∀ path, path ∈ known ↔ path ∈ other)
    (paths : List String) : firsts known paths = firsts other paths := by
  induction paths generalizing known other with
  | nil => rfl
  | cons first rest inductionHypothesis =>
    rw [firsts, firsts, inductionHypothesis same]
    have more (path : String) : path ∈ first :: known ↔ path ∈ first :: other := by
      rw [List.mem_cons, List.mem_cons, same]
    rw [inductionHypothesis more]
    simp only [same]

/-- Of paths in a row, those behind are new if they are not among those in front. -/
theorem firsts_append (known front back : List String) :
    firsts known (front ++ back) = firsts known front ++ firsts (front ++ known) back := by
  induction front generalizing known with
  | nil => rfl
  | cons first rest inductionHypothesis =>
    rw [List.cons_append, firsts, firsts]
    split
    next old =>
      rw [inductionHypothesis]
      congr 1
      refine firsts_congr (fun path => ?_) back
      rw [List.cons_append, List.mem_cons, List.mem_append]
      constructor
      · exact .inr
      · rintro (rfl | found)
        · exact .inr old
        · exact found
    next new =>
      rw [inductionHypothesis, List.cons_append]
      congr 2
      refine firsts_congr (fun path => ?_) back
      simp only [List.cons_append, List.mem_cons, List.mem_append]
      tauto

/-- Where all paths are known, none is new. -/
theorem firsts_eq_nil {known paths : List String} (old : ∀ path ∈ paths, path ∈ known) :
    firsts known paths = [] := by
  apply List.eq_nil_iff_forall_not_mem.2
  intro path member
  obtain ⟨inside, new⟩ := mem_firsts.1 member
  exact new (old path inside)

/-! ## Visiting a path -/

section

variable (tree : FileTree)

/-- Visit a path: there has to be something, and if it is a jar, its manifest is read for
further paths. -/
def visit [ArchiveLibrary] (path : String) : Except Failure (List String) := do
  if !tree.pathExists path then fail (.classpathNotFound path)
  if Path.isJar path then manifestClassPath tree path else pure []

/-- The paths that come with a path, in ascending order. -/
def references [ArchiveLibrary] (path : String) : List String :=
  sorted ((visit tree path).toOption.getD [])

/-- A path is visited if it is there; a jar then leads to what its manifest names. -/
theorem visit_eq_ok [ArchiveLibrary] {path : String} {found : List String} :
    visit tree path = .ok found ↔ tree.pathExists path = true ∧
      (if Path.isJar path then manifestClassPath tree path else .ok []) = .ok found := by
  rw [visit]
  cases tree.pathExists path with
  | false =>
    constructor
    · intro impossible
      cases impossible
    · rintro ⟨impossible, -⟩
      cases impossible
  | true => exact (and_iff_right rfl).symm

/-- A visit fails if there is nothing, or if a manifest cannot be read. -/
theorem visit_eq_error [ArchiveLibrary] {path : String} {failure : Failure} :
    visit tree path = .error failure ↔
      (tree.pathExists path = false ∧ failure = .of (.classpathNotFound path)) ∨
        (tree.pathExists path = true ∧ Path.isJar path = true ∧
          manifestClassPath tree path = .error failure) := by
  rw [visit]
  cases tree.pathExists path with
  | false =>
    constructor
    · intro failed
      exact .inl ⟨rfl, (Except.error.inj failed).symm⟩
    · rintro (⟨-, rfl⟩ | ⟨impossible, -⟩)
      · rfl
      · cases impossible
  | true =>
    cases Path.isJar path with
    | false =>
      constructor
      · intro impossible
        cases impossible
      · rintro (⟨impossible, -⟩ | ⟨-, impossible, -⟩)
        · cases impossible
        · cases impossible
    | true =>
      constructor
      · exact fun failed => .inr ⟨rfl, rfl, failed⟩
      · rintro (⟨impossible, -⟩ | ⟨-, -, failed⟩)
        · cases impossible
        · exact failed

/-- The paths that are at most so many references away from the given ones. -/
def Within [ArchiveLibrary] (given : List String) : Nat → String → Prop
  | 0, path => path ∈ given
  | steps + 1, path =>
    path ∈ given ∨ ∃ jar, Within given steps jar ∧ path ∈ references tree jar

/-- The paths that can be reached from the given ones. -/
def Reached [ArchiveLibrary] (given : List String) (path : String) : Prop :=
  ∃ steps, Within tree given steps path

variable {tree}

/-- A given path is near, however many references are allowed. -/
theorem within_of_mem [ArchiveLibrary] {given : List String} {path : String} (member : path ∈ given)
    (steps : Nat) : Within tree given steps path := by
  cases steps with
  | zero => exact member
  | succ steps => exact .inl member

/-- More given paths bring more paths near. -/
theorem Within.mono [ArchiveLibrary] {given others : List String} {steps : Nat} {path : String}
    (more : ∀ path ∈ given, path ∈ others) (within : Within tree given steps path) :
    Within tree others steps path := by
  induction steps generalizing path with
  | zero => exact more path within
  | succ steps inductionHypothesis =>
    obtain start | ⟨jar, nearer, there⟩ := within
    · exact .inl (more path start)
    · exact .inr ⟨jar, inductionHypothesis nearer, there⟩

/-- What comes with a given path can be reached. -/
theorem Reached.of_references [ArchiveLibrary] {given later : List String} {jar path : String}
    (member : jar ∈ given) (origin : ∀ path ∈ later, path ∈ given ∨ path ∈ references tree jar)
    (reached : Reached tree later path) : Reached tree given path := by
  obtain ⟨steps, within⟩ := reached
  refine ⟨steps + 1, ?_⟩
  induction steps generalizing path with
  | zero => exact (origin path within).imp_right fun there => ⟨jar, member, there⟩
  | succ steps inductionHypothesis =>
    obtain start | ⟨other, nearer, there⟩ := within
    · exact (origin path start).imp_right fun there => ⟨jar, within_of_mem member _, there⟩
    · exact .inr ⟨other, inductionHypothesis nearer, there⟩

/-! ## The queue -/

/-- One round: known paths are passed over, and the first other one is visited. -/
theorem expandFrom_succ [ArchiveLibrary] (bound : Nat) (found queue : List String) :
    expandFrom tree (bound + 1) found queue =
      match queue.dropWhile found.contains with
      | [] => .ok found.reverse
      | path :: rest => visit tree path >>= fun behind =>
          expandFrom tree bound (path :: found) (rest ++ sorted behind) := by
  rw [expandFrom]
  cases queue.dropWhile found.contains with
  | nil => rfl
  | cons path rest =>
    dsimp only
    rw [visit]
    cases tree.pathExists path with
    | false => rfl
    | true => cases Path.isJar path <;> rfl

/-- Known paths are passed over. -/
theorem firsts_of_passed {known queue : List String}
    (split : queue.dropWhile known.contains = []) : firsts known queue = [] := by
  apply firsts_eq_nil
  intro path member
  exact List.contains_iff_mem.1 (List.dropWhile_eq_nil_iff.1 split path member)

/-- The first path that is not known yet comes next. -/
theorem firsts_of_dropWhile {known queue rest : List String} {path : String}
    (split : queue.dropWhile known.contains = path :: rest) (others : List String) :
    path ∉ known ∧ path ∈ queue ∧ (∀ other ∈ rest, other ∈ queue) ∧
      firsts known (queue ++ others) = path :: firsts (path :: known) (rest ++ others) := by
  have whole := List.takeWhile_append_dropWhile (p := known.contains) (l := queue)
  rw [split] at whole
  have old : ∀ other ∈ queue.takeWhile known.contains, other ∈ known := fun other member =>
    List.contains_iff_mem.1 (List.mem_takeWhile_imp member)
  have new : path ∉ known := by
    have first := List.head?_dropWhile_not known.contains queue
    rw [split] at first
    simpa using first
  have inside : ∀ other ∈ path :: rest, other ∈ queue := by
    intro other member
    rw [← whole]
    exact List.mem_append_right _ member
  refine ⟨new, inside path List.mem_cons_self, fun other member => ?_, ?_⟩
  · exact inside other (List.mem_cons_of_mem _ member)
  · rw [← whole, List.append_assoc, firsts_append, firsts_eq_nil old, List.nil_append,
      List.cons_append, firsts, if_neg]
    · congr 1
      refine firsts_congr (fun other => ?_) _
      simp only [List.mem_cons, List.mem_append]
      constructor
      · exact Or.imp_right fun found => found.elim (old other) id
      · exact Or.imp_right Or.inr
    · rw [List.mem_append]
      exact fun found => new (found.elim (old path) id)

variable (tree) in
/-- What becomes of a queue: a list of paths that follows the queue and itself, or the
failure of a visit. -/
theorem expandFrom_cases [ArchiveLibrary] (bound : Nat) (found queue : List String)
    (distinct : found.Nodup) (short : ∀ path ∈ found, path.utf8ByteSize ≤ FileTree.maxPath)
    (room : pathCount ≤ found.length + bound) :
    (∃ later, expandFrom tree bound found queue = .ok (found.reverse ++ later) ∧
      later = firsts found (queue ++ later.flatMap (references tree)) ∧
      ∀ path ∈ later, Reached tree queue path ∧ ∃ behind, visit tree path = .ok behind) ∨
    ∃ failure path, expandFrom tree bound found queue = .error failure ∧
      Reached tree queue path ∧ visit tree path = .error failure := by
  -- Each visit puts another path into `found`, and there are only so many short ones: the
  -- bound cannot be used up before the queue is.
  induction bound generalizing found queue with
  | zero =>
    exact absurd (length_lt_pathCount distinct short) (Nat.not_lt.2 room)
  | succ bound inductionHypothesis =>
    rw [expandFrom_succ]
    cases split : queue.dropWhile found.contains with
    | nil =>
      refine .inl ⟨[], by simp, ?_, by simp⟩
      rw [List.flatMap_nil, List.append_nil, firsts_of_passed split]
    | cons path rest =>
      have next := firsts_of_dropWhile split
      obtain ⟨new, first, inside, -⟩ := next []
      dsimp only
      cases visited : visit tree path with
      | error failure =>
        exact .inr ⟨failure, path, rfl, ⟨0, first⟩, visited⟩
      | ok behind =>
        have comes : references tree path = sorted behind := by
          rw [references, visited]
          rfl
        have origin : ∀ other ∈ rest ++ sorted behind,
            other ∈ queue ∨ other ∈ references tree path := by
          intro other member
          rw [comes]
          exact (List.mem_append.1 member).imp_left (inside other)
        have shortToo : ∀ other ∈ path :: found, other.utf8ByteSize ≤ FileTree.maxPath :=
          List.forall_mem_cons.2 ⟨size_of_pathExists ((visit_eq_ok tree).1 visited).1, short⟩
        have roomToo : pathCount ≤ (path :: found).length + bound := by
          rw [List.length_cons]
          omega
        obtain ⟨later, ran, follows, each⟩ | ⟨failure, other, ran, reached, failed⟩ :=
          inductionHypothesis (path :: found) (rest ++ sorted behind)
            (List.nodup_cons.2 ⟨new, distinct⟩) shortToo roomToo
        · refine .inl ⟨path :: later, ?_, ?_, ?_⟩
          · rw [List.reverse_cons, List.append_assoc] at ran
            exact ran
          · rw [List.flatMap_cons, comes, (next _).2.2.2, ← List.append_assoc, ← follows]
          · rw [List.forall_mem_cons]
            refine ⟨⟨⟨0, first⟩, behind, visited⟩, fun other member => ?_⟩
            obtain ⟨reached, opened⟩ := each other member
            exact ⟨reached.of_references first origin, opened⟩
        · exact .inr ⟨failure, other, ran, reached.of_references first origin, failed⟩

/-! ## The order of what is met -/

/-- The paths that are at most so many references away stand in front. -/
theorem exists_front [ArchiveLibrary] {given result : List String}
    (follows : result = firsts [] (sorted given ++ result.flatMap (references tree)))
    (steps : Nat) :
    ∃ front, front <+: result ∧ ∀ path, path ∈ front ↔ Within tree given steps path := by
  induction steps with
  | zero =>
    refine ⟨firsts [] (sorted given), ?_, fun path => ?_⟩
    · rw [follows, firsts_append]
      exact List.prefix_append ..
    · rw [mem_firsts, sorted, List.mem_mergeSort, Within]
      simp
  | succ steps inductionHypothesis =>
    obtain ⟨front, ⟨behind, whole⟩, nearer⟩ := inductionHypothesis
    refine ⟨firsts [] (sorted given ++ front.flatMap (references tree)), ?_, fun path => ?_⟩
    · rw [← whole, List.flatMap_append, ← List.append_assoc, firsts_append, whole] at follows
      exact ⟨_, follows.symm⟩
    · rw [mem_firsts, List.mem_append, sorted, List.mem_mergeSort, List.mem_flatMap, Within]
      simp only [nearer, List.not_mem_nil, not_false_eq_true, and_true]

/-- Sorted paths stand in ascending order. -/
theorem pairwise_sorted (given : List String) : (sorted given).Pairwise (· ≤ ·) := by
  have ordered : (sorted given).Pairwise fun path other => (!(other < path)) = true := by
    refine List.pairwise_mergeSort ?_ ?_ given
    · intro first second third
      simp only [Bool.not_eq_true', decide_eq_false_iff_not, String.not_lt]
      exact String.le_trans
    · intro first second
      simp only [Bool.or_eq_true, Bool.not_eq_true', decide_eq_false_iff_not, String.not_lt]
      exact String.le_total first second
  simpa only [Bool.not_eq_true', decide_eq_false_iff_not, String.not_lt] using ordered

/-- Different texts in ascending order. -/
theorem pairwise_lt {texts : List String} (ordered : texts.Pairwise (· ≤ ·))
    (distinct : texts.Nodup) : texts.Pairwise (· < ·) := by
  refine (ordered.and distinct).imp fun {text other} ⟨notAfter, different⟩ => ?_
  refine String.not_le.1 fun backwards => different ?_
  exact String.le_antisymm notAfter backwards

/-- Without repetition the given paths are in strictly ascending order. -/
theorem pairwise_firsts_sorted (given : List String) :
    (firsts [] (sorted given)).Pairwise (· < ·) :=
  pairwise_lt ((pairwise_sorted given).sublist (firsts_sublist [] _)) (nodup_firsts [] _)

end

/-- A class path holds the paths that can be reached from the given ones, each one once and
the nearer ones first. -/
structure BreadthFirst [ArchiveLibrary] (tree : FileTree) (given result : List String) : Prop where
  distinct : result.Nodup
  mem_iff : ∀ path, path ∈ result ↔ Reached tree given path
  /-- The given paths stand in front, in ascending order. -/
  ascending : ∃ front, front <+: result ∧ front.Pairwise (· < ·) ∧
    ∀ path, path ∈ front ↔ path ∈ given
  /-- Nearer paths stand in front of those further away. -/
  nearest : ∀ steps, ∃ front, front <+: result ∧
    ∀ path, path ∈ front ↔ Within tree given steps path
  /-- Member by member follows what the manifests name. -/
  follows : result = firsts [] (sorted given ++ result.flatMap (references tree))

/-- No two different paths that can be reached lead to the same thing. -/
def Unambiguous [ArchiveLibrary] (tree : FileTree) (given : List String) : Prop :=
  ∀ path other, Reached tree given path → Reached tree given other →
    tree.leadToSame path other = true → path = other

section

variable {tree : FileTree} {given result : List String}

variable (tree given) in
/-- What becomes of a class path. -/
theorem expand_cases [ArchiveLibrary] :
    (∃ result, expand tree given = .ok result ∧
      result = firsts [] (sorted given ++ result.flatMap (references tree)) ∧
      ∀ path ∈ result, Reached tree given path ∧ ∃ behind, visit tree path = .ok behind) ∨
    ∃ failure path, expand tree given = .error failure ∧
      Reached tree given path ∧ visit tree path = .error failure := by
  have start (path : String) (reached : Reached tree (sorted given) path) :
      Reached tree given path :=
    reached.imp fun _ within => within.mono fun _ member => List.mem_mergeSort.1 member
  have room : pathCount ≤ ([] : List String).length + pathCount := Nat.le_add_left ..
  obtain ⟨result, ran, follows, each⟩ | ⟨failure, path, ran, reached, failed⟩ :=
    expandFrom_cases tree pathCount [] (sorted given) List.nodup_nil (by simp) room
  · exact .inl ⟨result, ran, follows, fun path member => (each path member).imp_left (start path)⟩
  · exact .inr ⟨failure, path, ran, start path reached, failed⟩

/-- A result that follows the given paths and its own references, and in which each path can
be reached, is that of a search in breadth. -/
theorem BreadthFirst.of_follows [ArchiveLibrary]
    (follows : result = firsts [] (sorted given ++ result.flatMap (references tree)))
    (each : ∀ path ∈ result, Reached tree given path) : BreadthFirst tree given result where
  distinct := by
    rw [follows]
    exact nodup_firsts ..
  mem_iff path := by
    refine ⟨each path, fun ⟨steps, within⟩ => ?_⟩
    obtain ⟨front, inFront, nearer⟩ := exists_front follows steps
    exact inFront.subset ((nearer path).2 within)
  ascending := by
    refine ⟨firsts [] (sorted given), ?_, pairwise_firsts_sorted given, fun path => ?_⟩
    · rw [follows, firsts_append]
      exact List.prefix_append ..
    · rw [mem_firsts, sorted, List.mem_mergeSort]
      simp
  nearest := exists_front follows
  follows := follows

/-- If paths are unambiguous, each file that can be reached is there once. -/
theorem BreadthFirst.countP_leadToSame [ArchiveLibrary]
    (breadthFirst : BreadthFirst tree given result)
    (found : ∀ path ∈ result, tree.pathExists path = true)
    (unambiguous : Unambiguous tree given) {path : String} (reached : Reached tree given path) :
    result.countP (tree.leadToSame path) = 1 := by
  have member := (breadthFirst.mem_iff path).2 reached
  have same : ∀ other ∈ result, tree.leadToSame path other = true ↔ (other == path) = true := by
    intro other inside
    rw [beq_iff_eq]
    constructor
    · intro meets
      exact (unambiguous path other reached ((breadthFirst.mem_iff other).1 inside) meets).symm
    · rintro rfl
      obtain ⟨place, there⟩ := (tree.pathExists_iff other).1 (found other inside)
      simp [FileTree.leadToSame, there]
  rw [List.countP_congr same]
  exact List.count_eq_one_of_mem breadthFirst.distinct member

/-- A visit succeeds if there is something, and if its manifest can be read. -/
theorem exists_visit_iff [ArchiveLibrary] {path : String} :
    (∃ behind, visit tree path = .ok behind) ↔ tree.pathExists path = true ∧
      (Path.isJar path = true → ∃ found, manifestClassPath tree path = .ok found) := by
  simp only [visit_eq_ok, exists_and_left]
  refine and_congr_right fun _ => ?_
  cases Path.isJar path with
  | false => simp
  | true => simp

end

end Scan

end NullGuard
