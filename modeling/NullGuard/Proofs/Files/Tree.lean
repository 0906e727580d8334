import NullGuard.Files.Tree
import NullGuard.Proofs.Files.Path

/-!
# Following paths through a file tree

Following a path through the directories that are there leads to the location that the
path names (`locate_eq`). Where it leads by way of a last piece, a directory stands
around that location (`IsReached`), so something can be put there.

A tree is one of files with proper names if no name in it could be taken for a piece of a
path that leads elsewhere (`Branch.IsProper`). What a listing finds is then below the
directory that is listed (`names_of_listFiles`).
-/

namespace NullGuard

namespace FileTree

variable (tree : FileTree)

/-- What stands further down is found by going on. -/
theorem at?_append (branch : Branch) (outer inner : Location) :
    branch.at? (outer ++ inner) = (branch.at? outer).bind fun found => found.at? inner := by
  induction outer generalizing branch with
  | nil => rfl
  | cons name rest inductionHypothesis =>
    simp only [List.cons_append, Branch.at?]
    cases branch.child? name with
    | none => rfl
    | some child => exact inductionHypothesis child

/-- Something can only stand in a directory. -/
theorem directory_of_above (location outer : Location) (node : Node)
    (found : tree.node? location = some node) (above : outer <+: location)
    (different : outer ≠ location) : tree.node? outer = some .directory := by
  obtain ⟨inner, rfl⟩ := above
  obtain ⟨name, rest, rfl⟩ := List.exists_cons_of_ne_nil
    (show inner ≠ [] by rintro rfl; simp at different)
  rw [node?, at?_append] at found
  rw [node?]
  cases around : tree.root.at? outer with
  | none => simp [around] at found
  | some branch =>
    cases branch with
    | directory entries => rfl
    | file bytes => simp [around, Branch.at?, Branch.child?, Branch.entries] at found

/-- Directories stand all the way down to a location, whether or not something stands
there. -/
def IsReached (location : Location) : Prop :=
  ∀ outer, outer <+: location → outer ≠ location → tree.node? outer = some .directory

variable {tree}

/-- What is around a directory is a directory. -/
theorem directory_of_prefix (location outer : Location)
    (found : tree.node? location = some .directory) (above : outer <+: location) :
    tree.node? outer = some .directory := by
  by_cases same : outer = location
  · exact same ▸ found
  · exact tree.directory_of_above location outer .directory found above same

/-- A piece of a path leads from a directory to where something can stand. -/
theorem isReached_step (location : Location) (piece : String)
    (found : tree.node? location = some .directory) :
    tree.IsReached (Path.step location piece) := by
  intro outer above different
  unfold Path.step at above different
  split at above
  next idle => exact directory_of_prefix location outer found above
  next notIdle =>
    split at above
    next up =>
      exact directory_of_prefix location outer found (above.trans (List.dropLast_prefix location))
    next notUp =>
      rw [if_neg notIdle, if_neg notUp] at different
      rcases List.prefix_concat_iff.1 above with same | inside
      · exact absurd same different
      · exact directory_of_prefix location outer found inside

variable (tree)

/-! ## Spots -/

/-- The spot of a name inside a location is reached by entering it. -/
theorem spot_append (location : Location) (name : String) :
    tree.spot (location ++ [name]) = (tree.spot location).enter name := by
  simp [spot]

/-- A spot knows its location. -/
theorem location_spot (location : Location) : (tree.spot location).location = location := by
  have named (spot : Spot) (names : Location) :
      (names.foldl Spot.enter spot).names = names.reverse ++ spot.names := by
    induction names generalizing spot with
    | nil => rfl
    | cons name rest inductionHypothesis => simp [inductionHypothesis, Spot.enter]
  simp [spot, Spot.location, named]

/-- Leaving a spot leads to the location around it. -/
theorem leave_spot (location : Location) :
    (tree.spot location).leave = tree.spot location.dropLast := by
  cases location using List.reverseRecOn with
  | nil => rfl
  | append_singleton outer name =>
    rw [spot_append, List.dropLast_concat]
    rfl

/-- Following a piece leads where the piece says, from a directory. -/
theorem step_spot (location : Location) (piece : String) (next : Spot)
    (stepped : (tree.spot location).step piece = .ok next) :
    tree.node? location = some .directory ∧ next = tree.spot (Path.step location piece) := by
  rw [Spot.step, node?_spot] at stepped
  cases here : tree.node? location with
  | none => simp [here] at stepped
  | some node =>
    cases node with
    | file bytes => simp [here] at stepped
    | directory =>
      refine ⟨rfl, ?_⟩
      simp only [here] at stepped
      unfold Path.step
      by_cases idle : Path.isIdle piece = true
      · rw [if_pos idle] at stepped ⊢
        exact (Except.ok.inj stepped).symm
      · rw [if_neg idle] at stepped ⊢
        by_cases up : piece = ".."
        · rw [if_pos up, leave_spot] at stepped
          rw [if_pos up]
          exact (Except.ok.inj stepped).symm
        · rw [if_neg up] at stepped ⊢
          split at stepped
          · cases stepped
          · rw [spot_append]
            exact (Except.ok.inj stepped).symm

/-- Following pieces leads where they say. Each of them starts from a directory. -/
theorem foldlM_spot (location : Location) (pieces : List String) (last : Spot)
    (followed : pieces.foldlM Spot.step (tree.spot location) = .ok last) :
    last = tree.spot (Path.follow location pieces) ∧
      (pieces ≠ [] → tree.IsReached (Path.follow location pieces)) := by
  induction pieces generalizing location with
  | nil => exact ⟨(Except.ok.inj followed).symm, fun any => absurd rfl any⟩
  | cons piece rest inductionHypothesis =>
    rw [List.foldlM_cons] at followed
    cases stepped : (tree.spot location).step piece with
    | error fault =>
      rw [stepped] at followed
      cases followed
    | ok next =>
      rw [stepped] at followed
      obtain ⟨found, rfl⟩ := tree.step_spot location piece next stepped
      obtain ⟨same, reached⟩ := inductionHypothesis (Path.step location piece) followed
      refine ⟨same, fun _ => ?_⟩
      cases rest with
      | nil => exact isReached_step location piece found
      | cons further more => exact reached (by simp)

/-! ## Paths -/

/-- Where a path leads for whom is in the current directory. -/
def destination (path : String) : Location := Path.destination tree.current path

/-- The pieces to be followed lead where the path leads. A relative path has some that
are not empty. -/
theorem route_eq (path : String) (start : Location) (pieces : List String)
    (routed : tree.route path = .ok (start, pieces)) :
    tree.destination path = Path.follow start pieces ∧
      (start = [] ∨ ∃ piece ∈ pieces, piece ≠ "") := by
  unfold route at routed
  split at routed
  · cases routed
  · split at routed
    · cases routed
    · rename_i notEmpty
      split at routed
      · cases routed
      · split at routed
        next absolute =>
          obtain ⟨rfl, rfl⟩ := Prod.mk.inj (Except.ok.inj routed)
          obtain ⟨rest, split⟩ := Path.pieces_of_isAbsolute path absolute
          refine ⟨?_, .inl rfl⟩
          simp [destination, Path.destination, absolute, split, Path.follow, Path.step, Path.isIdle]
        next relative =>
          obtain ⟨rfl, rfl⟩ := Prod.mk.inj (Except.ok.inj routed)
          refine ⟨by simp [destination, Path.destination, relative], .inr ?_⟩
          exact Path.exists_piece path (by simpa using notEmpty) (Bool.eq_false_iff.2 relative)

/-- Following a path through the directories on the way leads where the path leads. -/
theorem locate_eq (path : String) (spot : Spot) (located : tree.locate path = .ok spot) :
    spot = tree.spot (tree.destination path) := by
  unfold locate at located
  cases routed : tree.route path with
  | error fault =>
    rw [routed] at located
    cases located
  | ok found =>
    obtain ⟨start, pieces⟩ := found
    rw [routed] at located
    rw [(tree.route_eq path start pieces routed).1]
    exact (tree.foldlM_spot start pieces spot located).1

/-- Where a path would create something, directories stand all the way down. -/
theorem locateNew_eq (path : String) (spot : Spot) (located : tree.locateNew path = .ok spot) :
    spot = tree.spot (tree.destination path) ∧ tree.IsReached (tree.destination path) := by
  unfold locateNew at located
  cases routed : tree.route path with
  | error fault =>
    rw [routed] at located
    cases located
  | ok found =>
    obtain ⟨start, pieces⟩ := found
    rw [routed] at located
    obtain ⟨same, begins⟩ := tree.route_eq path start pieces routed
    obtain ⟨ends, reached⟩ := tree.foldlM_spot start _ spot located
    rw [Path.follow_trimmed] at ends reached
    rw [same]
    refine ⟨ends, ?_⟩
    by_cases none : (pieces.reverse.dropWhile String.isEmpty).reverse = []
    · have stays := Path.follow_trimmed start pieces
      rw [none] at stays
      rcases begins with rfl | ⟨piece, member, any⟩
      · rw [← stays]
        intro outer above different
        exact absurd (List.prefix_nil.1 above) different
      · rw [List.reverse_eq_nil_iff, List.dropWhile_eq_nil_iff] at none
        exact absurd (String.isEmpty_iff.1 (none piece (List.mem_reverse.2 member))) any
    · exact reached none

/-- What is at a spot is what the tree has at its location. -/
theorem here_spot (location : Location) : (tree.spot location).here = tree.root.at? location :=
  Spot.here_foldl_enter ..

/-- What stands where a path leads. -/
theorem stat_eq (path : String) (location : Location) (branch : Branch)
    (known : tree.stat path = .ok (location, branch)) :
    location = tree.destination path ∧ tree.root.at? location = some branch := by
  unfold stat at known
  cases located : tree.locate path with
  | error fault =>
    rw [located] at known
    cases known
  | ok spot =>
    obtain rfl := tree.locate_eq path spot located
    rw [located] at known
    simp only [bind, Except.bind, here_spot, location_spot] at known
    split at known
    next found here =>
      obtain ⟨rfl, rfl⟩ := Prod.mk.inj (Except.ok.inj known)
      exact ⟨rfl, here⟩
    next => cases known

/-- Where something exists, its path leads to something. -/
theorem pathExists_iff (path : String) :
    tree.pathExists path = true ↔
      ∃ branch, tree.stat path = .ok (tree.destination path, branch) := by
  rw [pathExists]
  constructor
  · intro found
    cases known : tree.stat path with
    | error fault =>
      rw [known] at found
      cases found
    | ok spot =>
      obtain ⟨location, branch⟩ := spot
      obtain ⟨rfl, -⟩ := tree.stat_eq path location branch known
      exact ⟨branch, rfl⟩
  · rintro ⟨branch, known⟩
    rw [known]
    rfl

/-- Only of a directory there is a listing. -/
theorem stat_of_listFiles (path : String) (files : List (Location × Branch.Reached))
    (listed : tree.listFiles path = .ok files) : ∃ entries,
      tree.stat path = .ok (tree.destination path, .directory entries) ∧
        files = (Branch.reachAll (room path) entries).mergeSort fun a b => !(b.1 < a.1) := by
  unfold listFiles at listed
  cases known : tree.stat path with
  | error fault =>
    rw [known] at listed
    cases listed
  | ok found =>
    obtain ⟨location, branch⟩ := found
    obtain ⟨rfl, -⟩ := tree.stat_eq path location branch known
    rw [known] at listed
    cases branch with
    | file bytes => cases listed
    | directory entries => exact ⟨entries, rfl, (Except.ok.inj listed).symm⟩

/-- Only a file has bytes to be read. -/
theorem stat_of_read (path : String) (bytes : List UInt8) (read : tree.read path = .ok bytes) :
    tree.stat path = .ok (tree.destination path, .file bytes) := by
  unfold FileTree.read at read
  cases known : tree.stat path with
  | error fault =>
    rw [known] at read
    cases read
  | ok found =>
    obtain ⟨location, branch⟩ := found
    obtain ⟨rfl, -⟩ := tree.stat_eq path location branch known
    rw [known] at read
    cases branch with
    | file held => rw [Except.ok.inj read]
    | directory entries => cases read

end FileTree

/-! ## Proper names -/

namespace Branch

/-- Nothing in a branch has a name that leads elsewhere as a piece of a path. -/
inductive IsProper : Branch → Prop
  | file (bytes : List UInt8) : IsProper (.file bytes)
  | directory (entries : List (String × Branch))
      (named : ∀ entry ∈ entries, Path.IsName entry.1)
      (below : ∀ entry ∈ entries, IsProper entry.2) : IsProper (.directory entries)

/-- What is in a proper directory is proper. -/
theorem IsProper.child {branch child : Branch} (proper : branch.IsProper) (name : String)
    (known : branch.child? name = some child) : child.IsProper := by
  cases proper with
  | file bytes => cases known
  | directory entries named below =>
    obtain ⟨front, back, rfl, -⟩ :=
      List.lookup_eq_some_iff.1 (show entries.lookup name = _ from known)
    exact below (name, child) (List.mem_append_right front List.mem_cons_self)

/-- What is at a location of a proper directory is proper. -/
theorem IsProper.at {branch found : Branch} (proper : branch.IsProper) (location : Location)
    (known : branch.at? location = some found) : found.IsProper := by
  induction location generalizing branch with
  | nil =>
    obtain rfl := Option.some.inj known
    exact proper
  | cons name rest inductionHypothesis =>
    simp only [at?] at known
    split at known
    next child here => exact inductionHypothesis (proper.child name here) known
    next => cases known

/-- What is reached inside a directory has a location inside it. -/
theorem ne_nil_of_mem_reachAll (room : Nat) (entries : List (String × Branch)) :
    ∀ item ∈ reachAll room entries, item.1 ≠ [] := by
  induction entries with
  | nil => simp [reachAll]
  | cons entry rest inductionHypothesis =>
    obtain ⟨name, branch⟩ := entry
    intro item member
    rw [reachAll, List.mem_append] at member
    rcases member with here | behind
    · split at here
      · simp [List.mem_singleton.1 here]
      · obtain ⟨found, -, rfl⟩ := List.mem_map.1 here
        simp
    · exact inductionHypothesis item behind

/-- A listing of what has proper names goes down by names. -/
theorem IsProper.names_of_mem_reach {branch : Branch} (proper : branch.IsProper) (room : Nat) :
    ∀ item ∈ branch.reach room, ∀ name ∈ item.1, Path.IsName name := by
  induction proper generalizing room with
  | file bytes => simp [reach]
  | directory entries named below inductionHypothesis =>
    rw [reach]
    induction entries with
    | nil => simp [reachAll]
    | cons entry rest restHypothesis =>
      obtain ⟨first, branch⟩ := entry
      rw [List.forall_mem_cons] at named below inductionHypothesis
      intro item member
      rw [reachAll, List.mem_append] at member
      rcases member with here | behind
      · split at here
        · simpa [List.mem_singleton.1 here] using named.1
        · obtain ⟨found, inside, rfl⟩ := List.mem_map.1 here
          rw [List.forall_mem_cons]
          exact ⟨named.1, inductionHypothesis.1 _ found inside⟩
      · exact restHypothesis named.2 below.2 inductionHypothesis.2 item behind

end Branch

namespace FileTree

/-- A listing goes down by one name at least, and by names only. -/
theorem names_of_listFiles (tree : FileTree) (proper : tree.root.IsProper) (path : String)
    (files : List (Location × Branch.Reached)) (listed : tree.listFiles path = .ok files) :
    ∀ item ∈ files, item.1 ≠ [] ∧ ∀ name ∈ item.1, Path.IsName name := by
  obtain ⟨entries, known, rfl⟩ := tree.stat_of_listFiles path files listed
  have inside := proper.at _ (tree.stat_eq path _ _ known).2
  intro item member
  rw [List.mem_mergeSort] at member
  exact ⟨Branch.ne_nil_of_mem_reachAll _ entries item member,
    inside.names_of_mem_reach (room path) item member⟩

end FileTree

end NullGuard
