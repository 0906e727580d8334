import NullGuard.Proofs.Files.Tree

/-!
# What changes leave as it is

Something is put where directories stand all the way down, and shows there and nowhere
else (`FileTree.node?_put`). So a change comes down to the locations at which it may put
files: at all others files neither appear nor change nor disappear, and directories stay
directories everywhere (`FileTree.Touches`). Creating directories touches no file at all.
-/

namespace NullGuard

namespace Branch

/-- What is put shows at its location, and nowhere else if directories stand all the way
down to it and no directory has to make room for a file. -/
theorem node_at?_put_of (branch : Branch) (node : Node) (location other : Location)
    (reached : ∀ outer, outer <+: location → outer ≠ location →
      (branch.at? outer).map Branch.node = some .directory)
    (fits : (branch.at? location).map Branch.node = some .directory → node = .directory) :
    ((branch.put node location).at? other).map Branch.node =
      if other = location then some node else (branch.at? other).map Branch.node := by
  induction location generalizing branch other with
  | nil =>
    cases other with
    | nil => cases node <;> rfl
    | cons name rest =>
      cases node with
      | directory => rfl
      | file bytes =>
        cases branch with
        | directory entries => cases fits rfl
        | file old => rfl
  | cons name rest inductionHypothesis =>
    have here : branch.node = .directory := by
      have around := reached [] List.nil_prefix (by simp)
      simpa [Branch.at?] using around
    cases other with
    | nil =>
      rw [if_neg (by simp)]
      simp only [Branch.at?, Option.map_some, here]
      rfl
    | cons first others =>
      simp only [Branch.at?, child?_put_cons, List.cons.injEq]
      by_cases same : first = name
      · subst same
        simp only [if_true, true_and]
        cases known : branch.child? first with
        | some child =>
          refine inductionHypothesis child others ?_ ?_
          · intro outer above different
            have around := reached (first :: outer) ((List.prefix_cons_inj first).2 above)
              (by simpa using different)
            simpa [Branch.at?, known] using around
          · simpa [Branch.at?, known] using fits
        | none =>
          -- A directory stands in front of every further name, and here nothing stands.
          have ends : rest = [] := by
            cases rest with
            | nil => rfl
            | cons next more =>
              have around := reached [first] ⟨next :: more, rfl⟩ (by simp)
              simp [Branch.at?, known] at around
          subst ends
          cases others with
          | nil => cases node <;> rfl
          | cons next more => cases node <;> rfl
      · simp [same]

end Branch

namespace FileTree

/-- What is put somewhere is found there, and elsewhere things are as before. A directory
must not be replaced by a file for that. -/
theorem node?_put (tree : FileTree) (node : Node) (location other : Location)
    (reached : tree.IsReached location)
    (fits : tree.node? location = some .directory → node = .directory) :
    (tree.put location node).node? other =
      if other = location then some node else tree.node? other := by
  cases location with
  | nil =>
    obtain rfl := fits rfl
    by_cases same : other = []
    · subst same
      rfl
    · simp [put, same]
  | cons name rest =>
    have root : (tree.put (name :: rest) node).root = tree.root.put node (name :: rest) := rfl
    simpa only [node?, root] using
      Branch.node_at?_put_of tree.root node (name :: rest) other reached fits

/-! ## Touching -/

/-- Between two states of a tree files have been written at some locations at most, and
directories have been added. -/
structure Touches (targets : List Location) (before after : FileTree) : Prop where
  current : after.current = before.current
  directories : ∀ location, before.node? location = some .directory →
    after.node? location = some .directory
  stayFiles : ∀ location bytes, before.node? location = some (.file bytes) →
    ∃ bytes, after.node? location = some (.file bytes)
  files : ∀ location, location ∉ targets → ∀ bytes,
    after.node? location = some (.file bytes) ↔ before.node? location = some (.file bytes)

namespace Touches

variable {targets : List Location}

/-- Nothing has been touched in a tree that is as before. -/
theorem refl (tree : FileTree) : Touches targets tree tree where
  current := rfl
  directories _ here := here
  stayFiles _ bytes here := ⟨bytes, here⟩
  files _ _ _ := Iff.rfl

/-- What two changes touch is what each of them touches. -/
theorem trans {first second third : FileTree} (begun : Touches targets first second)
    (ended : Touches targets second third) : Touches targets first third where
  current := ended.current.trans begun.current
  directories location here := ended.directories location (begun.directories location here)
  stayFiles location bytes here := by
    obtain ⟨later, there⟩ := begun.stayFiles location bytes here
    exact ended.stayFiles location later there
  files location other bytes :=
    (ended.files location other bytes).trans (begun.files location other bytes)

/-- What is touched at some locations is touched at more of them. -/
theorem mono {more : List Location} {before after : FileTree}
    (touched : Touches targets before after) (included : targets ⊆ more) :
    Touches more before after where
  current := touched.current
  directories := touched.directories
  stayFiles := touched.stayFiles
  files location other := touched.files location fun member => other (included member)

/-- A directory is put where there is nothing. -/
theorem of_directory (tree : FileTree) (location : Location) (reached : tree.IsReached location)
    (nothing : tree.node? location = none) :
    Touches targets tree (tree.put location .directory) := by
  have put (other : Location) := tree.node?_put .directory location other reached fun _ => rfl
  have elsewhere (other : Location) (node : Node) (here : tree.node? other = some node) :
      (tree.put location .directory).node? other = some node := by
    rw [put, if_neg, here]
    rintro rfl
    rw [nothing] at here
    cases here
  refine ⟨?_, fun other => elsewhere other .directory, ?_, ?_⟩
  · unfold FileTree.put
    split <;> rfl
  · intro other bytes here
    exact ⟨bytes, elsewhere other _ here⟩
  · intro other _ bytes
    rw [put]
    split
    next same =>
      subst same
      simp [nothing]
    next => exact Iff.rfl

/-- A file is put where there is none, or another one. -/
theorem of_file (tree : FileTree) (location : Location) (bytes : List UInt8)
    (reached : tree.IsReached location) (fits : tree.node? location ≠ some .directory)
    (target : location ∈ targets) : Touches targets tree (tree.put location (.file bytes)) := by
  have put (other : Location) :=
    tree.node?_put (.file bytes) location other reached fun here => absurd here fits
  refine ⟨?_, ?_, ?_, ?_⟩
  · unfold FileTree.put
    split <;> rfl
  · intro other here
    rw [put, if_neg, here]
    rintro rfl
    exact fits here
  · intro other old here
    rw [put]
    split
    · exact ⟨bytes, rfl⟩
    · exact ⟨old, here⟩
  · intro other different old
    rw [put, if_neg]
    rintro rfl
    exact different target

end Touches

/-! ## Changing -/

section

variable {α β : Type}

/-- Changes in a row: the second one begins where the first one ends. -/
theorem bind_apply (first : Change α) (next : α → Change β) (tree : FileTree) :
    (first >>= next) tree = match first tree with
      | (.ok value, later) => next value later
      | (.error fault, later) => (.error fault, later) := by
  show ExceptT.bindCont next (first tree).1 (first tree).2 = _
  cases first tree with
  | mk result later => cases result <;> rfl

/-- A change that handles a fault begins in the tree that the fault leaves. -/
theorem tryCatch_apply (first : Change α) (handle : SystemFault → Change α) (tree : FileTree) :
    (tryCatch first handle) tree = match first tree with
      | (.ok value, later) => (.ok value, later)
      | (.error fault, later) => handle fault later := by
  show (ExceptT.tryCatch first handle) tree = _
  simp only [ExceptT.tryCatch, ExceptT.mk, bind, StateT.bind]
  cases first tree with
  | mk result later => cases result <;> rfl

end

/-- A directory is made where a path leads, unless something is there. -/
theorem createDirectory_apply (path : String) (tree : FileTree) :
    createDirectory path tree = match tree.locateNew path with
      | .error fault => (.error fault, tree)
      | .ok spot =>
        if spot.here.isSome then (.error .alreadyExists, tree)
        else (.ok (), tree.put spot.location .directory) := by
  unfold createDirectory
  rw [bind_apply]
  show ((ExceptT.mk (pure (tree.locateNew path)) >>= _ : Change Unit)) tree = _
  rw [bind_apply]
  cases tree.locateNew path with
  | error fault => rfl
  | ok spot =>
    show (if spot.here.isSome = true then _ else _ : Change Unit) tree = _
    by_cases taken : spot.here.isSome = true
    · simp only [taken, if_true]
      rfl
    · simp only [taken]
      rfl

/-- A directory that is there already counts as made. -/
theorem ensureDirectory_apply (path : String) (tree : FileTree) :
    ensureDirectory path tree = match createDirectory path tree with
      | (.ok value, later) => (.ok value, later)
      | (.error fault, later) =>
        if later.isDirectory path then (.ok (), later) else (.error fault, later) := by
  unfold ensureDirectory
  rw [tryCatch_apply]
  cases createDirectory path tree with
  | mk result later =>
    cases result with
    | ok value => rfl
    | error fault =>
      show (if later.isDirectory path = true then _ else _ : Change Unit) later = _
      by_cases known : later.isDirectory path = true
      · simp only [known, if_true]
        rfl
      · simp only [known]
        rfl

/-- If a directory cannot be made for want of the one around it, that one is made first. -/
theorem ensureWithin_apply (path : String) (around : Change Unit) (tree : FileTree) :
    ensureWithin path around tree = match ensureDirectory path tree with
      | (.ok value, later) => (.ok value, later)
      | (.error fault, later) =>
        if fault = .notFound then (around >>= fun _ => ensureDirectory path) later
        else (.error fault, later) := by
  unfold ensureWithin
  rw [tryCatch_apply]
  cases ensureDirectory path tree with
  | mk result later =>
    cases result with
    | ok value => rfl
    | error fault => cases fault <;> rfl

/-- A file is written where a path leads, unless that is a directory. -/
theorem write_apply (path : String) (bytes : List UInt8) (tree : FileTree) :
    write path bytes tree = match tree.locateNew path with
      | .error fault => (.error fault, tree)
      | .ok spot =>
        if path.endsWith '/' || spot.node? = some .directory then (.error .isDirectory, tree)
        else (.ok (), tree.put spot.location (.file bytes)) := by
  unfold write
  rw [bind_apply]
  show ((ExceptT.mk (pure (tree.locateNew path)) >>= _ : Change Unit)) tree = _
  rw [bind_apply]
  cases tree.locateNew path with
  | error fault => rfl
  | ok spot =>
    show (if (path.endsWith '/' || decide (spot.node? = some .directory)) = true then _ else _ :
      Change Unit) tree = _
    by_cases refused : (path.endsWith '/' || decide (spot.node? = some .directory)) = true
    · simp only [refused, if_true]
      rfl
    · simp only [refused]
      rfl

/-! ## What is touched -/

/-- A change that writes no file, whether or not it fails. -/
def WritesNothing {α : Type} (change : Change α) : Prop :=
  ∀ tree, Touches [] tree (change tree).2

/-- Making a directory writes no file. -/
theorem createDirectory_writesNothing (path : String) : WritesNothing (createDirectory path) := by
  intro tree
  rw [createDirectory_apply]
  cases located : tree.locateNew path with
  | error fault => exact Touches.refl tree
  | ok spot =>
    obtain ⟨rfl, reached⟩ := tree.locateNew_eq path spot located
    by_cases taken : (tree.spot (tree.destination path)).here.isSome = true
    · simp only [taken, if_true]
      exact Touches.refl tree
    · simp only [taken, location_spot]
      refine Touches.of_directory tree _ reached ?_
      rw [← node?_spot, Spot.node?, Option.not_isSome_iff_eq_none.1 taken]
      rfl

/-- Ensuring a directory writes no file. -/
theorem ensureDirectory_writesNothing (path : String) : WritesNothing (ensureDirectory path) := by
  intro tree
  have created := createDirectory_writesNothing path tree
  rw [ensureDirectory_apply]
  cases ran : createDirectory path tree with
  | mk result later =>
    rw [ran] at created
    cases result with
    | ok value => exact created
    | error fault =>
      dsimp only
      split <;> exact created

/-- One change after the other writes nothing if neither does. -/
theorem WritesNothing.bind {α β : Type} {first : Change α} {next : α → Change β}
    (begun : WritesNothing first) (rest : ∀ value, WritesNothing (next value)) :
    WritesNothing (first >>= next) := by
  intro tree
  have here := begun tree
  rw [bind_apply]
  cases ran : first tree with
  | mk result later =>
    rw [ran] at here
    cases result with
    | ok value => exact here.trans (rest value later)
    | error fault => exact here

/-- Ensuring a directory within others writes no file if ensuring the others does not. -/
theorem WritesNothing.ensureWithin (path : String) {around : Change Unit}
    (outside : WritesNothing around) : WritesNothing (ensureWithin path around) := by
  intro tree
  have ensured := ensureDirectory_writesNothing path tree
  rw [ensureWithin_apply]
  cases ran : ensureDirectory path tree with
  | mk result later =>
    rw [ran] at ensured
    cases result with
    | ok value => exact ensured
    | error fault =>
      dsimp only
      split
      · exact ensured.trans (outside.bind (fun _ => ensureDirectory_writesNothing path) later)
      · exact ensured

/-- Ensuring the directories around writes no file. -/
theorem ensureAround_writesNothing (absolute : Bool) (directories : List (List String)) :
    WritesNothing (ensureAround absolute directories) := by
  induction directories with
  | nil => exact Touches.refl
  | cons pieces around inductionHypothesis => exact inductionHypothesis.ensureWithin _

/-- Making all directories of a path writes no file. -/
theorem createDirectories_writesNothing (path : String) :
    WritesNothing (createDirectories path) := by
  unfold createDirectories
  split
  · exact Touches.refl
  · exact (ensureAround_writesNothing _ _).ensureWithin path

/-- Writing a file touches where its path leads. -/
theorem touches_write (path : String) (bytes : List UInt8) (tree : FileTree) :
    Touches [tree.destination path] tree (write path bytes tree).2 := by
  rw [write_apply]
  cases located : tree.locateNew path with
  | error fault => exact Touches.refl tree
  | ok spot =>
    obtain ⟨rfl, reached⟩ := tree.locateNew_eq path spot located
    dsimp only
    split
    next => exact Touches.refl tree
    next fits =>
      rw [Bool.or_eq_true, not_or, decide_eq_true_eq, node?_spot] at fits
      rw [location_spot]
      exact Touches.of_file tree _ bytes reached fits.2 List.mem_cons_self

/-- What has been written stands where its path leads. -/
theorem node?_of_write (path : String) (bytes : List UInt8) (before after : FileTree)
    (written : write path bytes before = (.ok (), after)) :
    after.node? (before.destination path) = some (.file bytes) := by
  rw [write_apply] at written
  cases located : before.locateNew path with
  | error fault =>
    rw [located] at written
    cases written
  | ok spot =>
    obtain ⟨rfl, reached⟩ := before.locateNew_eq path spot located
    rw [located] at written
    dsimp only at written
    split at written
    next => cases written
    next fits =>
      rw [Bool.or_eq_true, not_or, decide_eq_true_eq, node?_spot] at fits
      obtain rfl := (Prod.mk.inj written).2
      rw [location_spot, node?_put _ _ _ _ reached fun here => absurd here fits.2, if_pos rfl]

end FileTree

end NullGuard
