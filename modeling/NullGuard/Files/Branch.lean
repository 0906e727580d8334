import NullGuard.Files.Path

/-!
# Branches

A file, or a directory with what stands in it. What stands further down is found
by its location, which is the list of names that lead there. A directory keeps
its entries in the order in which they were put there; a listing has them in
ascending order.

Putting something at a location shows there (`node_at?_put`), and beside the way
to that location everything stays as it is (`at?_put_beside`).
-/

namespace NullGuard

/-- The names from a directory down to something. -/
abbrev Location := List String

/-- What stands at a location. -/
inductive Node
  | directory
  | file (bytes : List UInt8)
  deriving DecidableEq, Repr

/-- A file, or a directory with what stands in it by name. -/
inductive Branch
  | file (bytes : List UInt8)
  | directory (entries : List (String × Branch))
  deriving Repr

namespace Branch

/-- The directory without entries. -/
def empty : Branch := .directory []

/-- A branch without what stands in it. -/
def node : Branch → Node
  | .file bytes => .file bytes
  | .directory _ => .directory

/-- What stands in a directory; in a file there is nothing. -/
def entries : Branch → List (String × Branch)
  | .file _ => []
  | .directory entries => entries

/-- What stands in a directory under a name. -/
def child? (branch : Branch) (name : String) : Option Branch := branch.entries.lookup name

/-- What stands at a location. -/
def at? (branch : Branch) : Location → Option Branch
  | [] => some branch
  | name :: rest =>
    match branch.child? name with
    | some child => child.at? rest
    | none => none

/-! ## Changing -/

/-- Put a branch under a name, in place of what stands there. -/
def putEntry (name : String) (branch : Branch) : List (String × Branch) → List (String × Branch)
  | [] => [(name, branch)]
  | (other, old) :: rest =>
    if other = name then (name, branch) :: rest else (other, old) :: putEntry name branch rest

/-- What a branch becomes when something is put in its place. A directory in
place of a directory leaves it as it is. -/
def become (branch : Branch) : Node → Branch
  | .file bytes => .file bytes
  | .directory => .directory branch.entries

/-- Put something at a location, in place of what stands there. Directories on
the way are put there if they are missing. -/
def put (branch : Branch) (node : Node) : Location → Branch
  | [] => branch.become node
  | name :: rest =>
    .directory (putEntry name (((branch.child? name).getD empty).put node rest) branch.entries)

/-- A name that is put into a directory is found there, and the other names are found as
before. -/
theorem lookup_putEntry (name other : String) (branch : Branch)
    (entries : List (String × Branch)) :
    (putEntry name branch entries).lookup other =
      if other = name then some branch else entries.lookup other := by
  induction entries with
  | nil =>
    by_cases same : other = name
    · simp [putEntry, same]
    · simp [putEntry, List.lookup_cons, same, beq_false_of_ne same]
  | cons entry rest ih =>
    obtain ⟨first, old⟩ := entry
    by_cases found : first = name
    · subst found
      by_cases same : other = first
      · simp [putEntry, same]
      · simp [putEntry, List.lookup_cons, same, beq_false_of_ne same]
    · by_cases same : other = first
      · subst same
        simp [putEntry, found]
      · simp [putEntry, found, List.lookup_cons, beq_false_of_ne same, ih]

/-- What stands in a directory after something was put into it. -/
theorem child?_put_cons (branch : Branch) (node : Node) (name : String) (rest : Location)
    (other : String) :
    (branch.put node (name :: rest)).child? other =
      if other = name then some (((branch.child? name).getD empty).put node rest)
      else branch.child? other :=
  lookup_putEntry name other _ branch.entries

/-- What was put at a location stands there. -/
theorem node_at?_put (branch : Branch) (node : Node) (location : Location) :
    ((branch.put node location).at? location).map Branch.node = some node := by
  induction location generalizing branch with
  | nil => cases node <;> rfl
  | cons name rest ih =>
    simp only [at?, child?_put_cons, if_true]
    exact ih _

/-- Nothing stands inside an empty directory. -/
theorem at?_empty {location : Location} (inside : location ≠ []) : empty.at? location = none := by
  cases location with
  | nil => exact absurd rfl inside
  | cons name rest => rfl

/-- What stands beside the way to a location stays there when something is put at
that location. -/
theorem at?_put_beside (branch : Branch) (node : Node) {location other : Location}
    (notBelow : ¬ location <+: other) (notAbove : ¬ other <+: location) :
    (branch.put node location).at? other = branch.at? other := by
  induction location generalizing branch other with
  | nil => exact absurd (List.nil_prefix) notBelow
  | cons name rest ih =>
    cases other with
    | nil => exact absurd (List.nil_prefix) notAbove
    | cons first others =>
      simp only [at?, child?_put_cons]
      by_cases same : first = name
      · subst same
        have below : ¬ rest <+: others := fun found =>
          notBelow ((List.prefix_cons_inj first).2 found)
        have above : ¬ others <+: rest := fun found =>
          notAbove ((List.prefix_cons_inj first).2 found)
        simp only [if_true, ih _ below above]
        cases branch.child? first with
        | none =>
          have inside : others ≠ [] := fun nothing => above (nothing ▸ List.nil_prefix)
          exact at?_empty inside
        | some child => rfl
      · simp [same]

/-! ## Listing -/

/-- The bytes of a file, if it can be reached by its path. -/
abbrev Reached := Option (List UInt8)

mutual

/-- All files of a branch by the names that lead to them, or the names that lead
to what is out of reach: a path to it may take so many bytes and no more. -/
def reach (room : Nat) : Branch → List (Location × Reached)
  | .file bytes => [([], some bytes)]
  | .directory entries => reachAll room entries

/-- All files of some branches by the names that lead to them, or the names that
lead to what is out of reach. -/
def reachAll (room : Nat) : List (String × Branch) → List (Location × Reached)
  | [] => []
  | (name, branch) :: rest =>
    let taken := name.utf8ByteSize + 1
    (if room < taken then [([name], none)]
      else (reach (room - taken) branch).map fun (names, reached) => (name :: names, reached)) ++
      reachAll room rest

end

end Branch

end NullGuard
