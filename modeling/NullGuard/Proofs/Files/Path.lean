import Mathlib.Data.List.DropRight
import Mathlib.Data.List.Induction
import NullGuard.Files.Branch
import NullGuard.Proofs.Text.Split

/-!
# Where paths lead

A path is followed piece by piece: an idle piece stays, two dots go up and a name goes
down. Where that ends depends on the pieces only (`Path.destination`), and joining a
piece to a path is one step further (`destination_join`).

Seen from a directory, the pieces of a path lead out of it exactly if two dots come where
no name is left to go up from (`climbs_eq_false_iff`). Names alone never do.
-/

namespace NullGuard

/-- Something stands below a directory, at whatever depth. -/
def Location.IsBelow (location directory : Location) : Prop :=
  ∃ names, names ≠ [] ∧ location = directory ++ names

namespace Path

/-! ## Paths in pieces -/

/-- A piece of a path has no slash in it. -/
def IsPiece (piece : String) : Prop := '/' ∉ piece.toList

/-- Whether a text has no slash can be seen by looking. -/
instance (piece : String) : Decidable (IsPiece piece) := inferInstanceAs (Decidable (¬ _))

/-- What something in a directory can be called. -/
structure IsName (name : String) : Prop where
  isPiece : IsPiece name
  notIdle : isIdle name = false
  notUp : name ≠ ".."

/-- A path is cut at every slash, so its pieces have none. -/
theorem isPiece_of_mem_pieces (path : String) : ∀ piece ∈ pieces path, IsPiece piece := by
  intro piece member
  obtain ⟨text, inside, rfl⟩ := List.mem_map.1 member
  rw [IsPiece, String.toList_ofList]
  exact Text.not_mem_of_mem_pieces '/' path.toList text inside

/-- A text without a slash is one piece. -/
theorem pieces_of_isPiece (piece : String) (whole : IsPiece piece) : pieces piece = [piece] := by
  rw [pieces, Text.pieces_of_not_mem _ _ whole]
  simp

/-- At a slash between them, two paths are cut into the pieces of both. -/
theorem pieces_slash (front back : String) :
    pieces (front ++ "/" ++ back) = pieces front ++ pieces back := by
  have split : (front ++ "/" ++ back).toList = front.toList ++ '/' :: back.toList := by simp
  rw [pieces, split, Text.pieces_append, List.map_append]
  rfl

/-- An ending makes the last piece of a path longer. -/
theorem pieces_append_ending (path ending : String) (whole : IsPiece ending) :
    ∃ front last, IsPiece last ∧ pieces (path ++ ending) = front ++ [last ++ ending] := by
  obtain ⟨front, last, before, behind⟩ :=
    Text.pieces_append_of_not_mem '/' path.toList ending.toList whole
  have member : last ∈ Text.pieces '/' path.toList := by simp [before]
  refine ⟨front.map String.ofList, String.ofList last, ?_, ?_⟩
  · simpa [IsPiece] using Text.not_mem_of_mem_pieces '/' _ last member
  · rw [pieces, String.toList_append, behind]
    simp [String.ofList_append]

/-- Pieces with slashes between them are the pieces of what they make up. -/
theorem pieces_intercalate (names : List String) (any : names ≠ [])
    (whole : ∀ name ∈ names, IsPiece name) : pieces (String.intercalate "/" names) = names := by
  induction names with
  | nil => exact absurd rfl any
  | cons name rest inductionHypothesis =>
    have here := pieces_of_isPiece name (whole name List.mem_cons_self)
    cases rest with
    | nil => rw [String.intercalate_singleton, here]
    | cons next more =>
      rw [String.intercalate_cons_cons, pieces_slash, here,
        inductionHypothesis (by simp) fun piece member =>
          whole piece (List.mem_cons_of_mem _ member)]
      rfl

/-- A path is what its pieces make up with slashes between them. -/
theorem intercalate_pieces (path : String) : String.intercalate "/" (pieces path) = path := by
  apply String.toList_inj.1
  rw [String.toList_intercalate, pieces, List.map_map]
  simpa using Text.intercalate_pieces '/' path.toList

/-- The first piece of a path from the root is empty. -/
theorem pieces_of_isAbsolute (path : String) (absolute : isAbsolute path = true) :
    ∃ rest, pieces path = "" :: rest := by
  obtain ⟨rest, rfl⟩ := String.startsWith_char_iff_exists_append.1 absolute
  have split := pieces_slash "" rest
  rw [String.empty_append] at split
  exact ⟨pieces rest, split⟩

/-- The first piece of any other path that is one is not empty. -/
theorem exists_piece (path : String) (any : path ≠ "") (relative : isAbsolute path = false) :
    ∃ piece ∈ pieces path, piece ≠ "" := by
  obtain ⟨first, rest, known⟩ := List.exists_cons_of_ne_nil
    (show path.toList ≠ [] by simpa using any)
  have different : first ≠ '/' := by
    simpa [isAbsolute, String.startsWith_char_eq_head?, known] using relative
  obtain ⟨piece, more, split⟩ := List.exists_cons_of_ne_nil (Text.pieces_ne_nil '/' rest)
  refine ⟨String.ofList (first :: piece), ?_, by simp⟩
  simp [pieces, known, Text.pieces, different, split]

/-! ## Steps -/

/-- Where a piece of a path leads from a location, whatever stands there. -/
def step (here : Location) (piece : String) : Location :=
  if isIdle piece then here else if piece = ".." then here.dropLast else here ++ [piece]

/-- Where pieces of a path lead from a location. -/
def follow (start : Location) (pieces : List String) : Location := pieces.foldl step start

/-- Where a path leads for whom is in a directory. -/
def destination (current : Location) (path : String) : Location :=
  follow (if isAbsolute path then [] else current) (pieces path)

/-- An idle piece leads nowhere. -/
theorem step_of_isIdle (here : Location) (piece : String) (idle : isIdle piece = true) :
    step here piece = here := by
  simp [step, idle]

/-- Two dots lead one step up, and stay at the root. -/
@[simp] theorem step_up (here : Location) : step here ".." = here.dropLast := by
  simp [step, isIdle]

/-- A name leads one step down. -/
theorem step_of_isName (here : Location) (name : String) (named : IsName name) :
    step here name = here ++ [name] := by
  simp [step, named.notIdle, named.notUp]

/-- Pieces in a row are followed one after the other. -/
theorem follow_append (start : Location) (front back : List String) :
    follow start (front ++ back) = follow (follow start front) back := List.foldl_append

/-- Names lead down. -/
theorem follow_names (start : Location) (names : List String)
    (named : ∀ name ∈ names, IsName name) : follow start names = start ++ names := by
  induction names generalizing start with
  | nil => simp [follow]
  | cons name rest inductionHypothesis =>
    obtain ⟨here, behind⟩ := List.forall_mem_cons.1 named
    have next := inductionHypothesis (start ++ [name]) behind
    rw [follow, List.foldl_cons, step_of_isName start name here]
    simpa [follow] using next

/-- Empty pieces at the end lead nowhere. -/
theorem follow_trimmed (start : Location) (pieces : List String) :
    follow start (pieces.reverse.dropWhile String.isEmpty).reverse = follow start pieces := by
  have idle (here : Location) (tail : List String) (empty : ∀ piece ∈ tail, piece.isEmpty) :
      follow here tail = here := by
    induction tail with
    | nil => rfl
    | cons piece rest inductionHypothesis =>
      obtain ⟨first, behind⟩ := List.forall_mem_cons.1 empty
      obtain rfl := String.isEmpty_iff.1 first
      exact inductionHypothesis behind
  have split := congrArg List.reverse
    (List.takeWhile_append_dropWhile (p := String.isEmpty) (l := pieces.reverse))
  rw [List.reverse_append, List.reverse_reverse] at split
  have last : ∀ piece ∈ (pieces.reverse.takeWhile String.isEmpty).reverse, piece.isEmpty :=
    fun piece member => List.mem_takeWhile_imp (List.mem_reverse.1 member)
  calc follow start (pieces.reverse.dropWhile String.isEmpty).reverse
      = follow start ((pieces.reverse.dropWhile String.isEmpty).reverse ++
          (pieces.reverse.takeWhile String.isEmpty).reverse) := by
        rw [follow_append, idle _ _ last]
    _ = follow start pieces := by rw [split]

/-! ## Joining -/

/-- A piece has no slash in front. -/
theorem isAbsolute_of_isPiece (piece : String) (whole : IsPiece piece) :
    isAbsolute piece = false := by
  rw [← Bool.not_eq_true]
  intro absolute
  obtain ⟨rest, rfl⟩ := String.startsWith_char_iff_exists_append.1 absolute
  exact whole (by simp)

/-- What stands behind a path does not matter for where it starts. -/
theorem isAbsolute_append (front back : String) (any : front ≠ "") :
    isAbsolute (front ++ back) = isAbsolute front := by
  obtain ⟨first, rest, known⟩ := List.exists_cons_of_ne_nil
    (show front.toList ≠ [] by simpa using any)
  simp [isAbsolute, String.startsWith_char_eq_head?, known]

/-- A piece that leads somewhere stays at the end. -/
theorem trimEnd_cons (piece : String) (rest : List String) (busy : isIdle piece = false) :
    trimEnd (piece :: rest) = piece :: rest := by
  cases rest with
  | nil =>
    have any : (piece == "") = false := (Bool.or_eq_false_iff.1 busy).1
    simp [trimEnd, any]
  | cons next more => simp [trimEnd, busy]

/-- The directory around something that has a name. -/
theorem parent?_slash (base name : String) (relative : isAbsolute base = false)
    (any : base ≠ "") (named : IsName name) {front : List String} {last : String}
    (split : pieces base = front ++ [last]) (busy : isIdle last = false) :
    parent? (base ++ "/" ++ name) = some base := by
  have start : isAbsolute (base ++ "/" ++ name) = false := by
    rw [String.append_assoc, isAbsolute_append _ _ any, relative]
  have whole : pieces (base ++ "/" ++ name) = front ++ [last] ++ [name] := by
    rw [pieces_slash, pieces_of_isPiece name named.isPiece, split]
  rw [parent?, backwards, start, if_neg Bool.false_ne_true, whole, List.reverse_append,
    List.reverse_append, List.reverse_singleton, List.reverse_singleton, List.singleton_append,
    List.singleton_append, leaveOut?, trimEnd_cons name _ named.notIdle]
  simp only [Bool.false_and, Bool.false_eq_true, if_false, trimEnd_cons last _ busy,
    Option.map_some, ofBackwards, List.reverse_cons, List.reverse_reverse, ← split,
    intercalate_pieces, String.empty_append]

/-- A piece comes behind nothing, behind a slash that is there, or behind one that is put
there. -/
theorem join_cases (base piece : String) (whole : IsPiece piece) :
    (base = "" ∧ join base piece = piece) ∨
      (∃ front, base = front ++ "/" ∧ join base piece = front ++ "/" ++ piece) ∨
        (base ≠ "" ∧ join base piece = base ++ "/" ++ piece) := by
  have relative := isAbsolute_of_isPiece piece whole
  by_cases any : base = ""
  · exact .inl ⟨any, by simp [join, relative, any]⟩
  · by_cases closed : base.endsWith '/' = true
    · obtain ⟨front, rfl⟩ : ∃ front, base = front ++ "/" :=
        String.endsWith_char_iff_exists_append.1 closed
      exact .inr (.inl ⟨front, rfl, by simp [join, relative, closed]⟩)
    · exact .inr (.inr ⟨any, by simp [join, relative, closed, any]⟩)

/-- A piece behind a path leads one step further. -/
theorem destination_join (current : Location) (base piece : String) (whole : IsPiece piece) :
    destination current (join base piece) = step (destination current base) piece := by
  have single := pieces_of_isPiece piece whole
  rcases join_cases base piece whole with ⟨rfl, joined⟩ | ⟨front, rfl, joined⟩ | ⟨any, joined⟩
  · have nowhere : destination current "" = current := rfl
    rw [nowhere, joined]
    simp [destination, isAbsolute_of_isPiece piece whole, single, follow]
  · have inFront : pieces (front ++ "/") = pieces front ++ [""] := by
      have split := pieces_slash front ""
      rw [String.append_empty] at split
      rw [split]
      rfl
    rw [joined, destination, isAbsolute_append (front ++ "/") piece (by simp), destination, inFront,
      pieces_slash, single, follow_append, follow_append]
    rfl
  · rw [joined, destination, String.append_assoc, isAbsolute_append base _ any, destination,
      ← String.append_assoc, pieces_slash, single, follow_append]
    rfl

/-- Pieces behind a path lead further from where the path leads. -/
theorem destination_joinAll (current : Location) (base : String) (pieces : List String)
    (whole : ∀ piece ∈ pieces, IsPiece piece) :
    destination current (joinAll base pieces) = follow (destination current base) pieces := by
  induction pieces generalizing base with
  | nil => rfl
  | cons piece rest inductionHypothesis =>
    obtain ⟨here, behind⟩ := List.forall_mem_cons.1 whole
    have next := inductionHypothesis (join base piece) behind
    rw [destination_join current base piece here] at next
    exact next

/-! ## Leading out -/

/-- Whether pieces of a path go up more often than down, somewhere on the way, when they
start so many directories further down. -/
def climbsFrom : (depth : Nat) → List String → Bool
  | _, [] => false
  | depth, piece :: rest =>
    if isIdle piece then climbsFrom depth rest
    else if piece = ".." then
      match depth with
      | 0 => true
      | depth + 1 => climbsFrom depth rest
    else climbsFrom (depth + 1) rest

/-- Whether a path leads out of the directory that it starts from. -/
def climbs (path : String) : Bool := climbsFrom 0 (pieces path)

/-- Names never lead out. -/
theorem climbsFrom_names (depth : Nat) (names : List String)
    (named : ∀ name ∈ names, IsName name) : climbsFrom depth names = false := by
  induction names generalizing depth with
  | nil => rfl
  | cons name rest inductionHypothesis =>
    obtain ⟨here, behind⟩ := List.forall_mem_cons.1 named
    simp [climbsFrom, here.notIdle, here.notUp, inductionHypothesis _ behind]

/-- A path that stays inside does so up to each of its pieces. -/
theorem climbsFrom_of_append (depth : Nat) (front back : List String)
    (inside : climbsFrom depth (front ++ back) = false) : climbsFrom depth front = false := by
  fun_induction climbsFrom depth front with
  | case1 => rfl
  | case2 depth piece rest idle inductionHypothesis =>
    simp only [List.cons_append, climbsFrom, idle, if_true] at inside
    exact inductionHypothesis inside
  | case3 rest notIdle => simp [climbsFrom, notIdle] at inside
  | case4 rest depth notIdle inductionHypothesis =>
    simp only [List.cons_append, climbsFrom, notIdle, if_true] at inside
    exact inductionHypothesis inside
  | case5 depth piece rest notIdle notUp inductionHypothesis =>
    simp only [List.cons_append, climbsFrom, notIdle, notUp, if_false] at inside
    exact inductionHypothesis inside

/-- What does not lead out ends in the directory it starts from, or below it. -/
theorem prefix_follow (start names : Location) (pieces : List String)
    (inside : climbsFrom names.length pieces = false) :
    start <+: follow (start ++ names) pieces := by
  induction pieces generalizing names with
  | nil => exact List.prefix_append start names
  | cons piece rest inductionHypothesis =>
    rw [follow, List.foldl_cons]
    by_cases idle : isIdle piece = true
    · simp only [climbsFrom, idle, if_true] at inside
      rw [step_of_isIdle _ _ idle]
      exact inductionHypothesis names inside
    · simp only [climbsFrom, idle] at inside
      by_cases up : piece = ".."
      · subst up
        cases names using List.reverseRecOn with
        | nil => simp at inside
        | append_singleton outer name =>
          simp only [if_true, List.length_append, List.length_singleton] at inside
          rw [step_up, ← List.append_assoc, List.dropLast_concat]
          exact inductionHypothesis outer inside
      · simp only [up, if_false] at inside
        have next := inductionHypothesis (names ++ [piece]) (by simpa using inside)
        simpa [step, idle, up, follow] using next

/-- A name behind what does not lead out stands below where the way starts. -/
theorem isBelow_follow (start : Location) (front : List String) (last : String)
    (named : IsName last) (inside : climbsFrom 0 (front ++ [last]) = false) :
    Location.IsBelow (follow start (front ++ [last])) start := by
  have around := prefix_follow start [] front (climbsFrom_of_append 0 front [last] inside)
  obtain ⟨names, same⟩ := around
  rw [List.append_nil] at same
  refine ⟨names ++ [last], by simp, ?_⟩
  rw [follow_append, ← same, follow_names _ [last] (by simpa using named), List.append_assoc]

/-- What is met on the way is where it starts or among the pieces. -/
theorem mem_follow (start : Location) (pieces : List String) :
    ∀ name ∈ follow start pieces, name ∈ start ∨ name ∈ pieces := by
  induction pieces generalizing start with
  | nil => simp [follow]
  | cons piece rest inductionHypothesis =>
    intro name member
    have known : ∀ name ∈ step start piece, name ∈ start ∨ name = piece := by
      intro name member
      unfold step at member
      split at member
      · exact .inl member
      · split at member
        · exact .inl ((List.dropLast_subset _) member)
        · simpa using member
    rcases inductionHypothesis (step start piece) name member with here | behind
    · rcases known name here with early | rfl
      · exact .inl early
      · exact .inr List.mem_cons_self
    · exact .inr (List.mem_cons_of_mem _ behind)

/-- What leads out of a directory with a name that it does not mention does not come
back. -/
theorem not_prefix_follow (fresh : String) (names : Location) (pieces : List String)
    (unknown : fresh ∉ pieces) (out : climbsFrom names.length pieces = true) :
    ¬ [fresh] <+: follow (fresh :: names) pieces := by
  induction pieces generalizing names with
  | nil => simp [climbsFrom] at out
  | cons piece rest inductionHypothesis =>
    rw [List.mem_cons, not_or] at unknown
    rw [follow, List.foldl_cons]
    by_cases idle : isIdle piece = true
    · simp only [climbsFrom, idle, if_true] at out
      rw [step_of_isIdle _ _ idle]
      exact inductionHypothesis names unknown.2 out
    · simp only [climbsFrom, idle] at out
      by_cases up : piece = ".."
      · subst up
        cases names using List.reverseRecOn with
        | nil =>
          intro below
          rcases mem_follow [] rest fresh (below.subset List.mem_cons_self) with here | behind
          · cases here
          · exact unknown.2 behind
        | append_singleton outer name =>
          simp only [if_true, List.length_append, List.length_singleton] at out
          rw [step_up, ← List.cons_append, List.dropLast_concat]
          exact inductionHypothesis outer unknown.2 out
      · simp only [up, if_false] at out
        have next := inductionHypothesis (names ++ [piece]) unknown.2 (by simpa using out)
        simpa [step, idle, up, follow] using next

/-- Some name is none of some pieces: one that is longer than all of them. -/
theorem exists_fresh (pieces : List String) : ∃ fresh, IsName fresh ∧ fresh ∉ pieces := by
  let size := (pieces.map String.length).max?.getD 0
  have begins : (String.ofList (List.replicate (size + 1) 'a')).toList =
      'a' :: List.replicate size 'a' := by
    rw [String.toList_ofList, List.replicate_succ]
  have other (text : String) (different : text.toList.head? ≠ some 'a') :
      String.ofList (List.replicate (size + 1) 'a') ≠ text := by
    rintro rfl
    simp [begins] at different
  refine ⟨String.ofList (List.replicate (size + 1) 'a'), ⟨?_, ?_, other ".." (by decide)⟩, ?_⟩
  · simp [IsPiece]
  · simp only [isIdle, Bool.or_eq_false_iff, beq_eq_false_iff_ne]
    exact ⟨other "" (by decide), other "." (by decide)⟩
  · intro member
    have short := List.le_max?_getD_of_mem (k := 0)
      (List.mem_map_of_mem (f := String.length) member)
    rw [String.length_ofList, List.length_replicate] at short
    exact Nat.not_succ_le_self _ short

/-- A name behind the root leads to the entry of that name there. -/
theorem destination_root (current : Location) (name : String) (named : IsName name) :
    destination current ("/" ++ name) = [name] := by
  have absolute : isAbsolute ("/" ++ name) = true :=
    isAbsolute_append "/" name (by decide) |>.trans (by decide)
  have split := pieces_slash "" name
  rw [String.empty_append, pieces_of_isPiece name named.isPiece] at split
  rw [destination, if_pos absolute, split]
  exact step_of_isName [] name named

/-- A path leads out of no directory exactly if it never goes up where it has no name to
go up from. -/
theorem climbs_eq_false_iff (current : Location) (path : String) :
    climbs path = false ↔ ∀ directory : String,
      destination current directory <+: follow (destination current directory) (pieces path) := by
  constructor
  · intro inside directory
    have ends := prefix_follow (destination current directory) [] (pieces path) inside
    rwa [List.append_nil] at ends
  · intro inside
    obtain ⟨fresh, named, unknown⟩ := exists_fresh (pieces path)
    have ends := inside ("/" ++ fresh)
    rw [destination_root current fresh named] at ends
    rw [← Bool.not_eq_true]
    intro out
    exact not_prefix_follow fresh [] (pieces path) unknown out ends

end Path

end NullGuard
