import NullGuard.Proofs.Files.Path
import NullGuard.Run.Input

/-!
# What kind of file a path names

The last piece of a path is the name of a file, and the extension is what stands in it
behind the last dot, if something stands before that dot. So a path that ends in `.class`
has that extension, unless its last piece is the ending alone (`isClass_of_pieces`).
-/

namespace NullGuard

namespace Path

/-- The last piece of a path stands behind all others. -/
theorem lastPiece_of_pieces (path : String) (front : List String) (last : String)
    (split : pieces path = front ++ [last]) : lastPiece path = last := by
  by_cases member : '/' ∈ path.toList
  · obtain ⟨outer, inner, same, absent⟩ := Text.exists_last '/' path.toList member
    rw [pieces, same, Text.pieces_append, Text.pieces_of_not_mem '/' inner absent,
      List.map_append] at split
    obtain ⟨-, inside⟩ := List.append_inj' split rfl
    rw [lastPiece, same, Text.splitLast_append '/' outer inner absent]
    exact (List.cons.inj inside).1
  · rw [pieces_of_isPiece path member] at split
    have whole : [] ++ [path] = front ++ [last] := split
    obtain ⟨-, inside⟩ := List.append_inj' whole rfl
    rw [lastPiece, Text.splitLast_of_not_mem '/' _ member]
    exact (List.cons.inj inside).1

/-- A path to something in a directory has its name as the last piece. -/
theorem exists_pieces_join (base piece : String) (whole : IsPiece piece) :
    ∃ front, pieces (join base piece) = front ++ [piece] := by
  have single := pieces_of_isPiece piece whole
  rcases join_cases base piece whole with ⟨-, joined⟩ | ⟨front, -, joined⟩ | ⟨-, joined⟩
  · exact ⟨[], by rw [joined, single, List.nil_append]⟩
  · exact ⟨pieces front, by rw [joined, pieces_slash, single]⟩
  · exact ⟨pieces base, by rw [joined, pieces_slash, single]⟩

/-- Pieces that are joined to a path end it. -/
theorem exists_pieces_joinAll (base : String) (front : List String) (last : String)
    (whole : IsPiece last) :
    ∃ outer, pieces (joinAll base (front ++ [last])) = outer ++ [last] := by
  rw [joinAll, List.foldl_append]
  exact exists_pieces_join _ last whole

/-- A name at the end of a path is the name of what the path leads to. -/
theorem fileName?_of_pieces (path : String) (front : List String) (last : String)
    (split : pieces path = front ++ [last]) (named : IsName last) : fileName? path = some last := by
  have kept : ∀ outer, ((outer ++ [last]).filter fun piece => !isIdle piece).getLast? =
      some last := by
    intro outer
    rw [List.filter_append, List.filter_singleton, named.notIdle]
    exact List.getLast?_concat
  have notDot : last ≠ "." := by
    rintro rfl
    exact absurd named.notIdle (by decide)
  have ends : (parts path).getLast? = some last := by
    rw [parts, split]
    split
    next rest dotted =>
      cases front with
      | nil => exact absurd (List.cons.inj dotted).1 notDot
      | cons first outer =>
        obtain ⟨-, rfl⟩ := List.cons.inj dotted
        have same : outer.append [last] = outer ++ [last] := rfl
        rw [List.getLast?_cons, same, kept]
        rfl
    next => exact kept front
  simp [fileName?, ends, named.notUp, notDot]

/-- What ends in `.class` is no jar, and a class file unless it is the ending alone. -/
theorem extension_of_pieces (path : String) (front : List String) (stem : String)
    (split : pieces path = front ++ [stem ++ classEnding]) (named : IsName (stem ++ classEnding)) :
    isJar path = false ∧ (isClass path = true ↔ stem ≠ "") := by
  have dotted : (stem ++ classEnding).toList = stem.toList ++ '.' :: "class".toList := by
    rw [String.toList_append]
    rfl
  have extension : extension? path = if stem = "" then none else some "class" := by
    rw [extension?, fileName?_of_pieces path front _ split named]
    simp only [Option.bind_eq_bind, Option.bind_some, dotted,
      Text.splitLast_append '.' stem.toList "class".toList (by decide), List.isEmpty_iff,
      String.toList_eq_nil_iff]
    rfl
  rw [isJar, isClass, hasExtension, hasExtension, extension]
  by_cases bare : stem = "" <;> simp [bare]

end Path

end NullGuard
