import Mathlib.Data.List.DropRight
import NullGuard.Text.Split

/-!
# Splitting texts

What the pieces of a text are, where it is split, and what it begins and ends with.
-/

namespace NullGuard.Text

section

variable (separator : Char)

/-! ## Pieces -/

/-- A text has at least one piece. -/
theorem pieces_ne_nil (text : List Char) : pieces separator text ≠ [] := by
  induction text with
  | nil => simp [pieces]
  | cons c rest inductionHypothesis =>
    unfold pieces
    split
    · simp
    · split <;> simp

/-- At a separator between them, two texts are split into the pieces of both. -/
theorem pieces_append (front back : List Char) :
    pieces separator (front ++ separator :: back) =
      pieces separator front ++ pieces separator back := by
  induction front with
  | nil => simp [pieces]
  | cons c rest inductionHypothesis =>
    by_cases same : c = separator
    · simp [pieces, same, inductionHypothesis]
    · simp only [List.cons_append, pieces, same, if_false, inductionHypothesis]
      cases known : pieces separator rest with
      | nil => exact absurd known (pieces_ne_nil separator rest)
      | cons piece more => simp

/-- A text without the separator is one piece. -/
theorem pieces_of_not_mem (text : List Char) (absent : separator ∉ text) :
    pieces separator text = [text] := by
  induction text with
  | nil => rfl
  | cons c rest inductionHypothesis =>
    rw [List.mem_cons, not_or] at absent
    simp [pieces, Ne.symm absent.1, inductionHypothesis absent.2]

/-- No piece holds the separator. -/
theorem not_mem_of_mem_pieces (text : List Char) :
    ∀ piece ∈ pieces separator text, separator ∉ piece := by
  induction text with
  | nil => simp [pieces]
  | cons c rest inductionHypothesis =>
    by_cases same : c = separator
    · simpa [pieces, same] using inductionHypothesis
    · cases known : pieces separator rest with
      | nil => exact absurd known (pieces_ne_nil separator rest)
      | cons first more =>
        rw [known] at inductionHypothesis
        simp only [pieces, same, if_false, known]
        intro piece member
        rcases List.mem_cons.1 member with rfl | inside
        · simp [Ne.symm same, inductionHypothesis first List.mem_cons_self]
        · exact inductionHypothesis piece (List.mem_cons_of_mem _ inside)

/-- What has no separator in it only makes the last piece longer. -/
theorem pieces_append_of_not_mem (text tail : List Char) (absent : separator ∉ tail) :
    ∃ front last, pieces separator text = front ++ [last] ∧
      pieces separator (text ++ tail) = front ++ [last ++ tail] := by
  induction text with
  | nil => exact ⟨[], [], rfl, by simp [pieces_of_not_mem separator tail absent]⟩
  | cons c rest inductionHypothesis =>
    obtain ⟨front, last, before, behind⟩ := inductionHypothesis
    by_cases same : c = separator
    · exact ⟨[] :: front, last, by simp [pieces, same, before], by simp [pieces, same, behind]⟩
    · cases front with
      | nil => exact ⟨[], c :: last, by simp [pieces, same, before], by simp [pieces, same, behind]⟩
      | cons first more =>
        refine ⟨(c :: first) :: more, last, ?_, ?_⟩
        · simp [pieces, same, before]
        · simp [pieces, same, behind]

/-- The pieces are those of the library's own function. -/
theorem pieces_eq_splitOn (text : List Char) : pieces separator text = text.splitOn separator := by
  induction text with
  | nil => simp [pieces]
  | cons c rest inductionHypothesis =>
    rw [pieces, List.splitOn_cons_eq_if_modifyHead, inductionHypothesis]
    by_cases same : c = separator
    · simp [same]
    · cases known : rest.splitOn separator with
      | nil => exact absurd (inductionHypothesis.trans known) (pieces_ne_nil separator rest)
      | cons piece more => simp [same]

/-- A text is what its pieces make up with separators between them. -/
theorem intercalate_pieces (text : List Char) :
    List.intercalate [separator] (pieces separator text) = text := by
  rw [pieces_eq_splitOn, List.intercalate_splitOn]

/-- Texts with separators between them are the pieces of what they make up. -/
theorem pieces_intercalate (texts : List (List Char)) (any : texts ≠ [])
    (whole : ∀ text ∈ texts, separator ∉ text) :
    pieces separator (List.intercalate [separator] texts) = texts := by
  rw [pieces_eq_splitOn, List.splitOn_intercalate separator whole any]

/-- What stands in texts with separators between them stands in one of the texts. -/
theorem mem_intercalate {c : Char} (other : c ≠ separator) (texts : List (List Char)) :
    c ∈ List.intercalate [separator] texts ↔ ∃ text ∈ texts, c ∈ text := by
  induction texts with
  | nil => simp
  | cons first rest inductionHypothesis =>
    cases rest with
    | nil => simp
    | cons second more => simp [List.intercalate_cons_cons, inductionHypothesis, other]

/-! ## The first separator and the last one -/

/-- A text is split at the first separator, if there is none in front of it. -/
theorem splitFirst_append (front back : List Char) (absent : separator ∉ front) :
    splitFirst separator (front ++ separator :: back) = some (front, back) := by
  have passed : ∀ c ∈ front, (c != separator) = true := by
    intro c member
    rw [bne_iff_ne]
    rintro rfl
    exact absent member
  rw [splitFirst, List.dropWhile_append_of_pos passed, List.takeWhile_append_of_pos passed]
  simp

/-- A text is split at its last separator. -/
theorem splitLast_append (front back : List Char) (absent : separator ∉ back) :
    splitLast separator (front ++ separator :: back) = some (front, back) := by
  have mirrored : (front ++ separator :: back).reverse =
      back.reverse ++ separator :: front.reverse := by simp
  rw [splitLast, mirrored, splitFirst_append separator _ _ (by simpa using absent)]
  simp

/-- A text without the separator is not split. -/
theorem splitLast_of_not_mem (text : List Char) (absent : separator ∉ text) :
    splitLast separator text = none := by
  have nothing : text.reverse.dropWhile (· != separator) = [] := by
    rw [List.dropWhile_eq_nil_iff]
    intro c member
    rw [bne_iff_ne]
    rintro rfl
    exact absent (List.mem_reverse.1 member)
  rw [splitLast, splitFirst, nothing]
  rfl

/-- A text is one piece, or has a last separator. -/
theorem exists_last (text : List Char) (member : separator ∈ text) :
    ∃ front back, text = front ++ separator :: back ∧ separator ∉ back := by
  obtain ⟨back, front, same, absent⟩ := List.eq_append_cons_of_mem (List.mem_reverse.2 member)
  refine ⟨front.reverse, back.reverse, ?_, by simpa using absent⟩
  have mirrored := congrArg List.reverse same
  rw [List.reverse_reverse] at mirrored
  simpa using mirrored

end

/-! ## Beginnings and endings -/

/-- A text ends with another one if that one can be split off. -/
theorem endsWith_iff (text ending : String) :
    endsWith text ending = true ↔ ∃ rest : String, text = rest ++ ending := by
  rw [endsWith, List.isSuffixOf_iff_suffix]
  constructor
  · rintro ⟨rest, same⟩
    refine ⟨String.ofList rest, String.toList_inj.1 ?_⟩
    rw [String.toList_append, String.toList_ofList, same]
  · rintro ⟨rest, rfl⟩
    exact ⟨rest.toList, String.toList_append.symm⟩

/-- The ending of a text is dropped if it has that ending. -/
theorem dropEnding_eq_some (text ending rest : String) :
    dropEnding text ending = some rest ↔ text = rest ++ ending := by
  have dropped (front : String) : dropEnding (front ++ ending) ending = some front := by
    rw [dropEnding, if_pos ((endsWith_iff ..).2 ⟨front, rfl⟩), String.toList_append,
      List.length_append, Nat.add_sub_cancel, List.take_left', String.ofList_toList]
    rfl
  constructor
  · intro same
    have ends : endsWith text ending = true := by
      by_contra other
      rw [dropEnding, if_neg other] at same
      cases same
    obtain ⟨front, rfl⟩ := (endsWith_iff ..).1 ends
    rw [dropped] at same
    rw [Option.some.inj same]
  · rintro rfl
    exact dropped rest

end NullGuard.Text
