import NullGuard.Nullness.Scope
import NullGuard.Proofs.Outcome
import NullGuard.Proofs.Text.Split

/-!
# The normal form of a root scope

A root can be spelled with dots or slashes and with a separator behind it, but it is kept
in one form: its segments with slashes between them (`parse_eq_ok`). That form is a spelling
of the root itself, so nothing changes when it is parsed in turn (`parse_stem`).
-/

namespace NullGuard.RootScope

/-- What can stand between the separators of a root. -/
def IsSegment (segment : List Char) : Prop :=
  segment ≠ [] ∧ ∀ c ∈ segment, c ≠ '/' ∧ c ≠ ';' ∧ c ≠ '[' ∧ Text.isBlank c = false

/-- A text with slashes for dots. -/
def slashed (raw : String) : List Char := raw.toList.map fun c => if c = '.' then '/' else c

/-- A text spells segments: there is at least one of them, and perhaps there is a separator
behind the last one. -/
structure Spells (raw : String) (segments : List (List Char)) : Prop where
  any : segments ≠ []
  each : ∀ segment ∈ segments, IsSegment segment
  text : slashed raw = List.intercalate ['/'] segments ∨
    slashed raw = List.intercalate ['/'] segments ++ ['/']

/-! ## What is checked -/

/-- Forbidden in a root are the semicolon, the bracket and blanks. -/
theorem isForbidden_eq_false (c : Char) :
    isForbidden c = false ↔ c ≠ ';' ∧ c ≠ '[' ∧ Text.isBlank c = false := by
  simp only [isForbidden, Bool.or_eq_false_iff, beq_eq_false_iff_ne]
  tauto

/-- After dots have become slashes, no dot is left. -/
theorem not_mem_slashed (raw : String) : '.' ∉ slashed raw := by
  intro member
  obtain ⟨c, -, same⟩ := List.mem_map.1 member
  split at same
  · simp at same
  · contradiction

/-- A text without dots has none to become slashes. -/
theorem slashed_of_not_mem (raw : String) (absent : '.' ∉ raw.toList) :
    slashed raw = raw.toList := by
  have kept : ∀ c ∈ raw.toList, (if c = '.' then '/' else c) = id c := by
    intro c member
    apply if_neg
    rintro rfl
    exact absent member
  rw [slashed, List.map_congr_left kept, List.map_id]

/-- A root is normalized by its slashes and then without a slash at its end. -/
theorem normalized_eq (raw : String) : normalized raw =
    if (slashed raw).getLast? = some '/' then (slashed raw).dropLast else slashed raw := rfl

/-- A separator is taken off the end if there is one. -/
theorem normalized_of_append (raw : String) (text : List Char)
    (closed : slashed raw = text ++ ['/']) : normalized raw = text := by
  simp [normalized_eq, closed]

/-- One separator at most is taken off. -/
theorem slashed_eq (raw : String) :
    slashed raw = normalized raw ∨ slashed raw = normalized raw ++ ['/'] := by
  by_cases closed : (slashed raw).getLast? = some '/'
  · right
    rw [normalized_eq, if_pos closed, List.dropLast_append_getLast? '/' closed]
  · left
    rw [normalized_eq, if_neg closed]

/-- A root is what the text comes to if that passes all checks. -/
theorem parse_eq_ok_iff_checks (raw : String) (root : RootScope) :
    parse raw = .ok root ↔ normalized raw ≠ [] ∧
      (∀ c ∈ normalized raw, isForbidden c = false) ∧
      [] ∉ Text.pieces '/' (normalized raw) ∧
      root.stem.toList = normalized raw := by
  have kept (text : List Char) :
      (Except.ok ⟨String.ofList text⟩ : Except Failure RootScope) = .ok root ↔
        root.stem.toList = text := by
    cases root
    rw [Except.ok.injEq, mk.injEq, ← String.toList_inj, String.toList_ofList, eq_comm]
  simp only [parse, Outcome.check_eq_ok, kept]
  simp

/-! ## Spellings -/

variable {raw : String} {segments : List (List Char)}

/-- A segment has no slash. -/
theorem IsSegment.not_mem {segment : List Char} (fits : IsSegment segment) : '/' ∉ segment :=
  fun member => (fits.2 '/' member).1 rfl

namespace Spells

variable (spells : Spells raw segments)
include spells

/-- No segment is empty. -/
theorem filled : [] ∉ segments := fun member => (spells.each [] member).1 rfl

/-- Segments between slashes are found again. -/
theorem pieces_eq : Text.pieces '/' (List.intercalate ['/'] segments) = segments :=
  Text.pieces_intercalate '/' segments spells.any
    fun segment member => (spells.each segment member).not_mem

/-- A text that ends in a separator has an empty piece behind it. -/
theorem getLast?_ne : (List.intercalate ['/'] segments).getLast? ≠ some '/' := by
  intro closed
  have ended := spells.pieces_eq
  rw [← List.dropLast_append_getLast? '/' closed, Text.pieces_append] at ended
  apply spells.filled
  rw [← ended]
  simp [Text.pieces]

/-- The normal form of a root has its segments between slashes. -/
theorem normalized_eq : normalized raw = List.intercalate ['/'] segments := by
  rcases spells.text with whole | closed
  · rw [RootScope.normalized_eq, whole, if_neg spells.getLast?_ne]
  · exact normalized_of_append raw _ closed

/-- A root that is well spelled is not empty. -/
theorem ne_nil : List.intercalate ['/'] segments ≠ [] := by
  intro empty
  have parts := spells.pieces_eq
  rw [empty] at parts
  apply spells.filled
  simp [← parts, Text.pieces]

/-- Neither segments nor slashes hold anything forbidden. -/
theorem isForbidden_eq_false (c : Char) (member : c ∈ List.intercalate ['/'] segments) :
    isForbidden c = false := by
  by_cases separates : c = '/'
  · subst separates
    decide
  · obtain ⟨segment, inside, here⟩ := (Text.mem_intercalate '/' separates segments).1 member
    exact (RootScope.isForbidden_eq_false c).2 ((spells.each segment inside).2 c here).2

end Spells

/-- Parsing succeeds for the texts that spell segments, and what is kept is the segments
with slashes between them. -/
theorem parse_eq_ok (raw : String) (root : RootScope) :
    parse raw = .ok root ↔ ∃ segments, Spells raw segments ∧
      root.stem.toList = List.intercalate ['/'] segments := by
  rw [parse_eq_ok_iff_checks]
  constructor
  · rintro ⟨filled, allowed, whole, same⟩
    have joined := Text.intercalate_pieces '/' (normalized raw)
    refine ⟨Text.pieces '/' (normalized raw), ⟨Text.pieces_ne_nil '/' _, ?_, ?_⟩, ?_⟩
    · intro segment member
      refine ⟨?_, fun c here => ?_⟩
      · rintro rfl
        exact whole member
      have apart : c ≠ '/' := by
        rintro rfl
        exact Text.not_mem_of_mem_pieces '/' _ segment member here
      have inside : c ∈ normalized raw := by
        rw [← joined, Text.mem_intercalate '/' apart]
        exact ⟨segment, member, here⟩
      exact ⟨apart, (isForbidden_eq_false c).1 (allowed c inside)⟩
    · rw [joined]
      exact slashed_eq raw
    · rw [joined, same]
  · rintro ⟨segments, spells, same⟩
    rw [spells.normalized_eq, spells.pieces_eq]
    exact ⟨spells.ne_nil, spells.isForbidden_eq_false, spells.filled, same⟩

/-- What is kept of a root spells it. -/
theorem Spells.stem (spells : Spells raw segments) {root : RootScope}
    (kept : root.stem.toList = List.intercalate ['/'] segments) : Spells root.stem segments := by
  refine ⟨spells.any, spells.each, .inl ?_⟩
  rw [← kept]
  apply slashed_of_not_mem
  intro member
  apply not_mem_slashed raw
  rw [kept] at member
  rcases spells.text with whole | closed
  · rwa [whole]
  · rw [closed]
    exact List.mem_append_left _ member

/-- What is kept of a root is parsed as the same root. -/
theorem parse_stem (raw : String) (root : RootScope) (parsed : parse raw = .ok root) :
    parse root.stem = .ok root := by
  obtain ⟨segments, spells, kept⟩ := (parse_eq_ok raw root).1 parsed
  exact (parse_eq_ok root.stem root).2 ⟨segments, spells.stem kept, kept⟩

end NullGuard.RootScope
