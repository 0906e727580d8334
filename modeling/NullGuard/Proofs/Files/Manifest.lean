import Mathlib.Data.List.Nodup
import NullGuard.Files.Manifest
import NullGuard.Proofs.Outcome
import NullGuard.Proofs.Text.Split

/-!
# Folded manifests

A header can be cut anywhere behind its colon and goes on in a line that begins with a space;
a line can end in two ways. Neither matters: the lines of a text are found again
(`lines_of_ended`), the lines of a header make one header, whatever was read before
(`Folds.exists_header`), and what was cut off the front of its value are blanks, which do not
belong to any part of it (`partsOf_dropWhile`).
-/

namespace NullGuard.Manifest

/-! ## Parts between blanks -/

/-- What stands between the blanks of a text. -/
def partsOf (text : List Char) : List (List Char) :=
  (text.splitOnP Text.isBlank).filter (· ≠ [])

/-- A blank ends a part, and another one begins behind it. -/
theorem partsOf_append_cons (front : List Char) {c : Char} (blank : Text.isBlank c = true)
    (back : List Char) : partsOf (front ++ c :: back) = partsOf front ++ partsOf back := by
  rw [partsOf, List.splitOnP_append_cons front back blank, List.filter_append]
  rfl

/-- A text without blanks is one part. -/
theorem partsOf_solid {text : List Char} (solid : ∀ c ∈ text, Text.isBlank c = false) :
    partsOf text = if text = [] then [] else [text] := by
  rw [partsOf, List.splitOnP_eq_singleton solid]
  by_cases empty : text = []
  · simp [empty]
  · simp [empty]

/-- Blanks in front belong to no part. -/
theorem partsOf_dropWhile (front back : List Char) :
    partsOf (front.dropWhile Text.isBlank ++ back) = partsOf (front ++ back) := by
  induction front with
  | nil => rfl
  | cons c rest inductionHypothesis =>
    by_cases blank : Text.isBlank c = true
    · have passed := partsOf_append_cons [] blank (rest ++ back)
      rw [List.dropWhile_cons_of_pos blank, inductionHypothesis]
      simpa [partsOf_solid] using passed.symm
    · rw [List.dropWhile_cons_of_neg blank]

/-- Words are split off one character at a time; `part` is what has been read of the one at
hand, last character first. -/
theorem wordsFrom_eq (part text : List Char) (solid : ∀ c ∈ part, Text.isBlank c = false) :
    wordsFrom part text = partsOf (part.reverse ++ text) := by
  induction text generalizing part with
  | nil =>
    rw [List.append_nil, partsOf_solid (by simpa using solid)]
    simp [wordsFrom]
  | cons c rest inductionHypothesis =>
    by_cases blank : Text.isBlank c = true
    · have behind := inductionHypothesis [] (by simp)
      rw [partsOf_append_cons _ blank, partsOf_solid (by simpa using solid), wordsFrom,
        if_pos blank, behind]
      by_cases empty : part = []
      · simp [empty]
      · simp [empty]
    · have longer : ∀ other ∈ c :: part, Text.isBlank other = false :=
        List.forall_mem_cons.2 ⟨Bool.eq_false_iff.2 blank, solid⟩
      rw [wordsFrom, if_neg blank, inductionHypothesis (c :: part) longer]
      simp

/-- The words of a text are its parts between blanks. -/
theorem words_eq (text : List Char) : words text = partsOf text :=
  wordsFrom_eq [] text (by simp)

/-! ## Lines -/

/-- What can stand in one line. -/
def IsLine (text : List Char) : Prop := '\n' ∉ text ∧ '\r' ∉ text

/-- Two texts are on a line if each of them is. -/
theorem isLine_append {front back : List Char} :
    IsLine (front ++ back) ↔ IsLine front ∧ IsLine back := by
  simp only [IsLine, List.mem_append]
  tauto

/-- A character is on a line with others if it breaks no line. -/
theorem isLine_cons {c : Char} {text : List Char} :
    IsLine (c :: text) ↔ c ≠ '\n' ∧ c ≠ '\r' ∧ IsLine text := by
  simp only [IsLine, List.mem_cons, ne_eq, eq_comm]
  tauto

/-- Texts are on a line if each of them is. -/
theorem isLine_flatten {texts : List (List Char)} :
    IsLine texts.flatten ↔ ∀ text ∈ texts, IsLine text := by
  induction texts with
  | nil => simp [IsLine]
  | cons text others inductionHypothesis =>
    rw [List.flatten_cons, isLine_append, inductionHypothesis, List.forall_mem_cons]

/-- What a line ends with. -/
inductive LineEnd
  | lineFeed
  | carriageReturn
  deriving DecidableEq, Repr

/-- A line feed, perhaps behind a carriage return. -/
def LineEnd.text : LineEnd → List Char
  | .lineFeed => ['\n']
  | .carriageReturn => ['\r', '\n']

/-- A text is made of lines, each one with an end of its own. The last one may end with the
text, unless there is nothing in it. -/
inductive Ended : List (List Char) → List Char → Prop
  | nothing : Ended [] []
  | last (line : List Char) (filled : line ≠ []) : Ended [line] line
  | line (line : List Char) (ending : LineEnd) {rest : List (List Char)} {text : List Char}
    (behind : Ended rest text) : Ended (line :: rest) (line ++ (ending.text ++ text))

/-- A line has no break at its end that could be dropped. -/
theorem dropEndWhile_of_isLine {line : List Char} (whole : IsLine line) :
    dropEndWhile (· == '\r') line = line := by
  refine List.rdropWhile_eq_self_iff.2 fun filled ended => ?_
  rw [beq_iff_eq] at ended
  apply whole.2
  rw [← ended]
  exact List.getLast_mem filled

/-- A line ends at the first line feed. -/
theorem lines_append_cons (front back : List Char) (inside : '\n' ∉ front) :
    lines (front ++ '\n' :: back) = dropEndWhile (· == '\r') front :: lines back := by
  rw [lines, lines, Text.pieces_append, Text.pieces_of_not_mem _ _ inside]
  cases known : Text.pieces '\n' back with
  | nil => exact absurd known (Text.pieces_ne_nil _ _)
  | cons first more =>
    by_cases ended : (first :: more).getLast? = some []
    · simp [ended, List.dropLast_cons_of_ne_nil]
    · simp [ended]

/-- A line and its end are taken off. -/
theorem lines_append (line : List Char) (whole : IsLine line) (ending : LineEnd)
    (text : List Char) : lines (line ++ (ending.text ++ text)) = line :: lines text := by
  cases ending with
  | lineFeed =>
    rw [LineEnd.text, List.singleton_append, lines_append_cons line text whole.1,
      dropEndWhile_of_isLine whole]
  | carriageReturn =>
    have closed : '\n' ∉ line ++ ['\r'] := by simp [whole.1]
    have front : line ++ (LineEnd.carriageReturn.text ++ text) =
        (line ++ ['\r']) ++ '\n' :: text := by simp [LineEnd.text]
    rw [front, lines_append_cons _ text closed]
    congr 1
    exact (List.rdropWhile_concat_pos _ _ _ rfl).trans (dropEndWhile_of_isLine whole)

/-- The lines are found again. -/
theorem lines_of_ended {all : List (List Char)} {text : List Char} (ended : Ended all text)
    (whole : ∀ line ∈ all, IsLine line) : lines text = all := by
  induction ended with
  | nothing => rfl
  | last line filled =>
    have single := whole line List.mem_cons_self
    simp [lines, Text.pieces_of_not_mem _ _ single.1, filled, dropEndWhile_of_isLine single]
  | line line ending behind inductionHypothesis =>
    rw [List.forall_mem_cons] at whole
    rw [lines_append line whole.1, inductionHypothesis whole.2]

/-! ## Headers -/

/-- A header as it is meant: a name in front of a colon and a value. -/
structure Field where
  name : List Char
  value : List Char
  nameIsLine : IsLine name
  valueIsLine : IsLine value
  noColon : ':' ∉ name
  noSpace : name.head? ≠ some ' '

namespace Field

/-- The name without blanks at either end. -/
def key (field : Field) : List Char :=
  (field.name.dropWhile Text.isBlank).rdropWhile Text.isBlank

/-- The lines of a header that is cut behind its colon, perhaps several times. -/
inductive Folded (field : Field) : List (List Char) → Prop
  | cut (first : List Char) (more : List (List Char))
    (whole : first ++ more.flatten = field.value) :
    Folded field ((field.name ++ ':' :: first) :: more.map (' ' :: ·))

variable {field : Field}

/-- The lines of a folded header are lines. -/
theorem Folded.isLine {group : List (List Char)} (folded : field.Folded group) :
    ∀ line ∈ group, IsLine line := by
  cases folded with
  | cut first more whole =>
    have name := field.nameIsLine
    have value := field.valueIsLine
    rw [← whole, isLine_append, isLine_flatten] at value
    rw [List.forall_mem_cons, List.forall_mem_map]
    refine ⟨isLine_append.2 ⟨name, isLine_cons.2 ⟨by decide, by decide, value.1⟩⟩, ?_⟩
    exact fun part member => isLine_cons.2 ⟨by decide, by decide, value.2 part member⟩

end Field

/-- What is read of a header: its name, and a value with the same parts. -/
structure Header.Reads (header : Header) (field : Field) : Prop where
  name : header.name = field.key
  parts : partsOf header.value = partsOf field.value

namespace Unfolding

variable (unfolding : Unfolding)

/-- The first line of a header begins another one. -/
theorem add_first (field : Field) (first : List Char) :
    unfolding.add (field.name ++ ':' :: first) =
      ⟨⟨field.key, [first.dropWhile Text.isBlank]⟩ :: unfolding.headers, true⟩ := by
  have begins (more : List Char) : field.name ++ ':' :: first ≠ ' ' :: more := by
    intro same
    have spaced := field.noSpace
    cases named : field.name with
    | nil => simp [named] at same
    | cons c rest =>
      rw [named] at same spaced
      exact spaced (congrArg List.head? same)
  rw [add, Text.splitFirst_append ':' _ _ field.noColon]
  · rfl
  · exact begins

/-- The other lines go on with it. -/
theorem foldl_more (more : List (List Char)) (header : Header) (rest : List Header) :
    (more.map (' ' :: ·)).foldl add ⟨header :: rest, true⟩ =
      ⟨{ header with parts := more.reverse ++ header.parts } :: rest, true⟩ := by
  induction more generalizing header with
  | nil => rfl
  | cons part others inductionHypothesis =>
    rw [List.map_cons, List.foldl_cons, add]
    dsimp only
    rw [inductionHypothesis]
    simp

/-- Empty lines add no header. -/
theorem headers_foldl_blank (count : Nat) :
    ((List.replicate count []).foldl add unfolding).headers = unfolding.headers := by
  induction count generalizing unfolding with
  | zero => rfl
  | succ count inductionHypothesis =>
    rw [List.replicate_succ, List.foldl_cons, inductionHypothesis]
    rfl

end Unfolding

/-- The lines of a header are read as one header, whatever was read before. -/
theorem Field.Folded.exists_header {field : Field} {group : List (List Char)}
    (folded : field.Folded group) : ∃ header : Header, header.Reads field ∧
      ∀ unfolding, group.foldl Unfolding.add unfolding =
        ⟨header :: unfolding.headers, true⟩ := by
  cases folded with
  | cut first more whole =>
    refine ⟨⟨field.key, more.reverse ++ [first.dropWhile Text.isBlank]⟩, ⟨rfl, ?_⟩, ?_⟩
    · rw [← whole, ← partsOf_dropWhile]
      simp [Header.value]
    · intro unfolding
      rw [List.foldl_cons, Unfolding.add_first, Unfolding.foldl_more]

/-- The lines of several headers are read as these headers, one behind the other. -/
theorem foldl_groups {fields : List Field} {groups : List (List (List Char))}
    (folded : List.Forall₂ Field.Folded fields groups) (unfolding : Unfolding) :
    ∃ read : List Header, List.Forall₂ (fun field header => header.Reads field) fields read ∧
      (groups.flatten.foldl Unfolding.add unfolding).headers =
        read.reverse ++ unfolding.headers := by
  induction folded generalizing unfolding with
  | nil => exact ⟨[], .nil, rfl⟩
  | cons first others inductionHypothesis =>
    obtain ⟨header, reads, ran⟩ := first.exists_header
    obtain ⟨read, each, behind⟩ := inductionHypothesis ⟨header :: unfolding.headers, true⟩
    refine ⟨header :: read, .cons reads each, ?_⟩
    rw [List.flatten_cons, List.foldl_append, ran, behind]
    simp

/-- A text is a manifest of one section with some headers: each is folded somehow, each line
is ended somehow, and there may be empty lines behind the section. -/
inductive Spells (fields : List Field) (text : List Char) : Prop
  | of (groups : List (List (List Char))) (empty : Nat)
    (folded : List.Forall₂ Field.Folded fields groups)
    (ended : Ended (groups.flatten ++ List.replicate empty []) text)

/-- The headers of a manifest are read in their order. -/
theorem headers_of_spells {fields : List Field} {text : List Char} (spells : Spells fields text) :
    ∃ read : List Header, List.Forall₂ (fun field header => header.Reads field) fields read ∧
      headers text = read.reverse := by
  obtain ⟨groups, empty, folded, ended⟩ := spells
  obtain ⟨read, each, ran⟩ := foldl_groups folded ⟨[], false⟩
  have whole : ∀ line ∈ groups.flatten ++ List.replicate empty [], IsLine line := by
    intro line member
    rcases List.mem_append.1 member with inside | blank
    · obtain ⟨group, here, there⟩ := List.mem_flatten.1 inside
      obtain ⟨field, -, cut⟩ := Outcome.exists_of_forall₂ folded group here
      exact cut.isLine line there
    · simp [List.eq_of_mem_replicate blank, IsLine]
  refine ⟨read, each, ?_⟩
  rw [headers, lines_of_ended ended whole, List.foldl_append, Unfolding.headers_foldl_blank, ran,
    List.append_nil]

/-! ## The class path -/

/-- The path that a part of the class path stands for: an absolute one stands for itself,
others are joined to the directory of the jar. -/
def located (jar : String) (part : List Char) : String :=
  let path := String.ofList part
  if Path.isAbsolute path then path else Path.join ((Path.parent? jar).getD "") path

/-- A part of a class path is located from where the jar is. -/
theorem join_eq_located (jar : String) (part : List Char) :
    Path.join ((Path.parent? jar).getD "") (String.ofList part) = located jar part := by
  rw [located]
  by_cases absolute : Path.isAbsolute (String.ofList part) = true
  · simp [Path.join, absolute]
  · simp [absolute]

/-- How a manifest is folded, and how its lines end, does not matter. If no two headers of a
section have the same name, then the class path holds the parts of the value of the header
with its name, in order, absolute ones as they are and others joined to the directory of the
jar; if there is no such header, it holds nothing. -/
theorem classPath_folded (jar text : String) (fields : List Field)
    (distinct : (fields.map Field.key).Nodup) (spells : Spells fields text.toList) :
    (∀ field ∈ fields, field.key = classPathName →
      classPath jar text = (partsOf field.value).map (located jar)) ∧
    ((∀ field ∈ fields, field.key ≠ classPathName) → classPath jar text = []) := by
  obtain ⟨read, each, same⟩ := headers_of_spells spells
  have origin (header : Header) (member : header ∈ read.reverse) :
      ∃ field ∈ fields, header.Reads field :=
    Outcome.exists_of_forall₂ each header (List.mem_reverse.1 member)
  rw [classPath, same]
  constructor
  · intro field member named
    cases found : read.reverse.find? fun header => header.name == classPathName with
    | none =>
      obtain ⟨header, inside, reads⟩ := Outcome.exists_of_forall₂
        (R := fun (header : Header) field => header.Reads field) each.flip field member
      have other := List.find?_eq_none.1 found header (List.mem_reverse.2 inside)
      simp [reads.name, named] at other
    | some header =>
      -- Names are distinct, so the header that was found is the one that was meant.
      obtain ⟨meant, inside, reads⟩ := origin header (List.mem_of_find?_eq_some found)
      have name : meant.key = field.key := by
        rw [named, ← reads.name]
        simpa using List.find?_some found
      obtain rfl := List.inj_on_of_nodup_map distinct inside member name
      simp only [words_eq, reads.parts, join_eq_located]
  · intro absent
    have nothing : (read.reverse.find? fun header => header.name == classPathName) = none := by
      rw [List.find?_eq_none]
      intro header inside
      obtain ⟨field, member, reads⟩ := origin header inside
      simpa [reads.name] using absent field member
    rw [nothing]

/-- A header that tells the version of a manifest. -/
def versionField : Field :=
  ⟨"Manifest-Version".toList, " 1.0".toList, ⟨by decide, by decide⟩, ⟨by decide, by decide⟩,
    by decide, by decide⟩

/-- A header that lists two jars beside a jar and one elsewhere. -/
def jarsField : Field :=
  ⟨"Class-Path".toList, " a.jar b.jar /c.jar".toList, ⟨by decide, by decide⟩,
    ⟨by decide, by decide⟩, by decide, by decide⟩

/-- The second header is cut in the middle of a name, and the lines end in both ways. -/
def cutText : String := "Manifest-Version: 1.0\r\nClass-Path: a.jar b\r\n .jar /c.jar\n"

/-- The text with the cut header spells its two headers. -/
theorem spells_cutText : Spells [versionField, jarsField] cutText.toList := by
  have version : versionField.Folded ["Manifest-Version: 1.0".toList] :=
    .cut " 1.0".toList [] (by decide)
  have jars : jarsField.Folded ["Class-Path: a.jar b".toList, " .jar /c.jar".toList] :=
    .cut " a.jar b".toList [".jar /c.jar".toList] (by decide)
  have text : cutText.toList = "Manifest-Version: 1.0".toList ++ (LineEnd.carriageReturn.text ++
      ("Class-Path: a.jar b".toList ++ (LineEnd.carriageReturn.text ++
        (" .jar /c.jar".toList ++ (LineEnd.lineFeed.text ++ []))))) := by decide +kernel
  rw [text]
  exact .of _ 0 (.cons version (.cons jars .nil)) (.line _ _ (.line _ _ (.line _ _ .nothing)))

/-- A class path that is cut inside a name has three entries all the same. -/
theorem classPath_folded_cutText :
    ([versionField, jarsField].map Field.key).Nodup ∧
      Spells [versionField, jarsField] cutText.toList ∧
      classPath "/opt/app/main.jar" cutText = ["/opt/app/a.jar", "/opt/app/b.jar", "/c.jar"] := by
  have distinct : ([versionField, jarsField].map Field.key).Nodup := by decide
  obtain ⟨listed, -⟩ := classPath_folded "/opt/app/main.jar" cutText [versionField, jarsField]
    distinct spells_cutText
  refine ⟨distinct, spells_cutText, ?_⟩
  rw [listed jarsField (by simp) (by decide)]
  decide +kernel

end NullGuard.Manifest
