import NullGuard.Annotations.Tree
import NullGuard.Proofs.Bytes.Reading

/-!
# The grammar of annotations

`WellFormed` says which annotations there are: constants have one of ten tags, and
everything can be counted in two bytes; how deep values nest is not bounded. An annotation
is read exactly from the written form of a well-formed one (`types_eq_ok`). The reader may
only go to a given depth. Since a value takes at least one byte for each level, the number
of bytes is always deep enough: from there on a greater depth changes nothing
(`ElementValue.agreeUpTo_read`), so reading comes to an end without any bound as well.
-/

namespace NullGuard

/-! ## Well-formed annotations -/

/-- A constant with one of the ten tags, a constant of an enumeration, another annotation,
or an array of values. Elements and items can be counted in two bytes. -/
inductive ElementValue.WellFormed : ElementValue → Prop
  | constant (tag : UInt8) (index : UInt16) (known : tag ∈ constantTags) :
    WellFormed (.constant tag index)
  | enumeration (type name : UInt16) : WellFormed (.enumeration type name)
  | nested (inner : AnnotationTree) (few : inner.elements.length < 65536)
      (values : ∀ element ∈ inner.elements, WellFormed element.2) : WellFormed (.nested inner)
  | array (values : List ElementValue) (few : values.length < 65536)
      (each : ∀ value ∈ values, WellFormed value) : WellFormed (.array values)

/-- The elements can be counted in two bytes, and their values are well-formed. -/
structure AnnotationTree.WellFormed (tree : AnnotationTree) : Prop where
  few : tree.elements.length < 65536
  values : ∀ element ∈ tree.elements, element.2.WellFormed

/-- The written form of an element with its value. -/
def ElementValue.writtenElement (element : UInt16 × ElementValue) : List UInt8 :=
  Written.u16 element.1 ++ element.2.written

/-- The byte forms of the elements are those of each element, one after the other. -/
theorem ElementValue.elementsBefore_eq (elements : List (UInt16 × ElementValue)) :
    elementsBefore elements [] = elements.flatMap writtenElement := by
  induction elements with
  | nil => rfl
  | cons element others inductionHypothesis =>
    rw [elementsBefore, writtenBefore_eq, inductionHypothesis, List.flatMap_cons, writtenElement,
      List.append_assoc]

/-- The byte forms of the items of an array are those of each item, one after the other. -/
theorem ElementValue.allBefore_eq (values : List ElementValue) :
    allBefore values [] = values.flatMap written := by
  induction values with
  | nil => rfl
  | cons value others inductionHypothesis =>
    rw [allBefore, writtenBefore_eq, inductionHypothesis, List.flatMap_cons]

/-- The byte form of an annotation: its type, the number of its elements and the elements.
-/
theorem AnnotationTree.written_eq (tree : AnnotationTree) :
    tree.written = Written.u16 tree.type ++ (Written.u16 (UInt16.ofNat tree.elements.length) ++
      tree.elements.flatMap ElementValue.writtenElement) := by
  obtain ⟨type, elements⟩ := tree
  rw [written, writtenBefore, ElementValue.elementsBefore_eq]
  rfl

/-- An annotation as a value is written behind the tag of such values. -/
theorem ElementValue.written_nested (inner : AnnotationTree) :
    written (.nested inner) = 64 :: inner.written := rfl

/-- An array is written as its tag, the number of its items and the items. -/
theorem ElementValue.written_array (values : List ElementValue) :
    written (.array values) =
      91 :: (Written.u16 (UInt16.ofNat values.length) ++ values.flatMap written) := by
  rw [written, writtenBefore, allBefore_eq]
  rfl

/-- The bytes of a row are among those of all rows. -/
theorem length_le_flatMap {α : Type} (written : α → List UInt8) {row : α} {rows : List α}
    (member : row ∈ rows) : (written row).length ≤ (rows.flatMap written).length := by
  rw [List.flatMap_def]
  exact (List.infix_of_mem_flatten (List.mem_map_of_mem member)).length_le

/-! ## Reading -/

/-- An annotation ends where its last value ends. -/
instance (value : Reader ElementValue) [value.Local] : (AnnotationTree.readWith value).Local := by
  unfold AnnotationTree.readWith
  infer_instance

/-- A value is read without a look at what follows, however deep it is nested. The induction
is on the depth. -/
instance (depth : Nat) : (ElementValue.read depth).Local := by
  induction depth with
  | zero =>
    unfold ElementValue.read
    infer_instance
  | succ depth inductionHypothesis =>
    unfold ElementValue.read
    infer_instance

/-- An annotation is read without a look at what follows. -/
instance (depth : Nat) : (AnnotationTree.read depth).Local := by
  unfold AnnotationTree.read
  infer_instance

/-- What follows the tag of a value that is nested at most `depth + 1` levels deep. -/
def ElementValue.readTagged (depth : Nat) (tag : UInt8) : Reader ElementValue :=
  if tag ∈ constantTags then do return .constant tag (← Reader.u16)
  else if tag = 101 then do
    let type ← Reader.u16
    return .enumeration type (← Reader.u16)
  else if tag = 64 then do return .nested (← AnnotationTree.readWith (read depth))
  else if tag = 91 then do return .array (← Reader.table (read depth))
  else fail (.unknownElementTag tag)

/-- A value is its tag and what the tag asks for; only there the depth counts down. -/
theorem ElementValue.read_succ (depth : Nat) :
    read (depth + 1) = Reader.u8 >>= readTagged depth := rfl

/-- What follows a tag is read without a look behind it. -/
instance (depth : Nat) (tag : UInt8) : (ElementValue.readTagged depth tag).Local := by
  unfold ElementValue.readTagged
  infer_instance

/-- The next element with its value. -/
def ElementValue.readElement (value : Reader ElementValue) : Reader (UInt16 × ElementValue) := do
  let name ← Reader.u16
  return (name, ← value)

/-- An annotation is its type and a table of elements. -/
theorem AnnotationTree.readWith_eq (value : Reader ElementValue) :
    readWith value = do
      let type ← Reader.u16
      return .mk type (← Reader.table (ElementValue.readElement value)) := rfl

/-- An element ends where its value ends. -/
instance (value : Reader ElementValue) [value.Local] : (ElementValue.readElement value).Local := by
  unfold ElementValue.readElement
  infer_instance

section Values

variable {value : Reader ElementValue} [value.Local]

/-- An element is taken as its name followed by its value. -/
theorem ElementValue.takes_readElement (front : List UInt8) (element : UInt16 × ElementValue) :
    (readElement value).Takes front element ↔
      ∃ back, front = Written.u16 element.1 ++ back ∧ value.Takes back element.2 := by
  rw [readElement, Reader.takes_u16_bind]
  simp only [bind_pure_comp, Reader.takes_map]
  constructor
  · rintro ⟨name, back, rfl, found, taken, rfl⟩
    exact ⟨back, rfl, taken⟩
  · rintro ⟨back, rfl, taken⟩
    exact ⟨element.1, back, rfl, element.2, taken, rfl⟩

/-- An annotation is taken with the table of its elements. -/
theorem AnnotationTree.takes_readWith (front : List UInt8) (tree : AnnotationTree) :
    (readWith value).Takes front tree ↔
      ∃ back, front = Written.u16 tree.type ++ back ∧
        (Reader.table (ElementValue.readElement value)).Takes back tree.elements := by
  rw [readWith_eq, Reader.takes_u16_bind]
  simp only [bind_pure_comp, Reader.takes_map]
  constructor
  · rintro ⟨type, back, rfl, elements, taken, rfl⟩
    exact ⟨back, rfl, taken⟩
  · rintro ⟨back, rfl, taken⟩
    obtain ⟨type, elements⟩ := tree
    exact ⟨type, back, rfl, elements, taken, rfl⟩

/-- An annotation is read from its written form only, if its values are. -/
theorem AnnotationTree.of_takes_readWith
    (sound : ∀ front found, value.Takes front found → front = found.written ∧ found.WellFormed)
    (front : List UInt8) (tree : AnnotationTree) (took : (readWith value).Takes front tree) :
    front = tree.written ∧ tree.WellFormed := by
  obtain ⟨back, rfl, taken⟩ := (takes_readWith ..).1 took
  have element (front : List UInt8) (element : UInt16 × ElementValue)
      (took : (ElementValue.readElement value).Takes front element) :
      front = ElementValue.writtenElement element ∧ element.2.WellFormed := by
    obtain ⟨back, rfl, taken⟩ := (ElementValue.takes_readElement ..).1 took
    obtain ⟨rfl, wellFormed⟩ := sound back element.2 taken
    exact ⟨rfl, wellFormed⟩
  obtain ⟨rfl, few, values⟩ := Reader.of_takes_table element back tree.elements taken
  exact ⟨tree.written_eq.symm, few, values⟩

/-- A well-formed annotation is read from its written form, if its values are. -/
theorem AnnotationTree.takes_readWith_written (tree : AnnotationTree)
    (few : tree.elements.length < 65536)
    (complete : ∀ element ∈ tree.elements, value.Takes element.2.written element.2) :
    (readWith value).Takes tree.written tree := by
  refine (takes_readWith ..).2 ⟨_, tree.written_eq, ?_⟩
  refine Reader.takes_table_of_each (fun element member => ?_) few
  exact (ElementValue.takes_readElement ..).2 ⟨_, rfl, complete element member⟩

end Values

namespace ElementValue

/-- A value is read only from its written form, however deep it nests. -/
theorem of_takes_read (depth : Nat) (front : List UInt8) (value : ElementValue)
    (took : (read depth).Takes front value) : front = value.written ∧ value.WellFormed := by
  induction depth generalizing front value with
  | zero => exact (Reader.takes_fail _ _ _ took).elim
  | succ depth inductionHypothesis =>
    rw [read_succ, Reader.takes_u8_bind] at took
    obtain ⟨tag, back, rfl, taken⟩ := took
    unfold readTagged at taken
    by_cases known : tag ∈ constantTags
    · rw [if_pos known, bind_pure_comp, Reader.takes_map] at taken
      obtain ⟨index, taken, rfl⟩ := taken
      obtain rfl := (Reader.takes_u16 ..).1 taken
      exact ⟨by simp [written, writtenBefore], .constant tag index known⟩
    rw [if_neg known] at taken
    by_cases enumeration : tag = 101
    · rw [if_pos enumeration, Reader.takes_u16_bind] at taken
      obtain ⟨type, rest, rfl, taken⟩ := taken
      rw [bind_pure_comp, Reader.takes_map] at taken
      obtain ⟨name, taken, rfl⟩ := taken
      obtain rfl := (Reader.takes_u16 ..).1 taken
      exact ⟨by simp [written, writtenBefore, enumeration], .enumeration type name⟩
    rw [if_neg enumeration] at taken
    by_cases nested : tag = 64
    · rw [if_pos nested, bind_pure_comp, Reader.takes_map] at taken
      obtain ⟨inner, taken, rfl⟩ := taken
      obtain ⟨rfl, few, values⟩ :=
        AnnotationTree.of_takes_readWith inductionHypothesis back inner taken
      exact ⟨by rw [nested, written_nested], .nested inner few values⟩
    rw [if_neg nested] at taken
    by_cases array : tag = 91
    · rw [if_pos array, bind_pure_comp, Reader.takes_map] at taken
      obtain ⟨values, taken, rfl⟩ := taken
      obtain ⟨rfl, few, each⟩ := Reader.of_takes_table inductionHypothesis back values taken
      exact ⟨by rw [array, written_array], .array values few each⟩
    rw [if_neg array] at taken
    exact (Reader.takes_fail _ _ _ taken).elim

/-- A well-formed value is read from its written form. The depth has to be that of the
value at most, which is less than the number of its bytes. -/
theorem takes_read_written (depth : Nat) (value : ElementValue) (wellFormed : value.WellFormed)
    (enough : value.written.length ≤ depth) : (read depth).Takes value.written value := by
  induction depth generalizing value with
  | zero => cases wellFormed <;> simp [written, writtenBefore] at enough
  | succ depth inductionHypothesis =>
    rw [read_succ, Reader.takes_u8_bind]
    cases wellFormed with
    | constant tag index known =>
      refine ⟨tag, Written.u16 index, by simp [written, writtenBefore], ?_⟩
      rw [readTagged, if_pos known, bind_pure_comp, Reader.takes_map]
      exact ⟨index, (Reader.takes_u16 ..).2 rfl, rfl⟩
    | enumeration type name =>
      refine ⟨101, Written.u16 type ++ Written.u16 name, by simp [written, writtenBefore], ?_⟩
      rw [readTagged, if_neg (by decide), if_pos rfl, Reader.takes_u16_bind]
      refine ⟨type, Written.u16 name, rfl, ?_⟩
      rw [bind_pure_comp, Reader.takes_map]
      exact ⟨name, (Reader.takes_u16 ..).2 rfl, rfl⟩
    | nested inner few values =>
      refine ⟨64, inner.written, written_nested inner, ?_⟩
      rw [readTagged, if_neg (by decide), if_neg (by decide), if_pos rfl, bind_pure_comp,
        Reader.takes_map]
      refine ⟨inner, AnnotationTree.takes_readWith_written inner few ?_, rfl⟩
      intro element member
      have part := length_le_flatMap writtenElement member
      rw [written_nested, inner.written_eq] at enough
      simp only [List.length_cons, List.length_append, writtenElement] at enough part
      exact inductionHypothesis element.2 (values element member) (by omega)
    | array values few each =>
      refine ⟨91, _, written_array values, ?_⟩
      rw [readTagged, if_neg (by decide), if_neg (by decide), if_neg (by decide), if_pos rfl,
        bind_pure_comp, Reader.takes_map]
      refine ⟨values, Reader.takes_table_of_each ?_ few, rfl⟩
      intro value member
      have part := length_le_flatMap written member
      rw [written_array] at enough
      simp only [List.length_cons, List.length_append] at enough
      exact inductionHypothesis value (each value member) (by omega)

end ElementValue

namespace AnnotationTree

/-- An annotation is read only from its written form, however deep it nests. -/
theorem of_takes_read (depth : Nat) (front : List UInt8) (tree : AnnotationTree)
    (took : (read depth).Takes front tree) : front = tree.written ∧ tree.WellFormed :=
  of_takes_readWith (ElementValue.of_takes_read depth) front tree took

/-- A well-formed annotation is read from its written form, if the depth is the number of
its bytes at least. -/
theorem takes_read_written (depth : Nat) (tree : AnnotationTree) (wellFormed : tree.WellFormed)
    (enough : tree.written.length ≤ depth) : (read depth).Takes tree.written tree := by
  refine takes_readWith_written tree wellFormed.few ?_
  intro element member
  have part := length_le_flatMap ElementValue.writtenElement member
  rw [tree.written_eq] at enough
  simp only [List.length_append, ElementValue.writtenElement] at enough part
  exact ElementValue.takes_read_written depth element.2 (wellFormed.values element member)
    (by omega)

end AnnotationTree

/-! ## Depth -/

namespace Reader

variable {α β : Type} {size : Nat}

/-- Two readers do the same with every input of at most so many bytes. -/
def AgreeUpTo (size : Nat) (first second : Reader α) : Prop :=
  ∀ input, input.length ≤ size → first input = second input

/-- A reader agrees with itself. -/
theorem AgreeUpTo.refl (reader : Reader α) : AgreeUpTo size reader reader := fun _ _ => rfl

/-- A step leaves no more bytes than there were, so only the further steps have to agree. -/
theorem AgreeUpTo.bind {first second : Reader α} [Local second] {next other : α → Reader β}
    (begun : AgreeUpTo size first second)
    (further : ∀ value, AgreeUpTo size (next value) (other value)) :
    AgreeUpTo size (first >>= next) (second >>= other) := by
  intro input short
  show StateT.bind first next input = StateT.bind second other input
  simp only [StateT.bind, begun input short]
  cases ran : second input with
  | error failure => rfl
  | ok result =>
    obtain ⟨value, rest⟩ := result
    obtain ⟨front, rfl, -⟩ := Local.split _ _ _ ran
    rw [List.length_append] at short
    exact further value rest (by omega)

/-- A byte that both readers take first is one byte less for what follows. -/
theorem AgreeUpTo.u8_bind {next other : UInt8 → Reader β}
    (further : ∀ byte, AgreeUpTo size (next byte) (other byte)) :
    AgreeUpTo (size + 1) (u8 >>= next) (u8 >>= other) := by
  intro input short
  cases input with
  | nil => rfl
  | cons byte rest => exact further byte rest (Nat.le_of_succ_le_succ short)

/-- Readers that branch on the same condition agree if they agree on both branches. -/
theorem AgreeUpTo.ite {condition : Prop} [Decidable condition]
    {first second other another : Reader α}
    (met : AgreeUpTo size first second) (unmet : AgreeUpTo size other another) :
    AgreeUpTo size (if condition then first else other)
      (if condition then second else another) := by
  split
  · exact met
  · exact unmet

section Repetition

variable {first second : Reader α} [Local second] (agree : AgreeUpTo size first second)

include agree

/-- Readers that agree still do so when they are repeated. -/
theorem AgreeUpTo.times (count : Nat) :
    AgreeUpTo size (Reader.times count first) (Reader.times count second) := by
  induction count with
  | zero => exact .refl (pure [])
  | succ count inductionHypothesis =>
    rw [times_succ, times_succ]
    exact agree.bind fun value => inductionHypothesis.bind fun others => .refl _

/-- Readers that agree still do so as readers of the rows of a table. -/
theorem AgreeUpTo.table : AgreeUpTo size (Reader.table first) (Reader.table second) :=
  AgreeUpTo.bind (.refl u16) fun count => agree.times count.toNat

end Repetition

/-- The whole of a short input is read alike. -/
theorem AgreeUpTo.whole {first second : Reader α} [Local second]
    (agree : AgreeUpTo size first second) (what : String) (input : List UInt8)
    (short : input.length ≤ size) : whole what first input = whole what second input := by
  have same := agree.bind (fun value => .refl (do expectEnd what; return value)) input short
  simp only [Reader.whole, StateT.run']
  exact congrArg _ same

end Reader

/-- Annotations are read alike if their values are. -/
theorem AnnotationTree.agreeUpTo_readWith {size : Nat} {first second : Reader ElementValue}
    [second.Local] (agree : Reader.AgreeUpTo size first second) :
    Reader.AgreeUpTo size (readWith first) (readWith second) := by
  have element : Reader.AgreeUpTo size (ElementValue.readElement first)
      (ElementValue.readElement second) :=
    .bind (.refl Reader.u16) fun name => agree.bind fun value => .refl _
  exact .bind (.refl Reader.u16) fun type => element.table.bind fun elements => .refl _

namespace ElementValue

/-- On inputs that are no longer than the depth, one more level makes no difference. A tag
is read on each level, so below the last one no bytes are left, and reading fails there as
it does for want of a tag. -/
theorem agreeUpTo_succ (depth : Nat) : Reader.AgreeUpTo depth (read depth) (read (depth + 1)) := by
  induction depth with
  | zero =>
    intro input short
    obtain rfl := List.eq_nil_of_length_eq_zero (Nat.le_zero.1 short)
    rfl
  | succ depth inductionHypothesis =>
    rw [read_succ, read_succ]
    refine Reader.AgreeUpTo.u8_bind fun tag => ?_
    unfold readTagged
    refine .ite (.refl _) (.ite (.refl _) (.ite ?_ (.ite ?_ (.refl _))))
    · exact (AnnotationTree.agreeUpTo_readWith inductionHypothesis).bind fun inner => .refl _
    · exact inductionHypothesis.table.bind fun values => .refl _

/-- On inputs that are no longer than the depth, any greater depth makes no difference. -/
theorem agreeUpTo_read (depth extra : Nat) :
    Reader.AgreeUpTo depth (read (depth + extra)) (read depth) := by
  induction extra with
  | zero => exact .refl _
  | succ extra inductionHypothesis =>
    intro input short
    rw [← inductionHypothesis input short, ← Nat.add_assoc]
    exact (agreeUpTo_succ (depth + extra) input (by omega)).symm

end ElementValue

namespace AnnotationTree

/-- Annotations are read alike at a depth and at any larger one, from bytes that are too few
to nest deeper. -/
theorem agreeUpTo_read (depth extra : Nat) :
    Reader.AgreeUpTo depth (read (depth + extra)) (read depth) :=
  agreeUpTo_readWith (ElementValue.agreeUpTo_read depth extra)

/-! ## Tables of annotations -/

/-- The written form of a table of annotations. -/
def writtenTable (trees : List AnnotationTree) : List UInt8 :=
  Written.u16 (UInt16.ofNat trees.length) ++ trees.flatMap written

/-- Bytes that are the written form of a table of annotations. -/
structure Spells (contents : List UInt8) (trees : List AnnotationTree) : Prop where
  few : trees.length < 65536
  wellFormed : ∀ tree ∈ trees, tree.WellFormed
  bytes : contents = writtenTable trees

/-- Bytes that are the written form of some tables of annotations, one for each parameter. -/
structure SpellsRows (contents : List UInt8) (rows : List (List AnnotationTree)) : Prop where
  few : rows.length < 256
  fewInRow : ∀ trees ∈ rows, trees.length < 65536
  wellFormed : ∀ trees ∈ rows, ∀ tree ∈ trees, tree.WellFormed
  bytes : contents = UInt8.ofNat rows.length :: rows.flatMap writtenTable

/-- The annotations of a table, nested at most `depth` levels deep. -/
def readTable (depth : Nat) : Reader (List AnnotationTree) := Reader.table (read depth)

/-- The tables of annotations on parameters, nested at most `depth` levels deep. -/
def readRows (depth : Nat) : Reader (List (List AnnotationTree)) := do
  let count ← Reader.u8
  Reader.times count.toNat (readTable depth)

/-- The types of annotations that are nested at most `depth` levels deep. -/
def typesTo (depth : Nat) (contents : List UInt8) : Except Failure (List UInt16) := do
  return (← Reader.whole "annotations" (readTable depth) contents).map type

/-- The types of annotations on parameters that are nested at most `depth` levels deep. -/
def parameterTypesTo (depth : Nat) (contents : List UInt8) :
    Except Failure (List (List UInt16)) := do
  let parameters ← Reader.whole "parameter annotations" (readRows depth) contents
  return parameters.map (·.map type)

/-- Types are looked for as deep as there are bytes. -/
theorem types_eq (contents : List UInt8) : types contents = typesTo contents.length contents := rfl

/-- The types on parameters are looked for as deep as there are bytes. -/
theorem parameterTypes_eq (contents : List UInt8) :
    parameterTypes contents = parameterTypesTo contents.length contents := rfl

/-- A table of annotations ends where its last row ends. -/
instance (depth : Nat) : (readTable depth).Local := by
  unfold readTable
  infer_instance

/-- The rows for the parameters end where the last row ends. -/
instance (depth : Nat) : (readRows depth).Local := by
  unfold readRows
  infer_instance

/-- A table is read only from the written form of well-formed annotations. -/
theorem of_takes_readTable (depth : Nat) (front : List UInt8) (trees : List AnnotationTree)
    (took : (readTable depth).Takes front trees) : Spells front trees := by
  obtain ⟨bytes, few, wellFormed⟩ := Reader.of_takes_table (of_takes_read depth) front trees took
  exact ⟨few, wellFormed, bytes⟩

/-- A table of well-formed annotations is read from its written form. -/
theorem takes_readTable_written (depth : Nat) (trees : List AnnotationTree)
    (few : trees.length < 65536) (wellFormed : ∀ tree ∈ trees, tree.WellFormed)
    (enough : (writtenTable trees).length ≤ depth) :
    (readTable depth).Takes (writtenTable trees) trees := by
  refine Reader.takes_table_of_each (fun tree member => ?_) few
  have part := length_le_flatMap written member
  rw [writtenTable, List.length_append] at enough
  exact takes_read_written depth tree (wellFormed tree member) (by omega)

/-- The bytes that are read as a table of annotations are those that spell it. -/
theorem wholeTable_eq_ok (contents : List UInt8) (trees : List AnnotationTree) :
    Reader.whole "annotations" (readTable contents.length) contents = .ok trees ↔
      Spells contents trees := by
  rw [Reader.whole_eq_ok]
  constructor
  · exact of_takes_readTable contents.length contents trees
  · intro spells
    have enough := congrArg List.length spells.bytes
    rw [spells.bytes] at enough ⊢
    exact takes_readTable_written _ trees spells.few spells.wellFormed (Nat.le_refl _)

/-- The bytes that are read as tables for parameters are those that spell them. -/
theorem wholeRows_eq_ok (contents : List UInt8) (rows : List (List AnnotationTree)) :
    Reader.whole "parameter annotations" (readRows contents.length) contents = .ok rows ↔
      SpellsRows contents rows := by
  rw [Reader.whole_eq_ok, readRows, Reader.takes_u8_bind]
  constructor
  · rintro ⟨count, back, bytes, taken⟩
    have sound (front : List UInt8) (trees : List AnnotationTree)
        (took : (readTable contents.length).Takes front trees) :
        front = writtenTable trees ∧ trees.length < 65536 ∧ ∀ tree ∈ trees, tree.WellFormed := by
      obtain ⟨few, wellFormed, bytes⟩ := of_takes_readTable _ front trees took
      exact ⟨bytes, few, wellFormed⟩
    obtain ⟨rfl, counted, fit⟩ := Reader.of_takes_times sound _ _ _ taken
    exact
      { few := by rw [counted]; exact count.toNat_lt
        fewInRow := fun trees member => (fit trees member).1
        wellFormed := fun trees member => (fit trees member).2
        bytes := by rw [bytes, counted, UInt8.ofNat_toNat] }
  · rintro ⟨few, fewInRow, wellFormed, bytes⟩
    refine ⟨UInt8.ofNat rows.length, _, bytes, ?_⟩
    rw [UInt8.toNat_ofNat_of_lt' few]
    refine Reader.takes_times_of_each fun trees member => ?_
    have part := length_le_flatMap writtenTable member
    rw [bytes, List.length_cons]
    exact takes_readTable_written _ trees (fewInRow trees member) (wellFormed trees member)
      (by omega)

/-- Bytes spell at most one table. -/
theorem Spells.unique {contents : List UInt8} {trees others : List AnnotationTree}
    (spells : Spells contents trees) (spellsOthers : Spells contents others) : trees = others :=
  Except.ok.inj (((wholeTable_eq_ok ..).2 spells).symm.trans
    ((wholeTable_eq_ok ..).2 spellsOthers))

/-- Bytes spell the tables for the parameters of one method at most. -/
theorem SpellsRows.unique {contents : List UInt8} {rows others : List (List AnnotationTree)}
    (spells : SpellsRows contents rows) (spellsOthers : SpellsRows contents others) :
    rows = others :=
  Except.ok.inj (((wholeRows_eq_ok ..).2 spells).symm.trans
    ((wholeRows_eq_ok ..).2 spellsOthers))

/-- The types of a table of annotations are found exactly if the bytes spell the table. -/
theorem types_eq_ok (contents : List UInt8) (found : List UInt16) :
    types contents = .ok found ↔ ∃ trees, Spells contents trees ∧ found = trees.map type := by
  simp only [types_eq, typesTo, Outcome.bind_eq_ok, wholeTable_eq_ok, Outcome.pure_eq_ok,
    @eq_comm _ found]

/-- The types of tables for parameters are found exactly if the bytes spell the tables. -/
theorem parameterTypes_eq_ok (contents : List UInt8) (found : List (List UInt16)) :
    parameterTypes contents = .ok found ↔
      ∃ rows, SpellsRows contents rows ∧ found = rows.map (·.map type) := by
  simp only [parameterTypes_eq, parameterTypesTo, Outcome.bind_eq_ok, wholeRows_eq_ok,
    Outcome.pure_eq_ok, @eq_comm _ found]

/-- A greater depth than there are bytes makes no difference to a table. -/
theorem typesTo_eq (contents : List UInt8) (extra : Nat) :
    typesTo (contents.length + extra) contents = types contents := by
  have agree : Reader.AgreeUpTo contents.length (readTable (contents.length + extra))
      (readTable contents.length) :=
    (agreeUpTo_read contents.length extra).table
  rw [types_eq, typesTo, agree.whole "annotations" contents (Nat.le_refl _), typesTo]

/-- A greater depth than there are bytes makes no difference to tables for parameters. -/
theorem parameterTypesTo_eq (contents : List UInt8) (extra : Nat) :
    parameterTypesTo (contents.length + extra) contents = parameterTypes contents := by
  have agree : Reader.AgreeUpTo contents.length (readRows (contents.length + extra))
      (readRows contents.length) :=
    .bind (.refl Reader.u8) fun count =>
      (agreeUpTo_read contents.length extra).table.times count.toNat
  rw [parameterTypes_eq, parameterTypesTo,
    agree.whole "parameter annotations" contents (Nat.le_refl _), parameterTypesTo]

/-- The reader accepts exactly the grammar of annotations. It finds some types in some bytes
if these are the written form of a table of annotations, nested to any depth, with these
types at the top; the same holds for tables of parameters. Reading ends on every input for
want of bytes, not for the bound on the depth: readers that may go deeper than there are
bytes come to the same result, be it types or a failure. -/
theorem accepts_grammar (contents : List UInt8) :
    (∀ found, types contents = .ok found ↔
      ∃ trees, Spells contents trees ∧ found = trees.map type) ∧
    (∀ found, parameterTypes contents = .ok found ↔
      ∃ rows, SpellsRows contents rows ∧ found = rows.map (·.map type)) ∧
    ∀ extra, typesTo (contents.length + extra) contents = types contents ∧
      parameterTypesTo (contents.length + extra) contents = parameterTypes contents :=
  ⟨types_eq_ok contents, parameterTypes_eq_ok contents, fun extra =>
    ⟨typesTo_eq contents extra, parameterTypesTo_eq contents extra⟩⟩

/-- The types of an annotation and of an array's items are not among those at the top. -/
example : types
    [0, 2, 0, 7, 0, 2, 0, 1, 64, 0, 8, 0, 0, 0, 2, 91, 0, 1, 64, 0, 9, 0, 0, 0, 10, 0, 0] =
      .ok [7, 10] := by
  decide

end AnnotationTree

end NullGuard
