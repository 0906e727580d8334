import NullGuard.Proofs.Nullness.Marking

/-!
# Where parameters are in a frame

The descriptor of a method is the written form of its parameter types and its result type, and
reading it gives these types back (`Descriptor.read_written`). The frame of a call begins with
the receiver, if there is one; behind it each parameter takes the local variables that follow
those of the parameter before it. A descriptor has a shape if the last of them can still be
numbered, and the shape is this frame (`lays_out_frame`).
-/

namespace NullGuard

/-! ## Types and their letters -/

namespace FieldType

/-- A type that a field can have and that is no array. -/
def IsElement : FieldType → Prop
  | .void | .array _ _ => False
  | .object name => ';' ∉ name
  | _ => True

/-- A type that a field can have. An array has 1 to 255 dimensions. -/
def IsField : FieldType → Prop
  | .array dimensions element => 0 < dimensions ∧ dimensions ≤ 255 ∧ element.IsElement
  | type => type.IsElement

/-- A type in the letters of a descriptor. -/
def written : FieldType → List Char
  | .boolean => ['Z']
  | .byte => ['B']
  | .char => ['C']
  | .short => ['S']
  | .int => ['I']
  | .float => ['F']
  | .long => ['J']
  | .double => ['D']
  | .void => ['V']
  | .object name => 'L' :: (name ++ [';'])
  | .array dimensions element => List.replicate dimensions '[' ++ element.written

/-- The local variables that a value of the type takes. -/
def slotCount (type : FieldType) : Nat := if type = .long ∨ type = .double then 2 else 1

/-- The local variables that values of some types take one after the other. -/
def frameSize (types : List FieldType) : Nat := (types.map slotCount).sum

/-- The slots of a type are its width. -/
theorem slotCount_eq (type : FieldType) : type.slotCount = type.width := by
  cases type <;> rfl

/-- The slots of a method are the widths of its parameters. -/
theorem frameSize_eq (types : List FieldType) :
    frameSize types = (types.map width).sum := by
  rw [frameSize, List.map_congr_left fun type _ => type.slotCount_eq]

/-- The variables of a value end before those of a later one begin. -/
theorem frameSize_take_add_le (types : List FieldType) (place later : Nat)
    (ordered : place < later) (type : FieldType) (here : types[place]? = some type) :
    frameSize (types.take place) + type.slotCount ≤ frameSize (types.take later) := by
  induction types generalizing place later with
  | nil => cases here
  | cons first others inductionHypothesis =>
    obtain _ | later := later
    · cases ordered
    rw [List.take_succ_cons, frameSize, frameSize, List.map_cons, List.sum_cons]
    cases place with
    | zero =>
      obtain rfl := Option.some.inj here
      simp
    | succ place =>
      have behind := inductionHypothesis place later (Nat.lt_of_succ_lt_succ ordered) here
      rw [frameSize, frameSize] at behind
      rw [List.take_succ_cons, List.map_cons, List.sum_cons]
      omega

/-- The first letter of a type that is no array opens no array and closes no list. -/
theorem exists_letter (type : FieldType) (plain : type = .void ∨ type.IsElement) :
    ∃ letter others, type.written = letter :: others ∧ letter ≠ '[' ∧ letter ≠ ')' := by
  cases type with
  | array dimensions element => exact (plain.elim FieldType.noConfusion id).elim
  | object name => exact ⟨'L', name ++ [';'], rfl, by decide, by decide⟩
  | _ => exact ⟨_, [], rfl, by decide, by decide⟩

end FieldType

/-! ## Reading what has been written -/

namespace Descriptor

/-- The letters of a method's parameter types and its result type. -/
def written (parameters : List FieldType) (result : FieldType) : List Char :=
  '(' :: (parameters.flatMap FieldType.written ++ ')' :: result.written)

/-- The spelling of a type that is no array is read back. -/
theorem readElement_written (type : FieldType) (plain : type = .void ∨ type.IsElement)
    (rest : List Char) : readElement (type.written ++ rest) = .ok (type, rest) := by
  cases type with
  | array dimensions element => exact (plain.elim FieldType.noConfusion id).elim
  | object name =>
    have inside : ∀ letter ∈ name, (letter != ';') = true := by
      intro letter member
      rw [bne_iff_ne]
      rintro rfl
      exact plain.elim FieldType.noConfusion (· member)
    have text : (FieldType.object name).written ++ rest = 'L' :: (name ++ ';' :: rest) := by
      simp [FieldType.written]
    have front : (name ++ ';' :: rest).takeWhile (· != ';') = name := by
      rw [List.takeWhile_append_of_pos inside]
      simp
    have back : (name ++ ';' :: rest).dropWhile (· != ';') = ';' :: rest := by
      rw [List.dropWhile_append_of_pos inside]
      simp
    rw [text]
    simp only [readElement, front, back]
  | _ => rfl

/-- Opening brackets are counted up to what opens no array. -/
theorem readDimensions_replicate (seen count : Nat) (room : seen + count ≤ maxDimensions)
    (rest : List Char) (stops : rest.head? ≠ some '[') :
    readDimensions seen (List.replicate count '[' ++ rest) = .ok (seen + count, rest) := by
  induction count generalizing seen with
  | zero =>
    rw [List.replicate_zero, List.nil_append, readDimensions, Nat.add_zero]
    rintro others rfl
    exact stops rfl
  | succ count inductionHypothesis =>
    rw [List.replicate_succ, List.cons_append, readDimensions, if_pos (by omega),
      inductionHypothesis (seen + 1) (by omega)]
    congr 2
    omega

/-- The spelling of a type is read back, with all its dimensions. -/
theorem readType_written (type : FieldType) (valid : type = .void ∨ type.IsField)
    (rest : List Char) : readType (type.written ++ rest) = .ok (type, rest) := by
  have plainly (plain : type = .void ∨ type.IsElement) :
      readType (type.written ++ rest) = .ok (type, rest) := by
    obtain ⟨letter, others, same, opens, -⟩ := type.exists_letter plain
    have none := readDimensions_replicate 0 0 (Nat.zero_le _) (type.written ++ rest) (by
      rw [same]
      exact fun first => opens (Option.some.inj first))
    rw [List.replicate_zero, List.nil_append] at none
    simp only [readType, none, bind, Except.bind, Nat.add_zero, if_pos]
    exact readElement_written type plain rest
  cases type with
  | array dimensions element =>
    obtain ⟨positive, few, isElement⟩ := valid.resolve_left FieldType.noConfusion
    obtain ⟨letter, others, same, opens, closes⟩ := element.exists_letter (.inr isElement)
    have counted := readDimensions_replicate 0 dimensions (by rw [Nat.zero_add]; exact few)
      (element.written ++ rest) (by
        rw [same]
        exact fun first => opens (Option.some.inj first))
    have goes : (element.written ++ rest).head? ≠ some ')' := by
      rw [same]
      exact fun first => closes (Option.some.inj first)
    rw [Nat.zero_add] at counted
    rw [FieldType.written, List.append_assoc]
    simp only [readType, counted, bind, Except.bind, if_neg (Nat.pos_iff_ne_zero.1 positive),
      if_neg goes, readElement_written element (.inr isElement) rest]
    rfl
  | _ => exact plainly valid

/-- Each type is written in a letter at least. -/
theorem length_le_written (types : List FieldType) (fields : ∀ type ∈ types, type.IsField) :
    types.length ≤ (types.flatMap FieldType.written).length := by
  induction types with
  | nil => exact Nat.le_refl 0
  | cons type others inductionHypothesis =>
    obtain ⟨first, behind⟩ := List.forall_mem_cons.1 fields
    have positive : 0 < type.written.length := by
      cases type with
      | array dimensions element =>
        rw [FieldType.written, List.length_append, List.length_replicate]
        exact Nat.lt_of_lt_of_le first.1 (Nat.le_add_right ..)
      | object name => exact Nat.succ_pos _
      | _ => exact Nat.one_pos
    have rest := inductionHypothesis behind
    rw [List.flatMap_cons, List.length_append, List.length_cons]
    omega

/-- No type begins with the letter that closes the list of parameters. -/
theorem head?_written (type : FieldType) (isField : type.IsField) (rest : List Char) :
    (type.written ++ rest).head? ≠ some ')' := by
  have plainly (isElement : type.IsElement) : (type.written ++ rest).head? ≠ some ')' := by
    obtain ⟨letter, others, same, -, closes⟩ := type.exists_letter (.inr isElement)
    rw [same]
    exact fun first => closes (Option.some.inj first)
  cases type with
  | array dimensions element =>
    obtain ⟨dimensions, rfl⟩ := Nat.exists_eq_succ_of_ne_zero (Nat.pos_iff_ne_zero.1 isField.1)
    rw [FieldType.written, List.replicate_succ, List.cons_append, List.cons_append]
    exact fun first => absurd (Option.some.inj first) (by decide)
  | _ => exact plainly isField

/-- The spellings of parameters are read back up to the parenthesis; `found` has those that
were read before, last one first. -/
theorem readParameters_written (types : List FieldType) (fields : ∀ type ∈ types, type.IsField)
    (budget : Nat) (enough : types.length ≤ budget) (found : List FieldType) (rest : List Char) :
    readParameters budget found (types.flatMap FieldType.written ++ ')' :: rest) =
      .ok (found.reverse ++ types, rest) := by
  induction types generalizing budget found with
  | nil => rw [List.flatMap_nil, List.nil_append, readParameters, List.append_nil]
  | cons type others inductionHypothesis =>
    obtain ⟨first, behind⟩ := List.forall_mem_cons.1 fields
    obtain _ | budget := budget
    · cases enough
    have goes := head?_written type first (others.flatMap FieldType.written ++ ')' :: rest)
    rw [List.flatMap_cons, List.append_assoc, readParameters]
    · simp only [readType_written type (.inr first), bind, Except.bind]
      rw [inductionHypothesis behind budget (Nat.le_of_succ_le_succ enough), List.reverse_cons,
        List.append_assoc, List.singleton_append]
    · intro letters same
      rw [same] at goes
      exact goes rfl

/-- Reading what has been written gives back the types. -/
theorem read_written (parameters : List FieldType) (result : FieldType)
    (fields : ∀ type ∈ parameters, type.IsField) (returns : result = .void ∨ result.IsField) :
    read (written parameters result) = .ok (parameters, result) := by
  have enough : parameters.length ≤
      (parameters.flatMap FieldType.written ++ ')' :: result.written).length := by
    rw [List.length_append]
    exact Nat.le_trans (length_le_written parameters fields) (Nat.le_add_right ..)
  have goes : result.written.head? ≠ some ')' := by
    obtain rfl | isField := returns
    · decide
    · have first := head?_written result isField []
      rw [List.append_nil] at first
      exact first
  have last := readType_written result returns []
  rw [List.append_nil] at last
  simp only [written, read, readParameters_written parameters fields _ enough, bind, Except.bind,
    if_neg goes, last]
  rfl

end Descriptor

/-! ## Shapes -/

namespace MethodShape

/-- All parameters can be placed if the variables behind the last one can be numbered. -/
theorem exists_placeFrom_iff (slot : Nat) (small : slot ≤ 65535) (placed : List ParameterShape)
    (types : List FieldType) :
    (∃ shapes, placeFrom slot placed types = .ok shapes) ↔
      slot + FieldType.frameSize types ≤ 65535 := by
  rw [FieldType.frameSize_eq]
  induction types generalizing slot placed with
  | nil => exact iff_of_true ⟨_, rfl⟩ small
  | cons type others inductionHypothesis =>
    rw [placeFrom, List.map_cons, List.sum_cons, ← Nat.add_assoc]
    split
    next fits => exact inductionHypothesis _ (Nat.le_of_lt_succ fits) _
    next crowded =>
      refine iff_of_false ?_ (by omega)
      rintro ⟨shapes, impossible⟩
      cases impossible

/-- A shape lays out a frame whose variables for parameters begin at a number. -/
structure LaysOut (shape : MethodShape) (start : Nat) (types : List FieldType)
    (result : FieldType) : Prop where
  count : shape.parameters.length = types.length
  slot : ∀ (place : Nat) (parameter : ParameterShape),
    shape.parameters[place]? = some parameter →
    parameter.slot.toNat = start + FieldType.frameSize (types.take place)
  isObject : ∀ (place : Nat) (parameter : ParameterShape) (type : FieldType),
    shape.parameters[place]? = some parameter → types[place]? = some type →
    (parameter.isObject = true ↔ ∃ name, type = .object name)
  apart : ∀ (place later : Nat) (parameter behind : ParameterShape) (type : FieldType),
    place < later → shape.parameters[place]? = some parameter → types[place]? = some type →
    shape.parameters[later]? = some behind →
    parameter.slot < behind.slot ∧ parameter.slot.toNat + type.slotCount ≤ behind.slot.toNat
  void : shape.returnKind = .void ↔ result = .void
  reference : shape.returnKind = .reference ↔
    (∃ name, result = .object name) ∨ ∃ dimensions element, result = .array dimensions element
  primitive : shape.returnKind = .primitive ↔ result ∈
    ([.boolean, .byte, .char, .short, .int, .float, .long, .double] : List FieldType)

/-- Parameters that have been placed lie one behind the other from the start on. -/
theorem laysOut_of_placeFrom (shape : MethodShape) (start : Nat) (types : List FieldType)
    (result : FieldType) (placed : placeFrom start [] types = .ok shape.parameters)
    (returns : shape.returnKind = result.returnKind) : shape.LaysOut start types result := by
  obtain ⟨behind, same, counted, each⟩ := getElem?_of_placeFrom start [] _ types placed
  rw [List.reverse_nil, List.nil_append] at same
  rw [← same] at counted each
  have slot (place : Nat) (parameter : ParameterShape)
      (here : shape.parameters[place]? = some parameter) :
      parameter.slot.toNat = start + FieldType.frameSize (types.take place) := by
    rw [FieldType.frameSize_eq]
    exact (each place parameter here).2
  refine
    { count := counted
      slot
      isObject := ?_
      apart := ?_
      void := ?_
      reference := ?_
      primitive := ?_ }
  · intro place parameter type here typeHere
    obtain ⟨known, knownHere, same⟩ := (each place parameter here).1
    obtain rfl := Option.some.inj (typeHere.symm.trans knownHere)
    rw [same]
    cases type <;> simp [FieldType.isObject]
  · intro place later parameter other type ordered here typeHere there
    have ends := FieldType.frameSize_take_add_le types place later ordered type typeHere
    have positive : 0 < type.slotCount := by
      rw [FieldType.slotCount]
      split <;> decide
    rw [UInt16.lt_iff_toNat_lt, slot place parameter here, slot later other there]
    omega
  all_goals
    rw [returns]
    cases result <;> simp [FieldType.returnKind]

end MethodShape

/-- The variables of a frame in front of those for the parameters: the receiver, unless the
method is static. -/
def MethodShape.receiver (isStatic : Bool) : Nat := if isStatic then 0 else 1

section

variable (parameters : List FieldType) (result : FieldType) (isStatic : Bool)
variable (fields : ∀ type ∈ parameters, type.IsField)
variable (returns : result = .void ∨ result.IsField)
include fields returns

/-- A method has a shape if the variables of a frame can be numbered. -/
theorem MethodShape.exists_ofDescriptor_iff :
    (∃ shape, ofDescriptor (.ofList (Descriptor.written parameters result)) isStatic =
      .ok shape) ↔ receiver isStatic + FieldType.frameSize parameters ≤ 65535 := by
  have read := Descriptor.read_written parameters result fields returns
  rw [← String.toList_ofList (l := Descriptor.written parameters result)] at read
  have small : receiver isStatic ≤ 65535 := by cases isStatic <;> decide
  rw [← exists_placeFrom_iff _ small []]
  simp only [ofDescriptor, read, Outcome.bind_eq_ok]
  constructor
  · rintro ⟨shape, placed, ran, -⟩
    exact ⟨placed, ran⟩
  · rintro ⟨placed, ran⟩
    exact ⟨⟨placed, result.returnKind⟩, placed, ran, rfl⟩

/-- A method of given parameter types and a given result type has a shape if and only if its
receiver and its parameters take 65535 local variables at most. The shape then lays out the
frame of a call. -/
theorem MethodShape.lays_out_frame :
    ((∃ shape, ofDescriptor (.ofList (Descriptor.written parameters result)) isStatic =
        .ok shape) ↔ receiver isStatic + FieldType.frameSize parameters ≤ 65535) ∧
      ∀ shape, ofDescriptor (.ofList (Descriptor.written parameters result)) isStatic = .ok shape →
        shape.LaysOut (receiver isStatic) parameters result := by
  have read := Descriptor.read_written parameters result fields returns
  rw [← String.toList_ofList (l := Descriptor.written parameters result)] at read
  refine ⟨exists_ofDescriptor_iff parameters result isStatic fields returns, ?_⟩
  intro shape ran
  obtain ⟨types, kind, readAgain, returnKind, placed⟩ := ofDescriptor_eq_ok _ _ _ ran
  obtain ⟨rfl, rfl⟩ := Prod.mk.inj (Except.ok.inj (read.symm.trans readAgain))
  exact shape.laysOut_of_placeFrom _ _ _ placed returnKind

end

/-- A long takes two slots; an array of arrays and an object take one each. -/
theorem MethodShape.lays_out_frame_mixed : ∃ shape,
    ofDescriptor "(J[[DLA;)LB;" false = .ok shape ∧
      shape.LaysOut 1 [.long, .array 2 .double, .object ['A']] (.object ['B']) := by
  obtain ⟨exactly, frames⟩ := lays_out_frame [.long, .array 2 .double, .object ['A']]
    (.object ['B']) false (by simp [FieldType.IsField, FieldType.IsElement])
    (.inr (by simp [FieldType.IsField, FieldType.IsElement]))
  obtain ⟨shape, ran⟩ := exactly.2 (by decide)
  exact ⟨shape, ran, frames shape ran⟩

end NullGuard
