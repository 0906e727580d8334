import Mathlib.Algebra.GroupWithZero.Nat
import NullGuard.Nullness.Model
import NullGuard.Proofs.Annotations.Grammar
import NullGuard.Proofs.ClassFile.Growth

/-!
# Which markers an element carries

A class, a field and the result of a method carry a marker if an attribute of theirs holds
an annotation of the marker's type (`Annotated`). The annotations on the parameters of a
method stand in tables of their own, and each table leaves out as many leading parameters
as it has rows too few, whatever the other tables do (`AnnotatedParameter`). Reading markers
is a walk over attributes and annotations that only ever adds some; `Gains` says which, for
a step of the walk and for all of it. The model of a class mirrors the class in this and in
the rest (`mirrors_of_ofClass`), and there is none if a table has too many rows
(`collects_markers`).
-/

namespace NullGuard

/-- An attribute of an element holds an annotation of a type, not counting annotations inside
other ones. The type is compared by its bytes. -/
def Annotated (pool : Pool) (attributes : List Attribute) (type : String) : Prop :=
  ∃ entry ∈ attributes,
    (pool.utf8Is entry.name "RuntimeVisibleAnnotations" = true ∨
      pool.utf8Is entry.name "RuntimeInvisibleAnnotations" = true) ∧
    ∃ trees, AnnotationTree.Spells entry.contents trees ∧
      ∃ tree ∈ trees, pool.utf8Is tree.type type = true

/-- The attribute is a table of annotations on the parameters of a method. -/
def Attribute.OnParameters (pool : Pool) (entry : Attribute) : Prop :=
  pool.utf8Is entry.name "RuntimeVisibleParameterAnnotations" = true ∨
    pool.utf8Is entry.name "RuntimeInvisibleParameterAnnotations" = true

/-- Of the rows of a table for some number of parameters, the row for the one at an index holds
an annotation of a type, where the last row is for the last parameter. -/
def InRowOf (pool : Pool) (count index : Nat) (rows : List (List AnnotationTree))
    (type : String) : Prop :=
  count - rows.length ≤ index ∧ ∃ trees, rows[index - (count - rows.length)]? = some trees ∧
    ∃ tree ∈ trees, pool.utf8Is tree.type type = true

/-- One of the tables of a method with some number of parameters holds an annotation of a
type in its row for the parameter at an index. -/
def AnnotatedParameter (pool : Pool) (attributes : List Attribute) (count index : Nat)
    (type : String) : Prop :=
  ∃ entry ∈ attributes, entry.OnParameters pool ∧
    ∃ rows, AnnotationTree.SpellsRows entry.contents rows ∧ InRowOf pool count index rows type

namespace Markers

/-- The markers whose types are found are carried, and no others. -/
structure Carry (markers : Markers) (Found : String → Prop) : Prop where
  notNull : markers.notNull = true ↔ Found "Lnotnullcheckweaver/NotNull;"
  nullable : markers.nullable = true ↔ Found "Lnotnullcheckweaver/Nullable;"

/-! ## Gaining markers -/

/-- The markers whose types are found are added, and no others. -/
structure Gains (Found : String → Prop) (before after : Markers) : Prop where
  notNull : after.notNull = true ↔ before.notNull = true ∨ Found notNullType
  nullable : after.nullable = true ↔ before.nullable = true ∨ Found nullableType

namespace Gains

variable {Found Further : String → Prop} {before between after : Markers}

/-- Without anything found nothing is gained. -/
theorem refl (markers : Markers) (nothing : ∀ type, ¬ Found type) :
    Gains Found markers markers where
  notNull := (or_iff_left (nothing _)).symm
  nullable := (or_iff_left (nothing _)).symm

/-- Markers that gain twice gain what was found either time. -/
theorem trans (begun : Gains Found before between) (ended : Gains Further between after) :
    Gains (fun type => Found type ∨ Further type) before after where
  notNull := by rw [ended.notNull, begun.notNull, or_assoc]
  nullable := by rw [ended.nullable, begun.nullable, or_assoc]

/-- What is gained depends only on which types were found. -/
theorem congr (gains : Gains Found before after) (same : ∀ type, Found type ↔ Further type) :
    Gains Further before after where
  notNull := by rw [gains.notNull, same]
  nullable := by rw [gains.nullable, same]

/-- Who had no markers carries just those that are found. -/
theorem carry (gains : Gains Found none after) : after.Carry Found where
  notNull := gains.notNull.trans (or_iff_right Bool.false_ne_true)
  nullable := gains.nullable.trans (or_iff_right Bool.false_ne_true)

/-- A walk over some items gains what is found in any of them. -/
theorem foldlM {α : Type} {step : Markers → α → Except Failure Markers}
    {Found : α → String → Prop}
    (each : ∀ item before after, step before item = .ok after → Gains (Found item) before after)
    (items : List α) (before after : Markers) (ran : items.foldlM step before = .ok after) :
    Gains (fun type => ∃ item ∈ items, Found item type) before after := by
  induction items generalizing before with
  | nil =>
    obtain rfl := Except.ok.inj ran
    exact .refl before (by simp)
  | cons item others inductionHypothesis =>
    rw [List.foldlM_cons] at ran
    obtain ⟨between, first, rest⟩ := (Outcome.bind_eq_ok ..).1 ran
    refine ((each item before between first).trans (inductionHypothesis between rest)).congr ?_
    simp

end Gains

/-- The two markers have different types. -/
theorem notNullBytes_ne_nullableBytes : notNullBytes ≠ nullableBytes := by decide

/-- Taking note of an annotation gains the marker that it is of, if any. -/
theorem gains_record (pool : Pool) (markers : Markers) (index : UInt16) (bytes : List UInt8)
    (read : pool.utf8Bytes index = .ok bytes) :
    Gains (fun type => pool.utf8Is index type = true) markers (markers.record bytes) := by
  have spelled (type : String) :
      pool.utf8Is index type = true ↔ bytes = Text.ModifiedUtf8.encode type :=
    pool.utf8Is_iff_of_utf8Bytes index bytes read type
  refine Gains.congr ?_ fun type => (spelled type).symm
  by_cases isNotNull : bytes = notNullBytes
  · have other : ¬ bytes = nullableBytes := fun same =>
      notNullBytes_ne_nullableBytes (isNotNull.symm.trans same)
    rw [record, if_pos isNotNull]
    exact ⟨iff_of_true rfl (.inr isNotNull), (or_iff_left other).symm⟩
  by_cases isNullable : bytes = nullableBytes
  · rw [record, if_neg isNotNull, if_pos isNullable]
    exact ⟨(or_iff_left isNotNull).symm, iff_of_true rfl (.inr isNullable)⟩
  · rw [record, if_neg isNotNull, if_neg isNullable]
    exact ⟨(or_iff_left isNotNull).symm, (or_iff_left isNullable).symm⟩

/-- Recording annotations gains exactly the markers among them. -/
theorem gains_recordAll (pool : Pool) (trees : List AnnotationTree) (before after : Markers)
    (ran : before.recordAll pool (trees.map AnnotationTree.type) = .ok after) :
    Gains (fun type => ∃ tree ∈ trees, pool.utf8Is tree.type type = true) before after := by
  have each (index : UInt16) (before after : Markers)
      (ran : (do return before.record (← pool.utf8Bytes index)) = .ok after) :
      Gains (fun type => pool.utf8Is index type = true) before after := by
    obtain ⟨bytes, read, returned⟩ := (Outcome.bind_eq_ok ..).1 ran
    obtain rfl := Except.ok.inj returned
    exact gains_record pool before index bytes read
  exact (Gains.foldlM each _ before after ran).congr fun type => by simp

/-- The attributes that are gone through are those of one of the names. -/
theorem mem_named (pool : Pool) (names : List String) (attributes : List Attribute)
    (entry : Attribute) :
    entry ∈ named pool names attributes ↔
      entry ∈ attributes ∧ ∃ name ∈ names, pool.utf8Is entry.name name = true := by
  simp only [named, List.mem_filter, List.any_eq_true, List.mem_map]
  refine and_congr_right fun _ => ?_
  constructor
  · rintro ⟨_, ⟨name, member, rfl⟩, held⟩
    exact ⟨name, member, held⟩
  · rintro ⟨name, member, held⟩
    exact ⟨_, ⟨name, member, rfl⟩, held⟩

/-- The markers of an element are those that it is annotated with. -/
theorem carry_of_ofAttributes (pool : Pool) (attributes : List Attribute) (markers : Markers)
    (ran : ofAttributes pool attributes = .ok markers) :
    markers.Carry (Annotated pool attributes) := by
  have each (entry : Attribute) (before after : Markers)
      (ran : (do before.recordAll pool (← AnnotationTree.types entry.contents)) = .ok after) :
      Gains (fun type => ∃ trees, AnnotationTree.Spells entry.contents trees ∧
        ∃ tree ∈ trees, pool.utf8Is tree.type type = true) before after := by
    obtain ⟨types, read, ran⟩ := (Outcome.bind_eq_ok ..).1 ran
    obtain ⟨trees, spells, rfl⟩ := (AnnotationTree.types_eq_ok ..).1 read
    refine (gains_recordAll pool trees before after ran).congr fun type => ?_
    constructor
    · intro found
      exact ⟨trees, spells, found⟩
    · rintro ⟨others, spelled, found⟩
      rw [spells.unique spelled]
      exact found
  refine ((Gains.foldlM each _ none markers ran).congr fun type => ?_).carry
  simp only [mem_named, elementAttributes, List.mem_cons, List.not_mem_nil, or_false,
    exists_eq_or_imp, exists_eq_left, and_assoc]
  rfl

end Markers

/-! ## Parameters -/

/-- Each type takes the first slot behind those before it. -/
theorem MethodShape.getElem?_of_placeFrom (slot : Nat) (placed shapes : List ParameterShape)
    (types : List FieldType) (ran : placeFrom slot placed types = .ok shapes) :
    ∃ behind, shapes = placed.reverse ++ behind ∧ behind.length = types.length ∧
      ∀ index shape, behind[index]? = some shape →
        (∃ type, types[index]? = some type ∧ shape.isObject = type.isObject) ∧
        shape.slot.toNat = slot + ((types.take index).map FieldType.width).sum := by
  induction types generalizing slot placed with
  | nil =>
    obtain rfl := Except.ok.inj ran
    exact ⟨[], (List.append_nil _).symm, rfl, by simp⟩
  | cons type others inductionHypothesis =>
    rw [placeFrom] at ran
    split at ran
    next small =>
      obtain ⟨behind, rfl, counted, each⟩ := inductionHypothesis _ _ ran
      refine ⟨⟨type.isObject, UInt16.ofNat slot⟩ :: behind, by simp, by simp [counted], ?_⟩
      rintro (_ | index) shape here
      · obtain rfl := Option.some.inj here
        exact ⟨⟨type, rfl, rfl⟩,
          UInt16.toNat_ofNat_of_lt' (Nat.lt_of_le_of_lt (Nat.le_add_right ..) small)⟩
      · obtain ⟨isType, taken⟩ := each index shape here
        refine ⟨isType, ?_⟩
        rw [taken, List.take_succ_cons, List.map_cons, List.sum_cons, Nat.add_assoc]
    next => cases ran

/-- The shape of a method is read from its descriptor. -/
theorem MethodShape.ofDescriptor_eq_ok (descriptor : String) (isStatic : Bool)
    (shape : MethodShape) (ran : ofDescriptor descriptor isStatic = .ok shape) :
    ∃ types result, Descriptor.read descriptor.toList = .ok (types, result) ∧
      shape.returnKind = result.returnKind ∧
      placeFrom (if isStatic then 0 else 1) [] types = .ok shape.parameters := by
  rw [ofDescriptor] at ran
  split at ran
  next => exact ((Outcome.fail_ne_ok _ _) ((Outcome.during_eq_ok ..).1 ran)).elim
  next types result read =>
    obtain ⟨parameters, placed, returned⟩ := (Outcome.bind_eq_ok ..).1 ran
    obtain rfl := Except.ok.inj returned
    exact ⟨types, result, read, rfl, placed⟩

namespace ParameterModel

/-- The same parameter, which may have gained markers. -/
structure Gains (Found : String → Prop) (before after : ParameterModel) : Prop where
  index : after.index = before.index
  slot : after.slot = before.slot
  isObject : after.isObject = before.isObject
  markers : Markers.Gains Found before.markers after.markers

/-- The same parameters, each of which may have gained those markers that are found for its
place. -/
structure AllGain (Found : Nat → String → Prop) (before after : List ParameterModel) : Prop where
  length : after.length = before.length
  each : ∀ index parameter, before[index]? = some parameter →
    ∃ marked, after[index]? = some marked ∧ Gains (Found index) parameter marked

variable {Found Further : Nat → String → Prop} {before between after : List ParameterModel}

/-- Parameters gain nothing from no annotations. -/
theorem AllGain.refl (parameters : List ParameterModel)
    (nothing : ∀ index type, ¬ Found index type) : AllGain Found parameters parameters where
  length := rfl
  each index parameter here := ⟨parameter, here, rfl, rfl, rfl, .refl _ (nothing index)⟩

/-- Parameters that gain twice gain what was found either time. -/
theorem AllGain.trans (begun : AllGain Found before between)
    (ended : AllGain Further between after) :
    AllGain (fun index type => Found index type ∨ Further index type) before after where
  length := ended.length.trans begun.length
  each index parameter here := by
    obtain ⟨first, firstHere, gains⟩ := begun.each index parameter here
    obtain ⟨second, secondHere, further⟩ := ended.each index first firstHere
    exact ⟨second, secondHere,
      { index := further.index.trans gains.index
        slot := further.slot.trans gains.slot
        isObject := further.isObject.trans gains.isObject
        markers := gains.markers.trans further.markers }⟩

/-- What parameters gain depends only on which types were found for each. -/
theorem AllGain.congr (gain : AllGain Found before after)
    (same : ∀ index type, Found index type ↔ Further index type) :
    AllGain Further before after where
  length := gain.length
  each index parameter here := by
    obtain ⟨marked, markedHere, gains⟩ := gain.each index parameter here
    exact ⟨marked, markedHere, gains.index, gains.slot, gains.isObject,
      gains.markers.congr (same index)⟩

end ParameterModel

namespace MethodModel

open ParameterModel

/-- Of items that are gone through together with rows from some place on, each has a row and
a result. -/
theorem exists_row_of_zip_drop {α β γ : Type} {R : α × β → γ → Prop} {items : List α}
    {rows : List β} {results : List γ} (shift : Nat) (fit : shift + rows.length = items.length)
    (each : List.Forall₂ R ((items.drop shift).zip rows) results) (place : Nat) (item : α)
    (here : items[shift + place]? = some item) :
    ∃ row result, rows[place]? = some row ∧ results[place]? = some result ∧
      R (item, row) result := by
  have inside := (List.getElem?_eq_some_iff.1 here).1
  have row : rows[place]? = some rows[place] := List.getElem?_eq_getElem (by omega)
  have dropped : (items.drop shift)[place]? = some item := by rw [List.getElem?_drop, here]
  have pair : ((items.drop shift).zip rows)[place]? = some (item, rows[place]) :=
    List.getElem?_zip_eq_some.2 ⟨dropped, row⟩
  obtain ⟨result, there, related⟩ := Outcome.getElem?_of_forall₂ each place _ pair
  exact ⟨_, result, row, there, related⟩

/-- The rows of a table have their annotations taken note of at the last parameters, and
there are no more rows than parameters. -/
theorem allGain_of_markParameters (pool : Pool) (name descriptor : String)
    (before after : List ParameterModel) (rows : List (List AnnotationTree))
    (ran : markParameters pool name descriptor before (rows.map (·.map AnnotationTree.type)) =
      .ok after) :
    rows.length ≤ before.length ∧
      AllGain (fun index type => InRowOf pool before.length index rows type) before after := by
  rw [markParameters, List.length_map] at ran
  split at ran
  next => cases ran
  next few =>
    obtain ⟨marked, each, returned⟩ := (Outcome.bind_eq_ok ..).1 ran
    obtain rfl := Except.ok.inj returned
    have paired := (Outcome.mapM_eq_ok ..).1 each
    refine ⟨by omega, ?_⟩
    simp only [InRowOf]
    -- The parameters in front of the first row, however many these are.
    obtain ⟨shift, fit⟩ : ∃ shift, shift + rows.length = before.length :=
      ⟨before.length - rows.length, by omega⟩
    rw [show before.length - rows.length = shift by omega] at paired ⊢
    have front : (before.take shift).length = shift := by
      rw [List.length_take]
      omega
    refine ⟨?_, fun index parameter here => ?_⟩
    · rw [List.length_append, front, ← paired.length_eq, List.length_zip, List.length_drop,
        List.length_map]
      omega
    by_cases early : index < shift
    · refine ⟨parameter, ?_, rfl, rfl, rfl, .refl _ ?_⟩
      · rw [List.getElem?_append_left (by omega), List.getElem?_take_of_lt early, here]
      · rintro type ⟨late, -⟩
        omega
    · obtain ⟨place, rfl⟩ := Nat.exists_eq_add_of_le (Nat.le_of_not_lt early)
      obtain ⟨types, result, row, there, ran⟩ := exists_row_of_zip_drop shift
        (by rw [List.length_map, fit]) paired place parameter here
      obtain ⟨markers, recorded, returned⟩ := (Outcome.bind_eq_ok ..).1 ran
      obtain rfl := Except.ok.inj returned
      rw [List.getElem?_map] at row
      obtain ⟨trees, treesHere, rfl⟩ := Option.map_eq_some_iff.1 row
      refine ⟨{ parameter with markers }, ?_, rfl, rfl, rfl, ?_⟩
      · rw [List.getElem?_append_right (by omega), front, Nat.add_sub_cancel_left]
        exact there
      · refine (Markers.gains_recordAll pool trees _ _ recorded).congr fun type => ?_
        simp only [Nat.add_sub_cancel_left, treesHere, Option.some.injEq, exists_eq_left',
          Nat.le_add_right, true_and]

/-- Going through the tables of a method gains what is found in any of them. The induction is
on the tables; none of them changes how many parameters there are. -/
theorem allGain_of_tables (pool : Pool) (name descriptor : String) (entries : List Attribute)
    (before after : List ParameterModel)
    (ran : entries.foldlM (fun parameters entry => do
      let rows ← during (.readParameterAnnotations (name ++ descriptor))
        (AnnotationTree.parameterTypes entry.contents)
      markParameters pool name descriptor parameters rows) before = .ok after) :
    (∀ entry ∈ entries, ∃ rows, AnnotationTree.SpellsRows entry.contents rows ∧
      rows.length ≤ before.length) ∧
    AllGain (fun index type => ∃ entry ∈ entries, ∃ rows,
      AnnotationTree.SpellsRows entry.contents rows ∧ InRowOf pool before.length index rows type)
      before after := by
  induction entries generalizing before with
  | nil =>
    obtain rfl := Except.ok.inj ran
    exact ⟨by simp, .refl before (by simp)⟩
  | cons entry others inductionHypothesis =>
    rw [List.foldlM_cons] at ran
    obtain ⟨between, first, rest⟩ := (Outcome.bind_eq_ok ..).1 ran
    obtain ⟨types, read, marked⟩ := (Outcome.bind_eq_ok ..).1 first
    rw [Outcome.during_eq_ok, AnnotationTree.parameterTypes_eq_ok] at read
    obtain ⟨rows, spells, rfl⟩ := read
    obtain ⟨few, gain⟩ := allGain_of_markParameters pool name descriptor before between rows marked
    obtain ⟨fewFurther, further⟩ := inductionHypothesis between rest
    rw [gain.length] at fewFurther further
    refine ⟨List.forall_mem_cons.2 ⟨⟨rows, spells, few⟩, fewFurther⟩, ?_⟩
    refine (gain.trans further).congr fun index type => ?_
    rw [List.exists_mem_cons_iff]
    refine or_congr_left ?_
    constructor
    · intro found
      exact ⟨rows, spells, found⟩
    · rintro ⟨others, spelled, found⟩
      rw [spells.unique spelled]
      exact found

/-- Each parameter of the descriptor is one of the method. -/
theorem length_unmarked (shape : MethodShape) :
    (unmarked shape).length = shape.parameters.length := by
  rw [unmarked, List.length_map, List.length_zipIdx]

/-- A parameter without markers has the place, the slot and the kind that its descriptor
gives it. -/
theorem getElem?_unmarked_eq_some (shape : MethodShape) (place : Nat)
    (parameter : ParameterModel) :
    (unmarked shape)[place]? = some parameter ↔
      ∃ form, shape.parameters[place]? = some form ∧
        (⟨place, form.slot, form.isObject, Markers.none⟩ : ParameterModel) = parameter := by
  rw [unmarked, List.getElem?_map, List.getElem?_zipIdx, Nat.zero_add]
  cases shape.parameters[place]? with
  | none => simp
  | some form => simp

/-- The tables that are gone through are those for parameters. -/
theorem mem_onParameters (pool : Pool) (attributes : List Attribute) (entry : Attribute) :
    entry ∈ Markers.named pool Markers.parameterAttributes attributes ↔
      entry ∈ attributes ∧ entry.OnParameters pool := by
  simp only [Markers.mem_named, Markers.parameterAttributes, Attribute.OnParameters,
    List.mem_cons, List.not_mem_nil, or_false, exists_eq_or_imp, exists_eq_left]

end MethodModel

/-! ## Models -/

/-- A parameter of a method at its place among the parameter types. -/
structure ParameterModel.Mirrors (parameter : ParameterModel) (pool : Pool) (member : Member)
    (types : List FieldType) (place : Nat) : Prop where
  index : parameter.index = place
  isObject : ∃ type, types[place]? = some type ∧ parameter.isObject = type.isObject
  slot : parameter.slot.toNat =
    (if member.isStatic then 0 else 1) + ((types.take place).map FieldType.width).sum
  markers : parameter.markers.Carry (AnnotatedParameter pool member.attributes types.length place)

/-- A method has the name, the descriptor and the code of a member, and the markers of its
result and of its parameters, of which the descriptor gives the types. -/
structure MethodModel.Mirrors (method : MethodModel) (file : ClassFile) (member : Member) :
    Prop where
  name : file.memberName member = .ok method.name
  descriptor : file.memberDescriptor member = .ok method.descriptor
  hasCode : method.hasCode = true ↔
    ∃ entry ∈ member.attributes, file.pool.utf8Is entry.name "Code" = true
  signature : ∃ types result, Descriptor.read method.descriptor.toList = .ok (types, result) ∧
    method.returnKind = result.returnKind ∧ method.parameters.length = types.length ∧
    ∀ place parameter, method.parameters[place]? = some parameter →
      ParameterModel.Mirrors parameter file.pool member types place
  returnMarkers : method.returnMarkers.Carry (Annotated file.pool member.attributes)
  tables : ∀ entry ∈ member.attributes, entry.OnParameters file.pool → ∃ rows,
    AnnotationTree.SpellsRows entry.contents rows ∧ rows.length ≤ method.parameters.length

/-- A field has the name, the descriptor, the static flag and the markers of a member. -/
structure FieldModel.Mirrors (field : FieldModel) (file : ClassFile) (member : Member) :
    Prop where
  name : file.memberName member = .ok field.name
  descriptor : file.memberDescriptor member = .ok field.descriptor
  isStatic : field.isStatic = member.isStatic
  isObject : field.isObject = isObjectField field.descriptor
  markers : field.markers.Carry (Annotated file.pool member.attributes)

/-- A class has the name and the markers of a class file, and its fields and methods in the
order of declaration. -/
structure ClassModel.Mirrors (model : ClassModel) (file : ClassFile) : Prop where
  name : file.name = .ok model.name
  isInterface : model.isInterface = file.isInterface
  markers : model.markers.Carry (Annotated file.pool file.attributes)
  fields : List.Forall₂ (fun member field => field.Mirrors file member) file.fields model.fields
  methods : List.Forall₂ (fun member method => method.Mirrors file member)
    file.methods model.methods

/-- The model of a field has what the class says about it. -/
theorem FieldModel.mirrors_of_ofMember (file : ClassFile) (member : Member) (field : FieldModel)
    (modelled : ofMember file member = .ok field) : field.Mirrors file member := by
  obtain ⟨name, named, ran⟩ := (Outcome.bind_eq_ok ..).1 modelled
  obtain ⟨descriptor, described, ran⟩ := (Outcome.bind_eq_ok ..).1 ran
  obtain ⟨markers, marked, returned⟩ := (Outcome.bind_eq_ok ..).1 ran
  obtain rfl := Except.ok.inj returned
  rw [Outcome.during_eq_ok] at marked
  exact ⟨named, described, rfl, rfl, Markers.carry_of_ofAttributes _ _ _ marked⟩

/-- There is an attribute of a name if one is found. -/
theorem Pool.isSome_findAttribute (pool : Pool) (name : String) (attributes : List Attribute) :
    (pool.findAttribute name attributes).isSome = true ↔
      ∃ entry ∈ attributes, pool.utf8Is entry.name name = true := by
  rw [findAttribute, List.find?_isSome]
  rfl

/-- The model of a method has what the class says about it. -/
theorem MethodModel.mirrors_of_ofMember (file : ClassFile) (member : Member)
    (method : MethodModel) (modelled : ofMember file member = .ok method) :
    method.Mirrors file member := by
  obtain ⟨name, named, ran⟩ := (Outcome.bind_eq_ok ..).1 modelled
  obtain ⟨descriptor, described, ran⟩ := (Outcome.bind_eq_ok ..).1 ran
  obtain ⟨shape, shaped, ran⟩ := (Outcome.bind_eq_ok ..).1 ran
  obtain ⟨markers, marked, ran⟩ := (Outcome.bind_eq_ok ..).1 ran
  obtain ⟨parameters, walked, returned⟩ := (Outcome.bind_eq_ok ..).1 ran
  obtain rfl := Except.ok.inj returned
  rw [Outcome.during_eq_ok] at marked
  obtain ⟨types, result, read, kind, placed⟩ := MethodShape.ofDescriptor_eq_ok _ _ _ shaped
  obtain ⟨behind, shapes, counted, places⟩ := MethodShape.getElem?_of_placeFrom _ _ _ _ placed
  rw [List.reverse_nil, List.nil_append] at shapes
  obtain ⟨fit, gain⟩ := allGain_of_tables file.pool name descriptor _ _ parameters walked
  have count : (unmarked shape).length = types.length := by
    rw [length_unmarked, shapes, counted]
  rw [count] at fit gain
  refine
    { name := named
      descriptor := described
      hasCode := file.pool.isSome_findAttribute ClassFile.codeName member.attributes
      signature := ⟨types, result, read, kind, gain.length.trans count, ?_⟩
      returnMarkers := Markers.carry_of_ofAttributes _ _ _ marked
      tables := ?_ }
  · intro place parameter here
    have inside : place < (unmarked shape).length := by
      rw [← gain.length]
      exact (List.getElem?_eq_some_iff.1 here).1
    obtain ⟨plain, plainHere⟩ : ∃ plain, (unmarked shape)[place]? = some plain :=
      ⟨_, List.getElem?_eq_getElem inside⟩
    obtain ⟨_, sameHere, gains⟩ := gain.each place plain plainHere
    obtain rfl := Option.some.inj (here.symm.trans sameHere)
    obtain ⟨form, formHere, rfl⟩ := (getElem?_unmarked_eq_some ..).1 plainHere
    rw [shapes] at formHere
    obtain ⟨isObject, slot⟩ := places place form formHere
    exact
      { index := gains.index
        isObject := by rw [gains.isObject]; exact isObject
        slot := by rw [gains.slot]; exact slot
        markers := (gains.markers.congr fun type => by
          simp only [mem_onParameters, AnnotatedParameter, and_assoc]).carry }
  · intro entry member onParameters
    rw [gain.length, count]
    exact fit entry ((mem_onParameters ..).2 ⟨member, onParameters⟩)

/-- The model of a class mirrors it. -/
theorem ClassModel.mirrors_of_ofClass (file : ClassFile) (model : ClassModel)
    (modelled : ofClass file = .ok model) : model.Mirrors file := by
  obtain ⟨name, named, ran⟩ := (Outcome.bind_eq_ok ..).1 modelled
  obtain ⟨markers, marked, ran⟩ := (Outcome.bind_eq_ok ..).1 ran
  obtain ⟨fields, eachField, ran⟩ := (Outcome.bind_eq_ok ..).1 ran
  obtain ⟨methods, eachMethod, returned⟩ := (Outcome.bind_eq_ok ..).1 ran
  obtain rfl := Except.ok.inj returned
  rw [Outcome.during_eq_ok] at marked
  exact
    { name := named
      isInterface := rfl
      markers := Markers.carry_of_ofAttributes _ _ _ marked
      fields := ((Outcome.mapM_eq_ok ..).1 eachField).imp (FieldModel.mirrors_of_ofMember file)
      methods := ((Outcome.mapM_eq_ok ..).1 eachMethod).imp
        (MethodModel.mirrors_of_ofMember file) }


namespace ClassModel

/-- Markers are collected from exactly the annotations that say so. If a class has a model,
the class, each field and the result of each method carry a marker if and only if an attribute
of theirs for annotations has one of the marker's type at the top, and a parameter does if and
only if a table of its method has one in the row that belongs to the parameter, counted from
the end. All stand in the order of declaration, with names, descriptors, flags, slots and code
as the members have them. A class has no model if a method of it has a table with more rows
than the descriptor has parameters. -/
theorem collects_markers (file : ClassFile) :
    (∀ model, ofClass file = .ok model → model.Mirrors file) ∧
    ∀ member ∈ file.methods, ∀ descriptor types result,
      file.memberDescriptor member = .ok descriptor →
      Descriptor.read descriptor.toList = .ok (types, result) →
      ∀ entry ∈ member.attributes, entry.OnParameters file.pool →
      ∀ count rest, entry.contents = count :: rest → types.length < count.toNat →
        ∃ failure, ofClass file = .error failure := by
  refine ⟨mirrors_of_ofClass file, ?_⟩
  intro member inside descriptor types result described read entry here onParameters count rest
    contents crowded
  cases modelled : ofClass file with
  | error failure => exact ⟨failure, rfl⟩
  | ok model =>
    exfalso
    obtain ⟨place, memberHere⟩ := List.mem_iff_getElem?.1 inside
    obtain ⟨method, -, mirrors⟩ := Outcome.getElem?_of_forall₂
      (mirrors_of_ofClass file model modelled).methods place member memberHere
    obtain ⟨rows, spells, fit⟩ := mirrors.tables entry here onParameters
    obtain ⟨known, knownResult, readAgain, -, counted, -⟩ := mirrors.signature
    obtain rfl := Except.ok.inj (described.symm.trans mirrors.descriptor)
    obtain ⟨rfl, rfl⟩ := Prod.mk.inj (Except.ok.inj (read.symm.trans readAgain))
    obtain ⟨rfl, -⟩ := List.cons.inj (contents.symm.trans spells.bytes)
    rw [UInt8.toNat_ofNat_of_lt' spells.few] at crowded
    omega

/-- A class with a field that allows null and a method whose result forbids it. A table for
the parameters of the method, a long and an object, is given. -/
def markedClass (table : List UInt8) : ClassFile where
  minor := 0
  major := 49
  pool := .ofSlots (#[none] ++ (["r/A", "RuntimeVisibleAnnotations",
    "RuntimeInvisibleParameterAnnotations", "Lnotnullcheckweaver/NotNull;",
    "Lnotnullcheckweaver/Nullable;", "f", "Lr/A;", "m", "(JLr/A;)Lr/A;"].map fun text =>
      some (.utf8 (Text.ModifiedUtf8.encode text))).toArray ++ #[some (.classEntry 1)])
  access := 0x20
  thisClass := 10
  superClass := 0
  interfaces := []
  fields := [⟨0, 6, 7, [⟨2, [0, 1, 0, 5, 0, 0]⟩]⟩]
  methods := [⟨0, 8, 9, [⟨2, [0, 1, 0, 4, 0, 0]⟩, ⟨3, table⟩]⟩]
  attributes := []

/-- The model with one row in the table, which allows null. -/
def markedModel : ClassModel where
  name := "r/A"
  isInterface := false
  markers := ⟨false, false⟩
  fields := [⟨"f", "Lr/A;", false, true, ⟨false, true⟩⟩]
  methods := [⟨"m", "(JLr/A;)Lr/A;", false,
    [⟨0, 1, false, ⟨false, false⟩⟩, ⟨1, 3, true, ⟨false, true⟩⟩], .reference, ⟨true, false⟩⟩]

/-- The one row is for the second parameter; three rows are too many. -/
theorem collects_markers_markedClass :
    ofClass (markedClass [1, 0, 1, 0, 5, 0, 0]) = .ok markedModel ∧
      markedModel.Mirrors (markedClass [1, 0, 1, 0, 5, 0, 0]) ∧
      ∃ failure, ofClass (markedClass [3, 0, 0, 0, 0, 0, 0]) = .error failure := by
  have modelled : ofClass (markedClass [1, 0, 1, 0, 5, 0, 0]) = .ok markedModel := by
    decide +kernel
  refine ⟨modelled, (collects_markers _).1 markedModel modelled, ?_⟩
  exact (collects_markers (markedClass [3, 0, 0, 0, 0, 0, 0])).2 _ List.mem_cons_self
    "(JLr/A;)Lr/A;" [.long, .object "r/A".toList] (.object "r/A".toList) (by decide +kernel)
    (by decide +kernel) ⟨3, _⟩ (List.mem_cons_of_mem _ List.mem_cons_self)
    (.inr (by decide +kernel)) 3 _ rfl (by decide)

end ClassModel

end NullGuard
