import NullGuard.Proofs.Machine.Support

/-!
# What guards do

The instructions of a guard, in terms of what a machine does at them. The forms of
different length in which a variable is loaded or a number is pushed make no
difference any more.
-/

namespace NullGuard

open Machine Text.ModifiedUtf8

/-! ## Instructions -/

namespace Machine.Action

/-- The word in two bytes as they are written. -/
theorem word_written (value : UInt16) :
    (UInt8.ofNat (value.toNat / 256)).toNat * 256 + (UInt8.ofNat value.toNat).toNat =
      value.toNat := by
  have bound := value.toNat_lt
  rw [UInt8.toNat_ofNat', UInt8.toNat_ofNat']
  omega

/-- An instruction with a word does what its opcode does with that word. -/
theorem ofInstruction_withWord (pool : Pool) (opcode : UInt8) (value : UInt16) :
    ofInstruction pool (.withWord opcode value) = ofWord pool opcode value := by
  show ofWord pool opcode (UInt16.ofNat _) = _
  rw [word_written, UInt16.ofNat_toNat]

/-- Every form of loading a reference loads it from its variable. -/
theorem ofInstruction_loadLocal (pool : Pool) (slot : UInt16) :
    ofInstruction pool (.loadLocal slot) = some (.loadReference slot.toNat) := by
  rw [Instruction.loadLocal]
  split
  next small =>
    have each : ∀ low : Fin 4, ofOpcode (Opcode.aload0 + UInt8.ofNat low) =
        some (.loadReference low) := by
      decide
    have bound : slot.toNat < 4 := by
      have := UInt16.le_iff_toNat_le.1 small
      have : (3 : UInt16).toNat = 3 := rfl
      omega
    exact each ⟨slot.toNat, bound⟩
  next =>
    split
    next small =>
      have same : slot.toUInt8.toNat = slot.toNat := by
        have := UInt16.le_iff_toNat_le.1 small
        have : (255 : UInt16).toNat = 255 := rfl
        rw [UInt16.toNat_toUInt8]
        omega
      show some (loadReference slot.toUInt8.toNat) = _
      rw [same]
    next =>
      show some (loadReference _) = _
      rw [word_written]

/-- Every form of pushing a number pushes it, as far as it is no negative number of two
bytes. -/
theorem ofInstruction_pushNumber (pool : Pool) (value : UInt16) (positive : value.toNat ≤ 32767) :
    ofInstruction pool (.pushNumber value) = some (.push (.int value.toNat)) := by
  rw [Instruction.pushNumber]
  split
  next small =>
    have each : ∀ low : Fin 6, ofOpcode (Opcode.iconst0 + UInt8.ofNat low) =
        some (.push (.int low)) := by
      decide
    have bound : value.toNat < 6 := Nat.lt_succ_of_le (UInt16.le_iff_toNat_le.1 small)
    exact each ⟨value.toNat, bound⟩
  next =>
    split
    next small =>
      have same : value.toUInt8.toInt8.toInt = value.toNat := by
        have bound := UInt16.le_iff_toNat_le.1 small
        have : (127 : UInt16).toNat = 127 := rfl
        have byte : value.toUInt8.toBitVec.toNat = value.toNat % 256 := UInt16.toNat_toUInt8 value
        show value.toUInt8.toBitVec.toInt = _
        rw [BitVec.toInt_eq_toNat_cond, byte]
        split <;> omega
      show some (push (.int value.toUInt8.toInt8.toInt)) = _
      rw [same]
    next =>
      have same : value.toInt16.toInt = value.toNat := by
        have word : value.toBitVec.toNat = value.toNat := rfl
        show value.toBitVec.toInt = _
        rw [BitVec.toInt_eq_toNat_cond, word]
        split <;> omega
      rw [ofInstruction_withWord]
      show some (push (.int value.toInt16.toInt)) = _
      rw [same]

/-- Every form of loading a string constant pushes its text. -/
theorem ofInstruction_loadConstant (pool : Pool) (index : UInt16) (contents : List UInt8)
    (spells : pool.SpellsString index contents) :
    ofInstruction pool (.loadConstant index) = some (.push (.text contents)) := by
  obtain ⟨text, here, held⟩ := spells
  have pushes : ofConstant pool index = some (.push (.text contents)) := by
    simp only [ofConstant, here, (Pool.bytes?_eq_some contents).2 held, Option.map_some]
  rw [Instruction.loadConstant]
  split
  next small =>
    have same : index.toUInt8.toUInt16 = index := by
      apply UInt16.toNat_inj.1
      have := UInt16.le_iff_toNat_le.1 small
      have : (255 : UInt16).toNat = 255 := rfl
      rw [UInt8.toNat_toUInt16, UInt16.toNat_toUInt8]
      omega
    show ofConstant pool index.toUInt8.toUInt16 = _
    rw [same, pushes]
  next =>
    rw [ofInstruction_withWord]
    exact pushes

section

variable (pool : Pool) (index : UInt16) (spelling : Pool.Spelling)

/-- An action on a field is the one on the field that the index spells. -/
theorem onField_eq_some (action : Pool.Spelling → Action)
    (spells : pool.Spells .fieldRef index spelling) :
    onField pool index action = some (action spelling) := by
  obtain ⟨owner, texts, here, ofOwner, ofTexts⟩ := spells
  simp only [onField, here, Pool.spelling?_of_names ofOwner ofTexts, Option.map_some]

/-- An action on a method is the one on the method that the index spells. -/
theorem onMethod_eq_some (action : Pool.Spelling → Action)
    (spells : pool.Spells .methodRef index spelling) :
    onMethod pool index action = some (action spelling) := by
  obtain ⟨owner, texts, here, ofOwner, ofTexts⟩ := spells
  simp only [onMethod, here, Pool.spelling?_of_names ofOwner ofTexts, Option.map_some]

/-- Reading a field of an object, by the spelling of the field. -/
theorem ofInstruction_getfield (spells : pool.Spells .fieldRef index spelling) :
    ofInstruction pool (.withWord Opcode.getfield index) = some (.readInstance spelling) :=
  (ofInstruction_withWord ..).trans (onField_eq_some pool index spelling .readInstance spells)

/-- Reading a static field, by its spelling. -/
theorem ofInstruction_getstatic (spells : pool.Spells .fieldRef index spelling) :
    ofInstruction pool (.withWord Opcode.getstatic index) = some (.readStatic spelling) :=
  (ofInstruction_withWord ..).trans (onField_eq_some pool index spelling .readStatic spells)

/-- Calling a constructor or a method of the class, by its spelling. -/
theorem ofInstruction_invokespecial (spells : pool.Spells .methodRef index spelling) :
    ofInstruction pool (.withWord Opcode.invokespecial index) = some (.callSpecial spelling) :=
  (ofInstruction_withWord ..).trans (onMethod_eq_some pool index spelling .callSpecial spells)

/-- Calling a static method, by its spelling. -/
theorem ofInstruction_invokestatic (spells : pool.Spells .methodRef index spelling) :
    ofInstruction pool (.withWord Opcode.invokestatic index) = some (.callStatic spelling) :=
  (ofInstruction_withWord ..).trans (onMethod_eq_some pool index spelling .callStatic spells)

end

end Machine.Action

/-! ## Groups -/

/-- What the instructions of a group do, one after the other. -/
def Does (pool : Pool) (group : List (Instruction Label)) (actions : List Action) : Prop :=
  group.map (Action.ofInstruction pool) = actions.map some

section

variable {pool : Pool} {kind : CheckKind} {group : List (Instruction Label)}

/-- The call of a check calls the method of that check. -/
theorem IsCheckCall.ofInstruction {instruction : Instruction Label}
    (call : IsCheckCall pool kind instruction) :
    Action.ofInstruction pool instruction = some (.callStatic kind.method) := by
  obtain ⟨index, rfl, spells⟩ := call
  exact Action.ofInstruction_invokestatic pool index _ spells

/-- The guard of the topmost value copies it and calls the check. -/
theorem ChecksTop.does (checks : ChecksTop pool kind group) :
    Does pool group [.dup, .callStatic kind.method] := by
  obtain ⟨call, rfl, isCall⟩ := checks
  rw [Does, List.map_cons, List.map_cons, isCall.ofInstruction]
  rfl

/-- The guard of a parameter loads it, pushes its position and calls the check. -/
theorem ChecksParameter.does {parameter : ParameterModel}
    (checks : ChecksParameter pool parameter group) (positive : parameter.index ≤ 32767) :
    Does pool group [.loadReference parameter.slot.toNat, .push (.int parameter.index),
      .callStatic CheckKind.argument.method] := by
  obtain ⟨bound, call, isCall, rfl⟩ := checks
  have index : (UInt16.ofNat parameter.index).toNat = parameter.index :=
    UInt16.toNat_ofNat_of_lt' bound
  rw [Does, List.map_cons, List.map_cons, List.map_cons, isCall.ofInstruction,
    Action.ofInstruction_loadLocal,
    Action.ofInstruction_pushNumber _ _ (by rw [index]; exact positive),
    index]
  rfl

/-- The actions that read a field. -/
def CheckKind.reading (kind : CheckKind) (field : Pool.Spelling) : List Action :=
  if kind = .constructorField then [.loadReference 0, .readInstance field] else [.readStatic field]

/-- A field of a class as a guard spells it. -/
def FieldKey.spelling (key : FieldKey) (className : String) : Pool.Spelling :=
  .ofMember ⟨className, key.name, key.descriptor⟩

/-- The guard of a field reads it, pushes its name and calls the check. The field is looked
for by the bytes that stand for its name, not by the name. -/
theorem ChecksField.does {className : String} {key : FieldKey}
    (checks : ChecksField pool className kind key group) :
    Does pool group (kind.reading (key.spelling className) ++
      [.push (.text (key.spelling className).name), .callStatic kind.method]) := by
  obtain ⟨field, name, call, ofField, ofName, isCall, rfl⟩ := checks
  have reads : (fieldReading kind field).map (Action.ofInstruction pool) =
      (kind.reading (key.spelling className)).map some := by
    rw [fieldReading, CheckKind.reading]
    split
    · rw [List.map_cons, List.map_cons, Action.ofInstruction_getfield pool field _ ofField]
      rfl
    · rw [List.map_cons, Action.ofInstruction_getstatic pool field _ ofField]
      rfl
  rw [Does, List.map_append, List.map_append, reads, List.map_cons, List.map_cons,
    isCall.ofInstruction, Action.ofInstruction_loadConstant _ _ _ ofName]
  rfl

end

/-! ## Groups in a frame -/

namespace Machine

/-- What a guard reads from a field: a constructor is guarded by what its receiver holds,
any other method by what the class holds. -/
def Heap.read (heap : Heap) (receiver : Value) (kind : CheckKind) (field : Pool.Spelling) :
    Value :=
  match kind, receiver with
  | .constructorField, .object address =>
    (heap.objects[address]?.map fun object => object.fields.value field).getD .null
  | .constructorField, _ => .null
  | _, _ => heap.statics.value field

/-- The check of a field, which is told its name. -/
def Check.ofField (heap : Heap) (receiver : Value) (kind : CheckKind) (field : Pool.Spelling) :
    Check :=
  ⟨kind, heap.read receiver kind field, [.text field.name]⟩

/-- Guards of a kind can read a field: a reference to it finds it, and it holds references. -/
structure Readable (program : Program) (kind : CheckKind) (field : Pool.Spelling) : Prop where
  resolved : program.resolve field (kind != .constructorField) = .found field
  holds : (Value.initial field.descriptor).isReference = true

section

variable (program : Program) (callers : List Frame) (heap : Heap) (frame : Frame)
variable (supported : Supported program) (room : depth frame.stack + 2 ≤ frame.limit)
variable (group : List (Instruction Label)) (stands : group <+: frame.code.drop frame.position)
include supported room stands

/-- The reference on top of the operand stack is checked and stays there. -/
theorem makes_top (kind : CheckKind) (untold : kind.detail = .none)
    (checks : ChecksTop frame.pool kind group) (value : Value) (rest : List Value)
    (here : frame.stack = value :: rest) (reference : value.isReference = true) :
    Makes program callers heap frame group.length frame.stack [⟨kind, value, []⟩] := by
  have performs := frame.performs_of_code group _ stands checks.does
  have single := value.width_of_isReference reference
  have doubles := makes_dup program callers heap frame value rest (performs 0 _ rfl) here single
    (by rw [depth_cons, single]; omega)
  have tests := makes_check program callers heap (frame.next (value :: frame.stack)) kind []
    (by rw [untold]; rfl) supported value reference frame.stack (performs 1 _ rfl) rfl
  obtain ⟨call, rfl, -⟩ := checks
  exact doubles.append tests

/-- A parameter is loaded and checked, and the check is told its position. -/
theorem makes_parameter (parameter : ParameterModel) (positive : parameter.index ≤ 32767)
    (checks : ChecksParameter frame.pool parameter group) (value : Value)
    (here : frame.locals[parameter.slot.toNat]? = some value)
    (reference : value.isReference = true) :
    Makes program callers heap frame group.length frame.stack
      [⟨.argument, value, [.int parameter.index]⟩] := by
  have performs := frame.performs_of_code group _ stands (checks.does positive)
  have single := value.width_of_isReference reference
  have loads := makes_loadReference program callers heap frame _ value (performs 0 _ rfl) here
    reference (by rw [depth_cons, single]; omega)
  have tells := makes_push program callers heap (frame.next (value :: frame.stack))
    (.int parameter.index) (performs 1 _ rfl) (by
      show depth (.int parameter.index :: value :: frame.stack) ≤ frame.limit
      rw [depth_cons, depth_cons, single, Value.width_int]
      omega)
  have tests := makes_check program callers heap
    (frame.goto (frame.position + 2) (.int parameter.index :: value :: frame.stack)) .argument
    [.int parameter.index] ⟨_, rfl⟩ supported value reference frame.stack (performs 2 _ rfl) rfl
  obtain ⟨-, call, -, rfl⟩ := checks
  exact (loads.append tells).append tests

end

/-- Groups that stand one behind the other make their checks one after the other. -/
theorem makes_flatten {α : Type} (program : Program) (callers : List Frame) (heap : Heap)
    (frame : Frame) (Checks : α → List (Instruction Label) → Prop) (check : α → Check)
    (items : List α) (groups : List (List (Instruction Label)))
    (each : List.Forall₂ Checks items groups)
    (one : ∀ item ∈ items, ∀ position group, group <+: frame.code.drop position →
      Checks item group → Makes program callers heap (frame.goto position frame.stack)
        group.length frame.stack [check item])
    (position : Nat) (stands : groups.flatten <+: frame.code.drop position) :
    Makes program callers heap (frame.goto position frame.stack) groups.flatten.length frame.stack
      (items.map check) := by
  -- Each group leaves the operand stack as it was, so the next one begins as the first did.
  induction each generalizing position with
  | nil => exact makes_nothing program callers heap (frame.goto position frame.stack)
  | @cons item group items groups checks _ inductionHypothesis =>
    rw [List.flatten_cons] at stands ⊢
    rw [List.length_append]
    have behind : groups.flatten <+: frame.code.drop (position + group.length) := by
      obtain ⟨back, same⟩ := stands
      rw [← List.drop_drop, ← same, List.append_assoc, List.drop_left]
      exact List.prefix_append _ _
    have first := one item List.mem_cons_self position group
      ((List.prefix_append _ _).trans stands) checks
    exact first.append (inductionHypothesis
      (fun other inside => one other (List.mem_cons_of_mem _ inside)) _ behind)

/-! ## Checks of fields -/

/-- Where a constructor is guarded its receiver is in the first local variable. -/
def Receives (heap : Heap) (locals : List Value) (kind : CheckKind) : Prop :=
  kind = .constructorField → ∃ address object, locals[0]? = some (.object address) ∧
    heap.objects[address]? = some object

/-- In a constructor the fields of the object are read. -/
theorem Heap.read_constructorField (heap : Heap) (address : Address) (object : Object)
    (there : heap.objects[address]? = some object) (field : Pool.Spelling) :
    heap.read (.object address) .constructorField field = object.fields.value field := by
  rw [read, there]
  rfl

/-- For any other check of a field the static fields are read. -/
theorem Heap.read_of_ne (heap : Heap) (receiver : Value) (kind : CheckKind)
    (statics : kind ≠ .constructorField) (field : Pool.Spelling) :
    heap.read receiver kind field = heap.statics.value field := by
  cases kind <;> first | rfl | exact (statics rfl).elim

section

variable (program : Program) (callers : List Frame) (heap : Heap) (frame : Frame)
variable (kind : CheckKind) (receives : Receives heap frame.locals kind)
variable (field : Pool.Spelling) (readable : Readable program kind field)
include receives readable

/-- A field that can be read is read as a reference. -/
theorem makes_reading (room : depth frame.stack + 1 ≤ frame.limit)
    (performs : frame.Performs (kind.reading field)) :
    (heap.read (frame.locals.getD 0 .null) kind field).isReference = true ∧
      Makes program callers heap frame (kind.reading field).length
        (heap.read (frame.locals.getD 0 .null) kind field :: frame.stack) [] := by
  by_cases instances : kind = .constructorField
  · obtain ⟨address, object, first, there⟩ := receives instances
    subst instances
    have reference := object.fields.typed field readable.holds
    have single := Value.width_of_isReference _ reference
    rw [List.getD_eq_getElem?_getD, first, Option.getD_some,
      heap.read_constructorField address object there]
    have loads := makes_loadReference program callers heap frame 0 (.object address)
      (performs 0 _ rfl) first rfl (by rw [depth_cons, Value.width_object]; omega)
    have reads := makes_readInstance program callers heap
      (frame.next (.object address :: frame.stack)) field address frame.stack object
      (performs 1 _ rfl) readable.resolved rfl there (by
        show depth (_ :: frame.stack) ≤ frame.limit
        rw [depth_cons, single]
        omega)
    exact ⟨reference, loads.append reads⟩
  · have reference := heap.statics.typed field readable.holds
    have resolved : program.resolve field true = .found field := by
      have found := readable.resolved
      rwa [bne_iff_ne.2 instances] at found
    have single := Value.width_of_isReference _ reference
    rw [CheckKind.reading, if_neg instances] at performs ⊢
    rw [heap.read_of_ne _ kind instances]
    exact ⟨reference, makes_readStatic program callers heap frame field (performs 0 _ rfl)
      resolved (by rw [depth_cons, single]; omega)⟩

end

section

variable (program : Program) (callers : List Frame) (heap : Heap) (frame : Frame)
variable (supported : Supported program) (room : depth frame.stack + 2 ≤ frame.limit)
variable (className : String) (kind : CheckKind) (told : kind.detail = .fieldName)
variable (receives : Receives heap frame.locals kind)
include supported room told receives

/-- A field is read and checked, and the check is told its name. -/
theorem makes_field (key : FieldKey)
    (readable : Readable program kind (key.spelling className))
    (group : List (Instruction Label)) (stands : group <+: frame.code.drop frame.position)
    (checks : ChecksField frame.pool className kind key group) :
    Makes program callers heap frame group.length frame.stack
      [.ofField heap (frame.locals.getD 0 .null) kind (key.spelling className)] := by
  have does := checks.does
  have counted := congrArg List.length does
  have performs := frame.performs_of_code group _ stands does
  let field : Pool.Spelling := key.spelling className
  let value := heap.read (frame.locals.getD 0 .null) kind field
  obtain ⟨reference, reads⟩ := makes_reading program callers heap frame kind receives field
    readable (by omega) performs.left
  have ahead := performs.right (value :: frame.stack)
  have single := Value.width_of_isReference value reference
  have tells := makes_push program callers heap _ (.text field.name) (ahead 0 _ rfl) (by
    show depth (.text field.name :: value :: frame.stack) ≤ frame.limit
    rw [depth_cons, depth_cons, single, Value.width_text]
    omega)
  have tests := makes_check program callers heap
    (frame.goto (frame.position + (kind.reading field).length + 1)
      (.text field.name :: value :: frame.stack)) kind [.text field.name]
    (by rw [told]; exact ⟨_, rfl⟩) supported value reference frame.stack (ahead 1 _ rfl) rfl
  have length : group.length = (kind.reading field).length + (1 + 1) := by
    rw [List.length_map, List.length_map, List.length_append] at counted
    exact counted
  rw [length]
  exact reads.append (tells.append tests)

/-- Fields are checked one after the other. -/
theorem makes_fields (keys : List FieldKey)
    (readable : ∀ key ∈ keys, Readable program kind (key.spelling className))
    (group : List (Instruction Label)) (stands : group <+: frame.code.drop frame.position)
    (checks : ChecksFields frame.pool className kind keys group) :
    Makes program callers heap frame group.length frame.stack
      ((keys.map (·.spelling className)).map
        (.ofField heap (frame.locals.getD 0 .null) kind)) := by
  obtain ⟨groups, each, rfl⟩ := checks
  rw [List.map_map]
  refine makes_flatten program callers heap frame _ _ keys groups each ?_ frame.position stands
  intro key inside position group stands checks
  exact makes_field program callers heap (frame.goto position frame.stack) supported room className
    kind told receives key (readable key inside) group stands checks

end

end Machine

end NullGuard
