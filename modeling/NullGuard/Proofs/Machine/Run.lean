import NullGuard.Proofs.Guard.Method
import NullGuard.Proofs.Machine.Basic

/-!
# Runs of the machine

A stretch of code makes checks: if none of them is made on null, execution gets
behind the stretch and the heap is what it was; otherwise the first check that is
made on null throws. `Makes` says so of a frame and a number of instructions, and
stretches that follow each other make their checks in that order (`Makes.append`).
A method called makes its checks for the instruction that calls it (`makes_of_call`).
-/

namespace NullGuard.Machine

open Text.ModifiedUtf8

/-! ## Checks -/

/-- A check that is made: on a value, and with what it is told besides. -/
structure Check where
  kind : CheckKind
  subject : Value
  details : List Value
  deriving DecidableEq, Repr

namespace Check

/-- Whether the check throws. -/
def fails (check : Check) : Bool := check.subject == .null

/-- What the check throws: an exception of its class, constructed with what the check
was told. -/
def exception (check : Check) : Object where
  className := encode check.kind.exceptionClass
  construction := some ⟨encode check.kind.constructorDescriptor, check.details⟩
  fields := .initial

end Check

/-- From a frame on, some checks are made within a number of instructions. Without a
failing check execution gets behind these instructions, with the operand stack given.
With one, the exception of the first is thrown while the frame is at one of them. -/
def Makes (program : Program) (callers : List Frame) (heap : Heap) (frame : Frame) (count : Nat)
    (stack : List Value) (checks : List Check) : Prop :=
  match checks.find? Check.fails with
  | none =>
    Reaches program ⟨frame :: callers, heap, none⟩
      ⟨frame.goto (frame.position + count) stack :: callers, heap, none⟩
  | some check => ∃ position left, frame.position ≤ position ∧
      position < frame.position + count ∧
      Reaches program ⟨frame :: callers, heap, none⟩
        ⟨frame.goto position left :: callers, heap.add check.exception, some heap.fresh⟩

/-! ## Actions ahead -/

namespace Frame

/-- The instructions from the position of the frame on do what is listed. -/
def Performs (frame : Frame) (actions : List Action) : Prop :=
  ∀ place action, actions[place]? = some action →
    frame.actionAt (frame.position + place) = some action

/-- What is listed behind is performed from there on. -/
theorem Performs.right {frame : Frame} {first second : List Action}
    (performs : frame.Performs (first ++ second)) (stack : List Value) :
    (frame.goto (frame.position + first.length) stack).Performs second := by
  intro place action here
  have there := performs (first.length + place) action (by
    rw [List.getElem?_append_right (Nat.le_add_right _ _), Nat.add_sub_cancel_left]
    exact here)
  rw [← Nat.add_assoc] at there
  exact there

/-- What is listed in front is performed first. -/
theorem Performs.left {frame : Frame} {first second : List Action}
    (performs : frame.Performs (first ++ second)) : frame.Performs first := by
  intro place action here
  refine performs place action ?_
  rw [List.getElem?_append_left (List.getElem?_eq_some_iff.1 here).1]
  exact here

/-- A group performs what its instructions do. -/
theorem performs_of_code (frame : Frame) (group : List (Instruction Label))
    (actions : List Action) (stands : group <+: frame.code.drop frame.position)
    (does : group.map (Action.ofInstruction frame.pool) = actions.map some) :
    frame.Performs actions := by
  intro place action here
  have inside : (group.map (Action.ofInstruction frame.pool))[place]? = some (some action) := by
    rw [does, List.getElem?_map, here]
    rfl
  rw [List.getElem?_map, Option.map_eq_some_iff] at inside
  obtain ⟨instruction, inGroup, acts⟩ := inside
  have inCode : frame.code[frame.position + place]? = some instruction := by
    obtain ⟨within, same⟩ := List.getElem?_eq_some_iff.1 inGroup
    rw [← List.getElem?_drop, List.prefix_iff_getElem?.1 stands place within, same]
  rw [actionAt, inCode]
  exact acts

end Frame

/-! ## Steps -/

/-- A step in front of a run makes a run. -/
theorem Reaches.head {program : Program} {first second third : State}
    (one : step program first = some second) (more : Reaches program second third) :
    Reaches program first third :=
  Relation.ReflTransGen.head one more

/-- A run behind a run makes a run. -/
theorem Reaches.trans {program : Program} {first second third : State}
    (begun : Reaches program first second) (ended : Reaches program second third) :
    Reaches program first third :=
  Relation.ReflTransGen.trans begun ended

/-- A step behind a run makes a run. -/
theorem Reaches.tail {program : Program} {first second third : State}
    (more : Reaches program first second) (one : step program second = some third) :
    Reaches program first third :=
  Relation.ReflTransGen.tail more one

section

variable (program : Program) (callers : List Frame) (heap : Heap) (frame : Frame)

/-- Execution does what the instruction at the position does. -/
theorem step_of_action (action : Action) (does : frame.actionAt frame.position = some action) :
    step program ⟨frame :: callers, heap, none⟩ = perform program frame callers heap action := by
  show (frame.actionAt frame.position).bind _ = _
  rw [does]
  rfl

/-- No instructions make no checks. -/
theorem makes_nothing : Makes program callers heap frame 0 frame.stack [] :=
  Relation.ReflTransGen.refl

/-- One instruction that makes no check. -/
theorem makes_of_action (action : Action) (stack : List Value)
    (does : frame.actionAt frame.position = some action)
    (performed : perform program frame callers heap action =
      some ⟨frame.next stack :: callers, heap, none⟩) :
    Makes program callers heap frame 1 stack [] :=
  .single ((step_of_action program callers heap frame action does).trans performed)

variable {program callers heap frame}

/-- Checks are made one after the other. -/
theorem Makes.append {first second : Nat} {middle stack : List Value}
    {checks others : List Check} (begun : Makes program callers heap frame first middle checks)
    (ended : Makes program callers heap (frame.goto (frame.position + first) middle) second stack
      others) :
    Makes program callers heap frame (first + second) stack (checks ++ others) := by
  rw [Makes] at begun ended ⊢
  rw [List.find?_append]
  -- A check that fails in the first stretch fails for both: what is behind it never runs.
  cases found : checks.find? Check.fails with
  | some check =>
    rw [found] at begun
    obtain ⟨position, left, behind, ahead, reaches⟩ := begun
    exact ⟨position, left, behind, by omega, reaches⟩
  | none =>
    rw [found] at begun
    rw [Option.none_or]
    cases foundLater : others.find? Check.fails with
    | some check =>
      rw [foundLater] at ended
      obtain ⟨position, left, behind, ahead, reaches⟩ := ended
      have behind : frame.position + first ≤ position := behind
      have ahead : position < frame.position + first + second := ahead
      exact ⟨position, left, by omega, by omega, begun.trans reaches⟩
    | none =>
      rw [foundLater] at ended
      have further := begun.trans ended
      rw [← Nat.add_assoc]
      exact further

end

/-! ## Single instructions -/

/-- References take one cell. -/
theorem Value.width_of_isReference (value : Value) (reference : value.isReference = true) :
    value.width = 1 := by
  cases value <;> first | rfl | cases reference

/-- An empty stack has no cells. -/
@[simp]
theorem depth_nil : depth [] = 0 := rfl

/-- Each value adds its width to the stack. -/
@[simp]
theorem depth_cons (value : Value) (stack : List Value) :
    depth (value :: stack) = value.width + depth stack := by
  rw [depth, List.map_cons, List.sum_cons, ← depth]

section

variable (program : Program) (callers : List Frame) (heap : Heap) (frame : Frame)

/-- A value is pushed if there is room for it. -/
theorem push_eq_some (value : Value) (stack : List Value)
    (room : depth (value :: stack) ≤ frame.limit) :
    frame.push value stack = some (frame.next (value :: stack)) :=
  if_pos room

/-- Loading a reference makes no check. -/
theorem makes_loadReference (slot : Nat) (value : Value)
    (does : frame.actionAt frame.position = some (.loadReference slot))
    (here : frame.locals[slot]? = some value) (reference : value.isReference = true)
    (room : depth (value :: frame.stack) ≤ frame.limit) :
    Makes program callers heap frame 1 (value :: frame.stack) [] := by
  refine makes_of_action _ _ _ _ _ _ does ?_
  simp [perform, here, reference, push_eq_some frame value frame.stack room]

/-- Loading a number makes no check. -/
theorem makes_loadInt (slot : Nat) (number : Int)
    (does : frame.actionAt frame.position = some (.loadInt slot))
    (here : frame.locals[slot]? = some (.int number))
    (room : depth (.int number :: frame.stack) ≤ frame.limit) :
    Makes program callers heap frame 1 (.int number :: frame.stack) [] := by
  refine makes_of_action _ _ _ _ _ _ does ?_
  simp [perform, here, push_eq_some frame (.int number) frame.stack room]

/-- Pushing a value makes no check. -/
theorem makes_push (value : Value) (does : frame.actionAt frame.position = some (.push value))
    (room : depth (value :: frame.stack) ≤ frame.limit) :
    Makes program callers heap frame 1 (value :: frame.stack) [] := by
  refine makes_of_action _ _ _ _ _ _ does ?_
  simp [perform, push_eq_some frame value frame.stack room]

/-- Copying the topmost value makes no check. -/
theorem makes_dup (value : Value) (rest : List Value)
    (does : frame.actionAt frame.position = some .dup) (here : frame.stack = value :: rest)
    (single : value.width = 1) (room : depth (value :: frame.stack) ≤ frame.limit) :
    Makes program callers heap frame 1 (value :: frame.stack) [] := by
  refine makes_of_action _ _ _ _ _ _ does ?_
  have pushed := push_eq_some frame value frame.stack room
  simp only [here] at pushed ⊢
  simp [perform, here, single, pushed]

/-- Reading a field of an object makes no check, if the field is found where it is looked
for. -/
theorem makes_readInstance (field : Pool.Spelling) (address : Address) (rest : List Value)
    (object : Object) (does : frame.actionAt frame.position = some (.readInstance field))
    (resolved : program.resolve field false = .found field)
    (here : frame.stack = .object address :: rest) (there : heap.objects[address]? = some object)
    (room : depth (object.fields.value field :: rest) ≤ frame.limit) :
    Makes program callers heap frame 1 (object.fields.value field :: rest) [] := by
  refine makes_of_action _ _ _ _ _ _ does ?_
  simp [perform, here, there, resolved, push_eq_some frame (object.fields.value field) rest room]

/-- Reading a static field makes no check, if the field is found where it is looked for. -/
theorem makes_readStatic (field : Pool.Spelling)
    (does : frame.actionAt frame.position = some (.readStatic field))
    (resolved : program.resolve field true = .found field)
    (room : depth (heap.statics.value field :: frame.stack) ≤ frame.limit) :
    Makes program callers heap frame 1 (heap.statics.value field :: frame.stack) [] := by
  refine makes_of_action _ _ _ _ _ _ does ?_
  simp [perform, resolved, push_eq_some frame (heap.statics.value field) frame.stack room]

/-! Instructions after which something else has changed than the operand stack. -/

/-- Execution goes on behind the jump if the topmost reference is null, and at its target if
it is not. -/
theorem step_jumpUnlessNull (target : Nat) (value : Value) (rest : List Value)
    (does : frame.actionAt frame.position = some (.jumpUnlessNull target))
    (here : frame.stack = value :: rest) (reference : value.isReference = true) :
    step program ⟨frame :: callers, heap, none⟩ =
      some ⟨frame.goto (if value = .null then frame.position + 1 else target) rest :: callers, heap,
        none⟩ := by
  rw [step_of_action program callers heap frame _ does]
  simp [perform, here, reference]

/-- A new object is pushed. Its fields hold nothing yet, and no constructor has seen it. -/
theorem step_make (className : List UInt8)
    (does : frame.actionAt frame.position = some (.make className))
    (room : depth (.object heap.fresh :: frame.stack) ≤ frame.limit) :
    step program ⟨frame :: callers, heap, none⟩ =
      some ⟨frame.next (.object heap.fresh :: frame.stack) :: callers,
        heap.add ⟨className, none, .initial⟩, none⟩ := by
  rw [step_of_action program callers heap frame _ does]
  simp [perform, push_eq_some frame (.object heap.fresh) frame.stack room]

/-- A constructor is not entered: the object is taken as constructed with its arguments. -/
theorem step_construct (constructor : Pool.Spelling) (count : Nat) (address : Address)
    (rest : List Value) (after : Heap)
    (does : frame.actionAt frame.position = some (.callSpecial constructor))
    (named : constructor.name = encode SupportClass.constructorName)
    (takes : arity constructor.descriptor = some count)
    (here : frame.stack.drop count = .object address :: rest)
    (constructed : heap.construct address constructor.owner
      ⟨constructor.descriptor, (frame.stack.take count).reverse⟩ = some after) :
    step program ⟨frame :: callers, heap, none⟩ =
      some ⟨frame.next rest :: callers, after, none⟩ := by
  rw [step_of_action program callers heap frame _ does]
  simp [perform, takes, here, named, constructed]

/-- A method of an object is entered with the object and the arguments for its locals. -/
theorem step_callSpecial (method : Pool.Spelling) (count : Nat) (address : Address)
    (rest : List Value) (callee : Frame)
    (does : frame.actionAt frame.position = some (.callSpecial method))
    (named : method.name ≠ encode SupportClass.constructorName)
    (takes : arity method.descriptor = some count)
    (here : frame.stack.drop count = .object address :: rest)
    (entered : program.enter method false (.object address :: (frame.stack.take count).reverse) =
      some callee) :
    step program ⟨frame :: callers, heap, none⟩ =
      some ⟨callee :: frame.goto frame.position rest :: callers, heap, none⟩ := by
  rw [step_of_action program callers heap frame _ does]
  simp [perform, takes, here, named, entered]

/-- A static method is entered with the arguments for its locals. -/
theorem step_callStatic (method : Pool.Spelling) (count : Nat) (callee : Frame)
    (does : frame.actionAt frame.position = some (.callStatic method))
    (takes : arity method.descriptor = some count) (enough : count ≤ frame.stack.length)
    (entered : program.enter method true (frame.stack.take count).reverse = some callee) :
    step program ⟨frame :: callers, heap, none⟩ =
      some ⟨callee :: frame.goto frame.position (frame.stack.drop count) :: callers, heap,
        none⟩ := by
  rw [step_of_action program callers heap frame _ does]
  simp [perform, takes, enough, entered]

/-- The topmost reference is thrown. -/
theorem step_throw (address : Address) (rest : List Value)
    (does : frame.actionAt frame.position = some .throw)
    (here : frame.stack = .object address :: rest) :
    step program ⟨frame :: callers, heap, none⟩ = some ⟨frame :: callers, heap, some address⟩ := by
  rw [step_of_action program callers heap frame _ does, perform, here]

end

/-! ## Calls -/

/-- A call begins with the code of the method that is found. -/
theorem enter_eq_some (program : Program) (method : Pool.Spelling) (isStatic : Bool)
    (arguments : List Value) (file : ClassFile) (member : Member) (body : Body) (stream : Stream)
    (found : program.find? method = some (file, member)) (static : member.isStatic = isStatic)
    (holds : member.HasBody file.pool body stream)
    (room : (arguments.flatMap Value.cells).length ≤ body.maxLocals.toNat) :
    program.enter method isStatic arguments = some
      { pool := file.pool
        code := stream.instructions
        handlers := body.handlers
        limit := body.maxStack.toNat
        position := 0
        locals := arguments.flatMap Value.cells
        stack := [] } := by
  obtain ⟨code, attributed, parsed, decoded⟩ := holds
  simp only [Program.enter, found, static, attributed, parsed, decoded, Except.toOption, room,
    guard, if_true, Option.bind_eq_bind, Option.bind_some]
  rfl

/-- A call depends on its arguments only by the local variables that they take. -/
theorem enter_of_length (program : Program) (method : Pool.Spelling) (isStatic : Bool)
    (arguments others : List Value) (callee : Frame)
    (same : (others.flatMap Value.cells).length = (arguments.flatMap Value.cells).length)
    (entered : program.enter method isStatic arguments = some callee) :
    program.enter method isStatic others =
      some { callee with locals := others.flatMap Value.cells } := by
  simp only [Program.enter, Option.bind_eq_bind, Option.bind_eq_some_iff] at entered ⊢
  obtain ⟨found, isFound, _, static, code, attributed, body, parsed, stream, decoded, _, room,
    returned⟩ := entered
  obtain rfl := Option.some.inj returned
  rw [← same] at room
  exact ⟨found, isFound, (), static, code, attributed, body, parsed, stream, decoded, (), room, rfl⟩

/-- A method that some classes have is called also if more classes are loaded. -/
theorem enter_append (files others : Program) (method : Pool.Spelling) (isStatic : Bool)
    (arguments : List Value) (callee : Frame)
    (entered : Program.enter files method isStatic arguments = some callee) :
    Program.enter (files ++ others) method isStatic arguments = some callee := by
  simp only [Program.enter, Option.bind_eq_bind, Option.bind_eq_some_iff] at entered ⊢
  obtain ⟨found, isFound, rest⟩ := entered
  refine ⟨found, ?_, rest⟩
  rw [Program.find?, List.findSome?_append, ← Program.find?, isFound]
  rfl

/-- The checks that a method makes are made by the instruction that calls it. If one
fails, the frame of the method is left, as it has no handlers. -/
theorem makes_of_call {program : Program} {callers : List Frame} {heap : Heap} {frame : Frame}
    (callee : Frame) (rest left : List Value) (count : Nat) (checks : List Check)
    (called : step program ⟨frame :: callers, heap, none⟩ =
      some ⟨callee :: frame.goto frame.position rest :: callers, heap, none⟩)
    (unhandled : callee.handlers = [])
    (makes : Makes program (frame.goto frame.position rest :: callers) heap callee count left
      checks)
    (finishes : callee.actionAt (callee.position + count) = some .finish) :
    Makes program callers heap frame 1 rest checks := by
  rw [Makes] at makes ⊢
  cases found : checks.find? Check.fails with
  | none =>
    rw [found] at makes
    have finished : step program ⟨callee.goto (callee.position + count) left ::
        frame.goto frame.position rest :: callers, heap, none⟩ =
          some ⟨frame.goto (frame.position + 1) rest :: callers, heap, none⟩ :=
      step_of_action program _ heap _ .finish finishes
    exact (Reaches.head called makes).tail finished
  | some check =>
    rw [found] at makes
    obtain ⟨position, stack, -, -, thrown⟩ := makes
    -- The caller still waits at the call, so that is where it gets the exception.
    have leaves : step program ⟨callee.goto position stack ::
        frame.goto frame.position rest :: callers, heap.add check.exception, some heap.fresh⟩ =
          some ⟨frame.goto frame.position rest :: callers, heap.add check.exception,
            some heap.fresh⟩ :=
      if_pos unhandled
    exact ⟨frame.position, rest, Nat.le_refl _, Nat.lt_succ_self _,
      (Reaches.head called thrown).tail leaves⟩

end NullGuard.Machine
