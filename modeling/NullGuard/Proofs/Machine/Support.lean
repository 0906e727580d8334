import NullGuard.Proofs.Machine.Run

/-!
# Checks of the support classes

The methods of the helper class make the checks that they are there for. Which
instructions they consist of once they are loaded is a matter of one computation;
what a check does with the value that it is made on follows from these
instructions (`makes_actions`).
-/

namespace NullGuard

open Machine Text.ModifiedUtf8

/-- The instruction that loads the detail of a check, if there is one. -/
def CheckDetail.loads : CheckDetail → List Action
  | .none => []
  | .argumentIndex => [.loadInt 1]
  | .fieldName => [.loadReference 1]

/-- What a check may be told as its detail. -/
def CheckDetail.Admits : CheckDetail → List Value → Prop
  | .none, details => details = []
  | .argumentIndex, details => ∃ index, details = [.int index]
  | .fieldName, details => ∃ name, details = [.text name]

/-- A check is told one detail or none. -/
theorem CheckDetail.Admits.single {detail : CheckDetail} {details : List Value}
    (admitted : detail.Admits details) :
    details.length = detail.loads.length ∧ details.reverse = details ∧
      details.flatMap Value.cells = details ∧ depth details = detail.loads.length := by
  cases detail with
  | none =>
    obtain rfl := admitted
    exact ⟨rfl, rfl, rfl, rfl⟩
  | argumentIndex =>
    obtain ⟨index, rfl⟩ := admitted
    exact ⟨rfl, rfl, rfl, rfl⟩
  | fieldName =>
    obtain ⟨name, rfl⟩ := admitted
    exact ⟨rfl, rfl, rfl, rfl⟩

namespace CheckKind

/-- The method that makes the checks. -/
def method (kind : CheckKind) : Pool.Spelling :=
  .ofMember ⟨helperClass, kind.methodName, kind.methodDescriptor⟩

/-- The constructor of what is thrown. -/
def constructor (kind : CheckKind) : Pool.Spelling :=
  .ofMember ⟨kind.exceptionClass, SupportClass.constructorName, kind.constructorDescriptor⟩

/-- The constructor of an exception has the name of all constructors. -/
theorem name_constructor (kind : CheckKind) :
    kind.constructor.name = encode SupportClass.constructorName := by
  rw [constructor, Pool.Spelling.name_ofMember]

/-- Make the exception and throw it. -/
def throwing (kind : CheckKind) : List Action :=
  [.make (encode kind.exceptionClass), .dup] ++
    (kind.detail.loads ++ [.callSpecial kind.constructor, .throw])

/-- What the method does. -/
def actions (kind : CheckKind) : List Action :=
  [.loadReference 0, .jumpUnlessNull (6 + kind.detail.loads.length)] ++ (kind.throwing ++ [.finish])

end CheckKind

namespace Machine

/-! ## The checks as they are loaded -/

/-- The helper class as it is loaded. -/
def helperFile : Except Failure ClassFile := do
  ClassFile.parse (← SupportClass.helper).bytes

/-- A frame in which a check begins. -/
structure BeginsCheck (kind : CheckKind) (frame : Frame) : Prop where
  actions : frame.code.map (Action.ofInstruction frame.pool) = kind.actions.map some
  handlers : frame.handlers = []
  limit : frame.limit = 2 + kind.detail.loads.length
  position : frame.position = 0
  stack : frame.stack = []

/-- Whether a frame begins a check can be seen from its parts. -/
instance (kind : CheckKind) (frame : Frame) : Decidable (BeginsCheck kind frame) :=
  decidable_of_iff
    (frame.code.map (Action.ofInstruction frame.pool) = kind.actions.map some ∧
      frame.handlers = [] ∧ frame.limit = 2 + kind.detail.loads.length ∧
      frame.position = 0 ∧ frame.stack = [])
    ⟨fun ⟨actions, handlers, limit, position, stack⟩ =>
      ⟨actions, handlers, limit, position, stack⟩,
    fun ⟨actions, handlers, limit, position, stack⟩ =>
      ⟨actions, handlers, limit, position, stack⟩⟩

/-- A check of a class begins when its method is called with as many arguments as the
check takes. -/
def beginsCheck (file : ClassFile) (kind : CheckKind) : Bool :=
  match Program.enter [file] kind.method true
      (List.replicate (1 + kind.detail.loads.length) .null) with
  | none => false
  | some frame => decide (BeginsCheck kind frame)

/-- A class makes all checks, and has no field and no method of a name that weaving gives. -/
def isHelper (file : ClassFile) : Bool :=
  CheckKind.all.all (beginsCheck file) && !file.hasMethod instanceCheckMethod &&
    !file.hasMethod staticCheckMethod && file.fields.isEmpty

/-- The class that is written for the checks makes them, as it is loaded. -/
theorem isHelper_helperFile : (helperFile.map isHelper).toOption = some true := by
  decide +kernel

/-- A program can call the checks. -/
def Supported (program : Program) : Prop :=
  ∀ kind arguments, (arguments.flatMap Value.cells).length = 1 + kind.detail.loads.length →
    ∃ callee, program.enter kind.method true arguments = some callee ∧ BeginsCheck kind callee ∧
      callee.locals = arguments.flatMap Value.cells

/-- The helper class can be written and loaded. -/
theorem exists_helperFile : ∃ file, helperFile = .ok file := by
  have helper := isHelper_helperFile
  cases loaded : helperFile with
  | ok file => exact ⟨file, rfl⟩
  | error failure =>
    rw [loaded] at helper
    cases helper

/-- Whatever is loaded as the helper class makes the checks. -/
theorem isHelper_of_loaded (file : ClassFile) (loaded : helperFile = .ok file) :
    isHelper file = true := by
  have helper := isHelper_helperFile
  rw [loaded] at helper
  exact Option.some.inj helper

/-- A program that begins with the helper class can call the checks. -/
theorem supported_of_helper (file : ClassFile) (others : Program)
    (loaded : helperFile = .ok file) : Supported (file :: others) := by
  have helper := isHelper_of_loaded file loaded
  rw [isHelper, Bool.and_eq_true, Bool.and_eq_true, Bool.and_eq_true, List.all_eq_true] at helper
  intro kind arguments counted
  have begins := helper.1.1.1 kind (by cases kind <;> decide)
  rw [beginsCheck] at begins
  split at begins
  next => cases begins
  next frame entered =>
    have same : (arguments.flatMap Value.cells).length =
        ((List.replicate (1 + kind.detail.loads.length) Value.null).flatMap
          Value.cells).length := by
      simp [counted, Value.cells, Value.width]
    have begun := of_decide_eq_true begins
    exact ⟨_, enter_append [file] others _ _ _ _ (enter_of_length _ _ _ _ _ frame same entered),
      ⟨begun.actions, begun.handlers, begun.limit, begun.position, begun.stack⟩, rfl⟩

/-- The helper class has no field and no method of a name that weaving gives. -/
theorem hasMethod_of_helper (file : ClassFile) (loaded : helperFile = .ok file) :
    file.hasMethod instanceCheckMethod = false ∧ file.hasMethod staticCheckMethod = false ∧
      file.fields = [] := by
  have helper := isHelper_of_loaded file loaded
  simp only [isHelper, Bool.and_eq_true, Bool.not_eq_true', List.isEmpty_iff] at helper
  exact ⟨helper.1.1.2, helper.1.2, helper.2⟩

/-! ## What a check does -/

/-- The arguments that the constructor of an exception takes. -/
theorem arity_constructor (kind : CheckKind) :
    arity kind.constructor.descriptor = some kind.detail.loads.length := by
  cases kind <;> decide +kernel

/-- The arguments that a check takes: what is checked, and perhaps a detail. -/
theorem arity_method (kind : CheckKind) :
    arity kind.method.descriptor = some (1 + kind.detail.loads.length) := by
  cases kind <;> decide +kernel

/-- An object that has just been added becomes what its constructor makes of it. -/
theorem Heap.construct_add (heap : Heap) (className descriptor : List UInt8)
    (details : List Value) :
    (heap.add ⟨className, none, .initial⟩).construct heap.fresh className ⟨descriptor, details⟩ =
      some (heap.add ⟨className, some ⟨descriptor, details⟩, .initial⟩) := by
  simp [construct, add, fresh, guard]

section

variable (program : Program) (callers : List Frame) (heap : Heap) (frame : Frame)
variable (kind : CheckKind) (details : List Value) (admitted : kind.detail.Admits details)
include admitted

/-- The detail of a check is loaded from behind the value that is checked. -/
theorem makes_loads (subject : Value) (performs : frame.Performs kind.detail.loads)
    (locals : frame.locals = subject :: details)
    (room : depth frame.stack + kind.detail.loads.length ≤ frame.limit) :
    Makes program callers heap frame kind.detail.loads.length (details ++ frame.stack) [] := by
  cases told : kind.detail with
  | none =>
    rw [told] at admitted
    obtain rfl := admitted
    exact makes_nothing program callers heap frame
  | argumentIndex =>
    rw [told] at admitted performs room
    obtain ⟨index, rfl⟩ := admitted
    refine makes_loadInt _ _ _ _ 1 index (performs 0 _ rfl) (by rw [locals]; rfl) ?_
    rw [depth_cons, Value.width_int, Nat.add_comm]
    exact room
  | fieldName =>
    rw [told] at admitted performs room
    obtain ⟨name, rfl⟩ := admitted
    refine makes_loadReference _ _ _ _ 1 (.text name) (performs 0 _ rfl) (by rw [locals]; rfl) rfl
      ?_
    rw [depth_cons, Value.width_of_isReference _ rfl, Nat.add_comm]
    exact room

/-- The exception of a check is made, constructed and thrown. -/
theorem reaches_exception (subject : Value)
    (performs : frame.Performs kind.throwing)
    (locals : frame.locals = subject :: details) (empty : frame.stack = [])
    (limit : frame.limit = 2 + kind.detail.loads.length) :
    ∃ left, Reaches program ⟨frame :: callers, heap, none⟩
      ⟨frame.goto (frame.position + (3 + kind.detail.loads.length)) left :: callers,
        heap.add (Check.exception ⟨kind, subject, details⟩), some heap.fresh⟩ := by
  obtain ⟨counted, reversed, -, -⟩ := admitted.single
  let object : Value := .object heap.fresh
  let made : Heap := heap.add ⟨encode kind.exceptionClass, none, .initial⟩
  have makes : step program ⟨frame :: callers, heap, none⟩ =
      some ⟨frame.next [object] :: callers, made, none⟩ := by
    have room : depth (object :: frame.stack) ≤ frame.limit := by
      rw [empty, limit]
      exact Nat.le_trans (Nat.le_succ 1) (Nat.le_add_right 2 _)
    rw [step_make _ _ _ _ (encode kind.exceptionClass) (performs 0 _ rfl) room, empty]
  -- The constructor takes one of the two references, and the other one is thrown.
  have doubles : Makes program callers made (frame.next [object]) 1 [object, object] [] := by
    refine makes_dup _ _ _ _ object [] (performs 1 _ rfl) rfl rfl ?_
    show 1 + 1 ≤ frame.limit
    omega
  have loads : Makes program callers made (frame.goto (frame.position + 2) [object, object])
      kind.detail.loads.length (details ++ [object, object]) [] := by
    refine makes_loads _ _ _ _ _ _ admitted subject ?_ locals ?_
    · exact (performs.right [object, object]).left
    · show 1 + 1 + _ ≤ frame.limit
      omega
  have ahead := (performs.right []).right []
  have constructs : step program ⟨frame.goto (frame.position + 2 + kind.detail.loads.length)
        (details ++ [object, object]) :: callers, made, none⟩ =
      some ⟨frame.goto (frame.position + 2 + kind.detail.loads.length + 1) [object] :: callers,
        heap.add (Check.exception ⟨kind, subject, details⟩), none⟩ := by
    refine step_construct _ _ _ _ kind.constructor kind.detail.loads.length heap.fresh [object] _
      ?_ kind.name_constructor (arity_constructor kind) ?_ ?_
    · exact ahead 0 _ rfl
    · rw [← counted]
      exact List.drop_left
    · rw [← counted]
      show made.construct heap.fresh (encode kind.exceptionClass)
        ⟨encode kind.constructorDescriptor,
          ((details ++ [object, object]).take details.length).reverse⟩ = _
      rw [List.take_left, reversed]
      exact Heap.construct_add heap _ _ details
  have throws : step program ⟨frame.goto (frame.position + 2 + kind.detail.loads.length + 1)
        [object] :: callers, heap.add (Check.exception ⟨kind, subject, details⟩), none⟩ =
      some ⟨frame.goto (frame.position + 2 + kind.detail.loads.length + 1) [object] :: callers,
        heap.add (Check.exception ⟨kind, subject, details⟩), some heap.fresh⟩ :=
    step_throw _ _ _ _ heap.fresh [] (ahead 1 _ rfl) rfl
  have prepared : Reaches program ⟨frame :: callers, heap, none⟩
      ⟨frame.goto (frame.position + 2 + kind.detail.loads.length) (details ++ [object, object]) ::
        callers, made, none⟩ :=
    Reaches.head makes (Reaches.trans doubles loads)
  have further : frame.position + (3 + kind.detail.loads.length) =
      frame.position + 2 + kind.detail.loads.length + 1 := by omega
  rw [further]
  exact ⟨[object], (prepared.tail constructs).tail throws⟩

/-- A check that has begun is made: its method gets to its return if the value checked is
no null, and throws the exception of the check otherwise. -/
theorem makes_actions (begins : BeginsCheck kind frame) (subject : Value)
    (reference : subject.isReference = true) (locals : frame.locals = subject :: details) :
    Makes program callers heap frame (6 + kind.detail.loads.length) [] [⟨kind, subject, details⟩] ∧
      frame.actionAt (frame.position + (6 + kind.detail.loads.length)) = some .finish := by
  have performs : frame.Performs kind.actions :=
    frame.performs_of_code frame.code _ (by rw [begins.position]; exact List.prefix_rfl)
      begins.actions
  have position := begins.position
  have limit := begins.limit
  have last : frame.position + 2 + kind.throwing.length =
      frame.position + (6 + kind.detail.loads.length) := by
    simp only [CheckKind.throwing, List.length_append, List.length_cons, List.length_nil]
    omega
  have loads : Makes program callers heap frame 1 [subject] [] := by
    have loaded := makes_loadReference program callers heap frame 0 subject (performs 0 _ rfl)
      (by rw [locals]; rfl) reference
      (by rw [begins.stack, depth_cons, subject.width_of_isReference reference, depth_nil]; omega)
    rw [begins.stack] at loaded
    exact loaded
  have jumps := step_jumpUnlessNull program callers heap (frame.next [subject]) _ subject []
    (performs 1 _ rfl) rfl reference
  have jumped := Reaches.tail loads jumps
  -- The jump leads to the return, which the instructions that throw stand in front of.
  refine ⟨?_, ?_⟩
  · by_cases isNull : subject = .null
    · rw [if_pos isNull] at jumped
      obtain ⟨left, thrown⟩ := reaches_exception program callers heap
        (frame.goto (frame.position + 2) []) kind details admitted subject
        (performs.right []).left locals rfl limit
      have found : [Check.mk kind subject details].find? Check.fails =
          some ⟨kind, subject, details⟩ := by
        rw [isNull]
        rfl
      rw [Makes, found]
      exact ⟨frame.position + 2 + (3 + kind.detail.loads.length), left, by omega, by omega,
        jumped.trans thrown⟩
    · rw [if_neg isNull] at jumped
      have absent : [Check.mk kind subject details].find? Check.fails = none :=
        List.find?_cons_of_neg (by simpa [Check.fails] using isNull)
      rw [Makes, absent, position, Nat.zero_add]
      exact jumped
  · rw [← last]
    exact (performs.right []).right [] 0 _ rfl

/-- A call of a check makes it. The check takes the value and its detail from the operand
stack. -/
theorem makes_check (supported : Supported program) (subject : Value)
    (reference : subject.isReference = true) (rest : List Value)
    (does : frame.actionAt frame.position = some (.callStatic kind.method))
    (here : frame.stack = details ++ subject :: rest) :
    Makes program callers heap frame 1 rest [⟨kind, subject, details⟩] := by
  obtain ⟨counted, reversed, cells, -⟩ := admitted.single
  have single : (subject :: details).flatMap Value.cells = subject :: details := by
    rw [List.flatMap_cons, cells, Value.cells, subject.width_of_isReference reference]
    rfl
  obtain ⟨callee, entered, begins, locals⟩ := supported kind (subject :: details) (by
    rw [single, List.length_cons, counted, Nat.add_comm])
  have taken : (frame.stack.take (1 + kind.detail.loads.length)).reverse = subject :: details := by
    rw [here, ← counted, List.append_cons, List.take_left' (by simp [Nat.add_comm]),
      List.reverse_append, reversed]
    rfl
  have left : frame.stack.drop (1 + kind.detail.loads.length) = rest := by
    rw [here, ← counted, List.append_cons, List.drop_left' (by simp [Nat.add_comm])]
  have enough : 1 + kind.detail.loads.length ≤ frame.stack.length := by
    rw [here, ← counted, List.length_append, List.length_cons]
    omega
  have called : step program ⟨frame :: callers, heap, none⟩ =
      some ⟨callee :: frame.goto frame.position rest :: callers, heap, none⟩ := by
    have calls := step_callStatic program callers heap frame _ _ callee does (arity_method kind)
      enough (by rw [taken]; exact entered)
    rwa [left] at calls
  obtain ⟨makes, finishes⟩ := makes_actions program (frame.goto frame.position rest :: callers) heap
    callee kind details admitted begins subject reference (by rw [locals, single])
  exact makes_of_call callee rest [] _ _ called begins.handlers makes finishes

end

end Machine

end NullGuard
