/-!
# Checks

The kinds of checks that woven code makes. Each kind is a static method of the
helper class. It takes the reference to check, and perhaps one more value, and
throws an exception of its own class when the reference is null.
-/

namespace NullGuard

/-- Where in a program null is checked for. -/
inductive CheckKind
  | argument
  | result
  | putField
  | getField
  | constructorField
  | staticInitializerField
  deriving DecidableEq, Repr

/-- What a check is told besides the reference. -/
inductive CheckDetail
  | none
  | argumentIndex
  | fieldName
  deriving DecidableEq, Repr

/-- The class whose methods make the checks. -/
def helperClass : String := "notnullcheckweaver/NotNullHelper"

/-- The class that all exceptions of the checks extend. -/
def baseExceptionClass : String := "notnullcheckweaver/NotNullCheckException"

namespace CheckKind

/-- All kinds, in the order in which their classes are written. -/
def all : List CheckKind :=
  [.argument, .result, .putField, .getField, .constructorField, .staticInitializerField]

/-- The method of the helper class. -/
def methodName : CheckKind → String
  | .argument => "checkArgumentNotNull"
  | .result => "checkResultNotNull"
  | .putField => "checkPutFieldNotNull"
  | .getField => "checkGetFieldNotNull"
  | .constructorField => "checkConstructorFieldNotNull"
  | .staticInitializerField => "checkStaticInitializerFieldNotNull"

/-- What a check is told besides the value: the position of an argument, or the name of a
field that an initializer may have left out. -/
def detail : CheckKind → CheckDetail
  | .argument => .argumentIndex
  | .constructorField | .staticInitializerField => .fieldName
  | .result | .putField | .getField => .none

/-- The descriptor of the method of the helper class. -/
def methodDescriptor (kind : CheckKind) : String :=
  match kind.detail with
  | .none => "(Ljava/lang/Object;)V"
  | .argumentIndex => "(Ljava/lang/Object;I)V"
  | .fieldName => "(Ljava/lang/Object;Ljava/lang/String;)V"

/-- The class of what is thrown. -/
def exceptionClass : CheckKind → String
  | .argument => "notnullcheckweaver/ArgumentNotNullCheckException"
  | .result => "notnullcheckweaver/ResultNotNullCheckException"
  | .putField => "notnullcheckweaver/PutFieldNotNullCheckException"
  | .getField => "notnullcheckweaver/GetFieldNotNullCheckException"
  | .constructorField => "notnullcheckweaver/ConstructorFieldNotNullCheckException"
  | .staticInitializerField =>
    "notnullcheckweaver/StaticInitializerFieldNotNullCheckException"

/-- The descriptor of the constructor of the exception class. -/
def constructorDescriptor (kind : CheckKind) : String :=
  match kind.detail with
  | .none => "()V"
  | .argumentIndex => "(I)V"
  | .fieldName => "(Ljava/lang/String;)V"

/-- The message of the exception in front of and behind the detail. -/
def messageParts : CheckKind → String × String
  | .argument => ("Argument for @NotNull parameter ", " is null.")
  | .result => ("Returning null from a @NotNull method.", "")
  | .putField => ("Attempt to assign null to @NotNull field.", "")
  | .getField => ("Attempt to read uninitialized @NotNull field.", "")
  | .constructorField => ("Constructor did not initialize @NotNull field ", ".")
  | .staticInitializerField => ("Static initializer did not initialize @NotNull field ", ".")

end CheckKind

end NullGuard
