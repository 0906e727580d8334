import NullGuard.Run.Report
import NullGuard.Text.Split

/-!
# Options

The command line. An option has a value, behind an equals sign or as the next
word; a flag has none. Words are read from left to right. The value of an option
is looked at when the next known option or flag is met, or at the end, so an
unknown word is reported first.

A word that begins with a dash is no value, except a dash alone.
-/

namespace NullGuard

/-- What a command line asks for. -/
structure Options where
  input : String
  output : String
  root : String
  classpath : List String
  mode : SupportMode
  report : Option String
  /-- Where traces would be sent; nothing in this library sends any. -/
  telemetry : Option String
  quiet : Bool
  timing : Bool
  deriving DecidableEq, Repr

/-- Why there are no options. -/
inductive UsageFault
  | missingRequiredArgument
  | invalidValue
  | unknownArgument
  | argumentConflict
  | tooManyValues
  | displayHelp
  | displayVersion
  deriving DecidableEq, Repr

/-- The word for a fault. -/
def UsageFault.label : UsageFault → String
  | .missingRequiredArgument => "MissingRequiredArgument"
  | .invalidValue => "InvalidValue"
  | .unknownArgument => "UnknownArgument"
  | .argumentConflict => "ArgumentConflict"
  | .tooManyValues => "TooManyValues"
  | .displayHelp => "DisplayHelp"
  | .displayVersion => "DisplayVersion"

namespace Options

/-- An option that takes a value. -/
inductive Valued
  | input
  | output
  | root
  | classpath
  | mode
  | report
  | telemetry
  deriving DecidableEq, Repr

/-- A word that takes no value. -/
inductive Flag
  | quiet
  | timing
  | help
  | version
  deriving DecidableEq, Repr

/-- The words of the options. -/
def valuedNames : List (String × Valued) :=
  [("input", .input), ("output", .output), ("root-package", .root), ("classpath", .classpath),
    ("runtime", .mode), ("report", .report), ("otel", .telemetry)]

/-- The words of the flags. -/
def flagNames : List (String × Flag) :=
  [("quiet", .quiet), ("timing", .timing), ("help", .help), ("version", .version)]

/-- The letters of the flags. -/
def flagLetters : List (Char × Flag) := [('h', .help), ('V', .version)]

/-- Whether an option may be given several times. -/
def Valued.isRepeatable (option : Valued) : Bool := option == .classpath

/-- Whether a value may be given for an option. -/
def Valued.accepts (option : Valued) (value : String) : Bool :=
  match option with
  | .input | .output | .classpath | .report => !value.isEmpty
  | .mode => (SupportMode.ofLabel? value).isSome
  | .root | .telemetry => true

/-- What has been read of a command line. -/
structure Draft where
  values : List (Valued × String)
  flags : List Flag
  /-- The option met last, with its value if there was one. -/
  pending : Option (Valued × Option String)
  /-- Whether a double dash was met. -/
  closed : Bool
  deriving DecidableEq, Repr

namespace Draft

/-- Nothing has been said yet. -/
def empty : Draft := ⟨[], [], none, false⟩

/-- The values given for an option, in order. -/
def valuesOf (draft : Draft) (option : Valued) : List String :=
  (draft.values.filter fun item => item.1 == option).map Prod.snd

/-- Take in an option with its value. -/
def accept (draft : Draft) (option : Valued) (value : String) : Except UsageFault Draft :=
  if !option.isRepeatable && !(draft.valuesOf option).isEmpty then .error .argumentConflict
  else if !option.accepts value then .error .invalidValue
  else .ok { draft with values := draft.values ++ [(option, value)] }

/-- Take in the option met last. -/
def settle (draft : Draft) : Except UsageFault Draft :=
  match draft.pending with
  | none => .ok draft
  | some (_, none) => .error .invalidValue
  | some (option, some value) => { draft with pending := none }.accept option value

/-- Take in a flag. -/
def raise (draft : Draft) (flag : Flag) : Except UsageFault Draft := do
  let draft ← draft.settle
  match flag with
  | .help => .error .displayHelp
  | .version => .error .displayVersion
  | .quiet | .timing =>
    if draft.flags.contains flag then .error .argumentConflict
    else return { draft with flags := flag :: draft.flags }

/-- Take in what stands behind a double dash. -/
def addLong (draft : Draft) (word : List Char) : Except UsageFault Draft :=
  let (name, value) :=
    match Text.splitFirst '=' word with
    | some (name, value) => (String.ofList name, some (String.ofList value))
    | none => (String.ofList word, none)
  match valuedNames.lookup name, flagNames.lookup name, value with
  | some option, _, some value => do (← draft.settle).accept option value
  | some option, _, none => do return { ← draft.settle with pending := some (option, none) }
  | none, some _, some _ => .error .tooManyValues
  | none, some flag, none => draft.raise flag
  | none, none, _ => .error .unknownArgument

/-- Take in what stands behind a single dash. -/
def addShort (draft : Draft) (letter : Char) : Except UsageFault Draft :=
  match flagLetters.lookup letter with
  | some flag => draft.raise flag
  | none => .error .unknownArgument

/-- Take in a word. -/
def add (draft : Draft) (word : String) : Except UsageFault Draft :=
  if draft.closed then .error .unknownArgument
  else
    match word.toList with
    | ['-', '-'] => .ok { draft with closed := true }
    | '-' :: '-' :: rest => draft.addLong rest
    | '-' :: letter :: _ => draft.addShort letter
    | _ =>
      match draft.pending with
      | some (option, none) => .ok { draft with pending := some (option, some word) }
      | _ => .error .unknownArgument

/-- The options that were read. -/
def finish (draft : Draft) : Except UsageFault Options := do
  let draft ← draft.settle
  let required (option : Valued) : Except UsageFault String :=
    match draft.valuesOf option with
    | value :: _ => .ok value
    | [] => .error .missingRequiredArgument
  return {
    input := ← required .input
    output := ← required .output
    root := ← required .root
    classpath := draft.valuesOf .classpath
    mode := ((draft.valuesOf .mode).head?.bind SupportMode.ofLabel?).getD .emit
    report := (draft.valuesOf .report).head?
    telemetry := (draft.valuesOf .telemetry).head?
    quiet := draft.flags.contains .quiet
    timing := draft.flags.contains .timing }

end Draft

/-- The options that the words of a command line give. -/
def parse (words : List String) : Except UsageFault Options := do
  (← words.foldlM Draft.add Draft.empty).finish

end Options

end NullGuard
