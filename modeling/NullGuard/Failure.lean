import NullGuard.Text.Quoted

/-!
# Failures

Everything that can go wrong is one of a closed list of causes. A failure is a
cause together with the steps during which it arose, outermost first. The
wording of every message stands here and nowhere else: `Cause.message`,
`Step.message` and `Failure.message`.

A cause of the form `invariant` says that two parts of the weaver disagree
although no input can make them disagree. It is kept apart because a caller
must not treat it as a property of the class at hand.
-/

namespace NullGuard

/-- What a constant was expected to be when its index was followed. -/
inductive Expected
  | utf8
  | classEntry
  | nameAndType
  | memberReference
  deriving DecidableEq, Repr

/-- Why a text is no method descriptor. -/
inductive DescriptorFault
  | missingOpening
  | missingSemicolon
  | tooManyDimensions
  | elementMissing
  | endOfText
  | unknownType
  | missingResult
  deriving DecidableEq, Repr

/-- Why a text is no root package. -/
inductive RootFault
  | empty
  | invalidCharacters (raw : String)
  | emptySegment (raw : String)
  deriving DecidableEq, Repr

/-- Why the file system refuses an operation. -/
inductive SystemFault
  | notFound
  | alreadyExists
  | notDirectory
  | isDirectory
  | nameTooLong
  | embeddedNul
  | invalidArgument
  deriving DecidableEq, Repr

/-- A record that an archive is made of. -/
inductive ArchiveRecord
  | entry
  | line
  | ending
  | locator
  | longEnding
  deriving DecidableEq, Repr

/-- Why a file is no archive that can be read, or why an archive cannot take an
entry. -/
inductive ArchiveFault
  -- bytes
  | unreadable (fault : SystemFault)
  | cutOff
  | recordCutOff (record : ArchiveRecord)
  | textCutOff
  -- the end
  | noEnding
  | commentCutOff
  | directoryBehindEnding
  | noDirectory
  | longEndingBehindLocator
  | manyParts
  | noLongEnding
  | longEndingTooLong
  | longEndingElsewhere
  | longEndingSize
  | longEndingCount
  | moreHereThanInAll
  | severalParts
  -- lines of the directory
  | badLine
  | fieldOpeningCutOff (kind : Nat)
  | fieldCutOff
  | longNumbersSize
  | timesSize (size : Nat) (flags : UInt8)
  | fineTimesSize
  | fineTimesTag
  | fineTimesTagSize
  | replacementTooShort
  | replacementOutdated (given actual : UInt32)
  | replacementNotText
  | cipherSize
  | cipherVendor
  | cipherVersion
  | cipherStrength
  | cipherMissing
  | placeTooLarge
  -- entries
  | badEntry
  | encrypted
  | wrongPassword
  | unsupportedMethod (method : Nat)
  | wrongChecksum
  -- new entries
  | nameTaken (name : String)
  | nameTooLong
  /-- Any other fault, in the words of the library that finds it. -/
  | other (text : String)
  deriving DecidableEq, Repr

/-- A disagreement between parts of the weaver. -/
inductive Invariant
  | modelMismatch (className : String)
  | verdictMismatch (className method : String)
  | codeMissing (className method : String)
  | codeLost (position : Nat)
  deriving DecidableEq, Repr

/-- The root cause of a failure. -/
inductive Cause
  -- bytes
  | truncated
  | trailingBytes (count : Nat) (what : String)
  | tableTooLong (what : String) (count : Nat)
  -- constant pool
  | noPoolCount
  | poolOverrun
  | unknownConstantTag (tag : UInt8)
  | invalidIndex (index : UInt16)
  | wrongConstant (index : UInt16) (expected : Expected)
  | poolFull
  | utf8TooLong
  -- class file
  | wrongMagic
  | attributeTooLong
  -- code
  | invalidCodeLength (length : Nat)
  | codeLengthOutside (length : Nat)
  | instructionOverrun (offset : Nat)
  | unsupportedOpcode (opcode : UInt8)
  | invalidSwitchRange
  | invalidSwitchPairs
  | missingWideOpcode
  | codeTruncated
  | negativeTarget (offset : Nat) (target : Int)
  | notAnInstruction (offset : Nat)
  | noInstructionAt (position : Nat)
  | labelOutOfRange (label : Nat)
  | branchTooFar (displacement : Int) (offset : Nat)
  | offsetTooLarge
  -- stack map
  | reservedFrameType (tag : UInt8)
  | unknownVerificationTag (tag : UInt8)
  | framesOutOfOrder
  | frameOffsetTooLarge
  | creationOffsetTooLarge
  -- annotations
  | unknownElementTag (tag : UInt8)
  | unexpectedTarget (target : UInt8)
  -- descriptors and the model
  | malformedDescriptor (fault : DescriptorFault)
  | tooManyLocals
  | tooManyAnnotated (name descriptor : String)
  -- policy
  | malformedRoot (fault : RootFault)
  -- weaving
  | tooManyParameters
  | fieldIndexMissing
  | alreadyDeclares (className method : String)
  | invariant (violation : Invariant)
  -- dispatcher and engine
  | alreadyActive
  | declaresOther (declared : String)
  | duplicateClasses (duplicates : List (String × List String))
  -- files and the command line
  | inputNotFound (path : String)
  | classpathNotFound (path : String)
  | outputIsInput (path : String)
  | outputNotJar (path : String)
  | unsupportedInput (path : String)
  | unsupportedClasspath (path : String)
  | helperMissing (helper : String)
  | notText
  | system (fault : SystemFault)
  | archive (fault : ArchiveFault)
  /-- A failure of a lookup that the caller supplies, in the caller's words. -/
  | reported (text : String)
  deriving DecidableEq, Repr

/-- A step during which a failure arose. -/
inductive Step
  | readMagic
  | readPoolCount
  | parsePool
  | parseFields
  | parseMethods
  | parseClassAttributes
  | resolveClassName
  | resolveOwner
  | resolveNameAndType
  | parseCodeAttributes
  | remapLineNumbers
  | remapLocalVariables
  | parseStackMap
  | remapTypeAnnotations
  | parseDescriptor (descriptor : String)
  | readClassAnnotations
  | readFieldAnnotations (field : String)
  | readAnnotations (element : String)
  | readParameterAnnotations (method : String)
  | weaveMethod (className method : String)
  | generate (className : String)
  | invalidRootPackage
  | invalidRootOption
  | parseClassFile
  | resolvePolicy
  | writeWovenClass
  | parseClass (name : String)
  | failedToWeave (name : String)
  | failedToRead (path : String)
  | failedToReadDirectory (path : String)
  | failedToOpen (path : String)
  | failedToParse (path : String)
  | failedToCreate (path : String)
  | failedToWrite (path : String)
  | failedToAdd (jar name : String)
  | failedToFinish (jar : String)
  deriving DecidableEq, Repr

/-- A cause and the steps during which it arose, outermost first. -/
structure Failure where
  steps : List Step
  cause : Cause
  deriving DecidableEq, Repr

/-- The added text of a value above the range it has to fit in. -/
def Cause.tooLarge : String := ": number too large to fit in target type"

/-- The added text of a value below the range it has to fit in. -/
def Cause.tooSmall : String := ": number too small to fit in target type"

/-- What was expected at an index, as messages name it. -/
def Expected.message : Expected → String
  | .utf8 => "a utf8 entry"
  | .classEntry => "a class entry"
  | .nameAndType => "a name and type entry"
  | .memberReference => "a member reference"

/-- What is wrong with a descriptor, as messages say it. -/
def DescriptorFault.message : DescriptorFault → String
  | .missingOpening => "Invalid descriptor: Method descriptor must start with '('."
  | .missingSemicolon => "Invalid descriptor: Missing semicolon in class name descriptor."
  | .tooManyDimensions => "Array has too many dimensions."
  | .elementMissing => "Invalid descriptor: Invalid descriptor."
  | .endOfText => "Unexpected end of input."
  | .unknownType => "Invalid descriptor: Unrecognized type descriptor."
  | .missingResult => "Invalid descriptor: Missing return type."

/-- What is wrong with a root, as messages say it. -/
def RootFault.message : RootFault → String
  | .empty => "root package must not be empty"
  | .invalidCharacters raw => "root package contains invalid characters: " ++ Text.quote raw
  | .emptySegment raw => "root package has an empty segment: " ++ Text.quote raw

/-- What the operating system says of a failure. -/
def SystemFault.message : SystemFault → String
  | .notFound => "No such file or directory (os error 2)"
  | .alreadyExists => "File exists (os error 17)"
  | .notDirectory => "Not a directory (os error 20)"
  | .isDirectory => "Is a directory (os error 21)"
  | .nameTooLong => "File name too long (os error 36)"
  | .embeddedNul => "file name contained an unexpected NUL byte"
  | .invalidArgument => "Invalid argument (os error 22)"

/-- What archive readers call a record. -/
def ArchiveRecord.name : ArchiveRecord → String
  | .entry => "zip::spec::ZipLocalEntryBlock"
  | .line => "zip::spec::ZipCentralEntryBlock"
  | .ending => "zip::spec::Zip32CDEBlock"
  | .locator => "zip::spec::Zip64CDELocatorBlock"
  | .longEnding => "zip::spec::Zip64CDEBlock"

/-- How archive readers put it that a file breaks the rules of archives. -/
def ArchiveFault.invalid (text : String) : String := "invalid Zip archive: " ++ text

/-- How archive readers put it that they have no way to read an archive. -/
def ArchiveFault.unsupported (text : String) : String := "unsupported Zip archive: " ++ text

/-- How archive readers put it that reading broke off; the reason is given twice. -/
def ArchiveFault.broken (text : String) : String := s!"i/o error: {text}: {text}"

/-- What a library for archives says of a failure. -/
def ArchiveFault.message : ArchiveFault → String
  | .unreadable fault => broken fault.message
  | .cutOff => broken "failed to fill whole buffer"
  | .recordCutOff record => invalid ("Unexpected end of " ++ record.name)
  | .textCutOff => invalid "Variable-length field extends beyond file boundary"
  | .noEnding => invalid "Could not find EOCD"
  | .commentCutOff => invalid "EOCD comment exceeds file boundary"
  | .directoryBehindEnding => invalid "Invalid CDFH offset in EOCD"
  | .noDirectory => invalid "No CDFH found"
  | .longEndingBehindLocator => invalid "Invalid EOCD64 Locator CD offset"
  | .manyParts => invalid "Multi-disk ZIP files are not supported"
  | .noLongEnding => invalid "Could not find EOCD64"
  | .longEndingTooLong => invalid "EOCD64 extends beyond EOCD64 locator"
  | .longEndingElsewhere => invalid "Invalid EOCD64: inconsistency with Locator data"
  | .longEndingSize => invalid "Invalid EOCD64: inconsistent length"
  | .longEndingCount => invalid "Invalid EOCD64: inconsistent number of files"
  | .moreHereThanInAll =>
    invalid "ZIP64 footer indicates more files on this disk than in the whole archive"
  | .severalParts => unsupported "Support for multi-disk files is not implemented"
  | .badLine => invalid "Invalid Central Directory header"
  | .fieldOpeningCutOff kind =>
    invalid s!"Extra field 0x{Text.hexCapital 4 kind} header truncated"
  | .fieldCutOff => invalid "Extra field content truncated"
  | .longNumbersSize => invalid "ZIP64 extra-data field is the wrong length"
  | .timesSize size flags =>
    broken ("flags and len don't match in extended timestamp field " ++
      s!"len={size} flags={Text.bitsByte flags}")
  | .fineTimesSize => unsupported "NTFS extra field has an unsupported length"
  | .fineTimesTag => unsupported "NTFS extra field has an unsupported attribute tag"
  | .fineTimesTagSize => unsupported "NTFS extra field has an unsupported attribute size"
  | .replacementTooShort => invalid "Unicode extra field is too small"
  | .replacementOutdated given actual =>
    invalid ("CRC32 checksum failed on Unicode extra field, it is " ++
      s!"'0x{Text.hexCapital 6 given.toNat}' and it should be " ++
      s!"'0x{Text.hexCapital 6 actual.toNat}'")
  | .replacementNotText => invalid "Invalid UTF-8"
  | .cipherSize => unsupported "AES extra data field has an unsupported length"
  | .cipherVendor => invalid "Invalid AES vendor"
  | .cipherVersion => invalid "Invalid AES vendor version"
  | .cipherStrength => invalid "Invalid AES encryption strength"
  | .cipherMissing => invalid "AES encryption without AES extra data field"
  | .placeTooLarge => invalid "Archive header is too large"
  | .badEntry => invalid "Invalid local file header"
  | .encrypted => unsupported "Password required to decrypt file"
  | .wrongPassword => "provided password is incorrect"
  | .unsupportedMethod method => s!"compression method not supported: {method}"
  | .wrongChecksum => "Invalid checksum"
  | .nameTaken name => invalid s!"Duplicate filename: {name}"
  | .nameTooLong => broken "number too large to fit in target type"
  | .other text => text

/-- What a disagreement inside the weaver is about. -/
def Invariant.message : Invariant → String
  | .modelMismatch className => s!"model of {className} does not match its class file"
  | .verdictMismatch className method =>
    s!"parameter verdicts of {className}.{method} do not match its descriptor"
  | .codeMissing className method => s!"{className}.{method} has no Code attribute"
  | .codeLost position => s!"method {position} lost its Code attribute"

/-- The text of a cause. -/
def Cause.message : Cause → String
  | .truncated => "class file out of bounds"
  | .trailingBytes count what => s!"{count} trailing bytes after {what}"
  | .tableTooLong what count => s!"too many {what}: {count}" ++ tooLarge
  | .noPoolCount => "constant pool count must be at least 1"
  | .poolOverrun => "long or double constant overruns the constant pool"
  | .unknownConstantTag tag => s!"unsupported constant pool tag: {tag.toNat}"
  | .invalidIndex index => s!"invalid constant pool index {index.toNat}"
  | .wrongConstant index expected => s!"constant {index.toNat} is not {expected.message}"
  | .poolFull => "constant pool is full"
  | .utf8TooLong => "utf8 constant is too long"
  | .wrongMagic => "invalid class file magic"
  | .attributeTooLong => "attribute too long" ++ tooLarge
  | .invalidCodeLength length => s!"invalid code length {length}"
  | .codeLengthOutside length => s!"code length {length} is outside 1..=65535"
  | .instructionOverrun offset => s!"invalid bytecode length at offset {offset}"
  | .unsupportedOpcode opcode => "unsupported opcode 0x" ++ Text.hexByte opcode
  | .invalidSwitchRange => "invalid tableswitch range"
  | .invalidSwitchPairs => "invalid lookupswitch pairs"
  | .missingWideOpcode => "missing wide opcode"
  | .codeTruncated => "bytecode i32 out of bounds"
  | .negativeTarget offset target =>
    s!"branch at {offset} targets negative offset {target}" ++ tooSmall
  | .notAnInstruction offset => s!"offset {offset} does not start an instruction"
  | .noInstructionAt position => s!"no instruction at position {position}"
  | .labelOutOfRange label => s!"branch target {label} out of range"
  | .branchTooFar displacement offset =>
    s!"branch offset {displacement} at {offset} no longer fits in 16 bits" ++
      if displacement < 0 then tooSmall else tooLarge
  | .offsetTooLarge => "bytecode offset exceeds 65535" ++ tooLarge
  | .reservedFrameType tag => s!"reserved stack map frame type {tag.toNat}"
  | .unknownVerificationTag tag => s!"unknown verification type tag {tag.toNat}"
  | .framesOutOfOrder => "stack map frames out of order"
  | .frameOffsetTooLarge => "stack map offset exceeds 65535" ++ tooLarge
  | .creationOffsetTooLarge => "uninitialized offset exceeds 65535" ++ tooLarge
  | .unknownElementTag tag => "unknown annotation element tag 0x" ++ Text.hexByte tag
  | .unexpectedTarget target =>
    "unexpected type annotation target 0x" ++ Text.hexByte target ++ " in code"
  | .malformedDescriptor fault => fault.message
  | .tooManyLocals => "method parameters exceed the local variable limit"
  | .tooManyAnnotated name descriptor =>
    s!"{name}{descriptor} has more annotated parameters than parameters"
  | .malformedRoot fault => fault.message
  | .tooManyParameters => "too many parameters" ++ tooLarge
  | .fieldIndexMissing => "field instruction without a constant pool index"
  | .alreadyDeclares className method => s!"{className} already declares {method}"
  | .invariant violation => "weaver invariant violated: " ++ violation.message
  | .alreadyActive => "dispatcher is already active"
  | .declaresOther declared => s!"class file declares {declared}"
  | .duplicateClasses duplicates =>
    "duplicate classes found: " ++ String.intercalate ", "
      (duplicates.map fun entry => entry.1 ++ ": " ++ Text.quoteList entry.2)
  | .inputNotFound path => s!"input not found: {path}"
  | .classpathNotFound path => s!"classpath entry not found: {path}"
  | .outputIsInput path => s!"output must differ from input: {path}"
  | .outputNotJar path => s!"output for a JAR input must be a .jar path: {path}"
  | .unsupportedInput path => s!"unsupported input file: {path}"
  | .unsupportedClasspath path => s!"unsupported classpath entry: {path}"
  | .helperMissing helper =>
    s!"--runtime external requires {helper} on the input or classpath; " ++
      "use --runtime emit to write it"
  | .notText => "stream did not contain valid UTF-8"
  | .system fault => fault.message
  | .archive fault => fault.message
  | .reported text => text

/-- The text of a step. -/
def Step.message : Step → String
  | .readMagic => "read magic"
  | .readPoolCount => "read constant pool count"
  | .parsePool => "parse constant pool"
  | .parseFields => "parse fields"
  | .parseMethods => "parse methods"
  | .parseClassAttributes => "parse class attributes"
  | .resolveClassName => "resolve class name"
  | .resolveOwner => "resolve owner"
  | .resolveNameAndType => "resolve name and type"
  | .parseCodeAttributes => "parse code attributes"
  | .remapLineNumbers => "remap line numbers"
  | .remapLocalVariables => "remap local variables"
  | .parseStackMap => "parse stack map"
  | .remapTypeAnnotations => "remap type annotations"
  | .parseDescriptor descriptor => s!"parse method descriptor {descriptor}"
  | .readClassAnnotations => "read class annotations"
  | .readFieldAnnotations field => s!"read annotations of field {field}"
  | .readAnnotations element => s!"read annotations of {element}"
  | .readParameterAnnotations method => s!"read parameter annotations of {method}"
  | .weaveMethod className method => s!"weave {className}.{method}"
  | .generate className => s!"generate {className}"
  | .invalidRootPackage => "invalid root package"
  | .invalidRootOption => "invalid --root-package"
  | .parseClassFile => "parse class file"
  | .resolvePolicy => "resolve nullness policy"
  | .writeWovenClass => "write woven class"
  | .parseClass name => s!"parse {name}"
  | .failedToWeave name => s!"failed to weave {name}"
  | .failedToRead path => s!"failed to read {path}"
  | .failedToReadDirectory path => s!"failed to read directory {path}"
  | .failedToOpen path => s!"failed to open {path}"
  | .failedToParse path => s!"failed to parse {path}"
  | .failedToCreate path => s!"failed to create {path}"
  | .failedToWrite path => s!"failed to write {path}"
  | .failedToAdd jar name => s!"failed to add {jar}:{name}"
  | .failedToFinish jar => s!"failed to finish {jar}"

namespace Failure

/-- A failure whose cause arose during no named step. -/
def of (cause : Cause) : Failure := ⟨[], cause⟩

/-- The same failure seen from an enclosing step. -/
def during (step : Step) (failure : Failure) : Failure :=
  { failure with steps := step :: failure.steps }

/-- The whole chain: the steps from the outermost inwards, then the cause. -/
def message (failure : Failure) : String :=
  String.intercalate ": " (failure.steps.map Step.message ++ [failure.cause.message])

/-- Whether the failure is a disagreement inside the weaver. -/
def isInvariant (failure : Failure) : Bool :=
  match failure.cause with
  | .invariant _ => true
  | _ => false

end Failure

/-- Stop with a cause. -/
@[inline] def fail {m : Type → Type} [MonadExceptOf Failure m] {α : Type} (cause : Cause) : m α :=
  throwThe Failure (Failure.of cause)

/-- Run an action as a step, so that its failures name the step. -/
@[inline] def during {m : Type → Type} [MonadExceptOf Failure m] {α : Type} (step : Step)
    (action : m α) : m α :=
  tryCatchThe Failure action fun failure => throwThe Failure (failure.during step)

/-- The outcome of a computation without state, inside one with state. -/
@[inline] def settle {m : Type → Type} [Monad m] {α : Type} (outcome : Except Failure α) :
    ExceptT Failure m α :=
  ExceptT.mk (pure outcome)

end NullGuard
