import NullGuard.Files.Archive.Basic
import NullGuard.Text.CodePage
import NullGuard.Text.Utf8

/-!
# Lines of the directory

A line of the directory gives the name of an entry, how many bytes it has, their
checksum and where the entry begins. Extra fields at its end, each with a kind
and a size, amend it: one holds the numbers that are too long for the line, one
says how the entry is encrypted, two hold the name and the comment in UTF-8.
Those two repeat the checksum of what they replace, so a field that is out of
date is not taken for good. Times are passed over, but have to be well formed;
kinds without a meaning here are passed over as they are.

A field that breaks off is a failure. Only if it breaks off before its size is
read, and its kind is none with a meaning, do the bytes count as padding.
-/

namespace NullGuard

namespace Archive

/-- A line of the directory. The name is there as it is stored, and both texts
as they are read. What is encrypted says so in the line itself, and by `cipher` if
an extra field describes how. -/
structure Listed where
  storedName : List UInt8
  name : String
  comment : String
  encrypted : Bool
  cipher : Bool
  method : Nat
  check : Nat
  unpackedSize : Nat
  size : Nat
  place : Nat
  deriving DecidableEq, Repr

/-- A line and what is left of its extra fields. -/
structure Amending where
  listed : Listed
  rest : List UInt8
  deriving DecidableEq, Repr

/-- A step that reads extra fields and amends the line. -/
abbrev Amend (α : Type) := StateT Amending (Except ArchiveFault) α

/-- What an extra field with a meaning is about. -/
inductive FieldKind
  | longNumbers
  | fineTimes
  | times
  | comment
  | name
  | cipher
  | alignment
  deriving DecidableEq, Repr

/-- The kind that a number stands for. -/
def FieldKind.ofNumber? (number : Nat) : Option FieldKind :=
  if number = 0x0001 then some .longNumbers
  else if number = 0x000A then some .fineTimes
  else if number = 0x5455 then some .times
  else if number = 0x6375 then some .comment
  else if number = 0x7075 then some .name
  else if number = 0x9901 then some .cipher
  else if number = 0xA11E then some .alignment
  else none

namespace Amend

/-- The next bytes of the extra fields. -/
def bytes (count : Nat) : Amend (List UInt8) := do
  let state ← get
  let front := state.rest.take count
  if front.length < count then throw .cutOff
  set { state with rest := state.rest.drop count }
  return front

/-- The next number of so many bytes. -/
def number (size : Nat) : Amend Nat := do return ofWord (← bytes size)

/-- Pass over the next bytes. -/
def skip (count : Nat) : Amend Unit := do
  let _ ← bytes count

/-- The next two bytes as a number. If there are not as many, nothing is left. -/
def word? : Amend (Option Nat) := do
  let state ← get
  match state.rest with
  | low :: high :: rest =>
    set { state with rest }
    return some (ofWord [low, high])
  | _ =>
    set { state with rest := [] }
    return none

/-- The line as it is by now. -/
def line : Amend Listed := do return (← get).listed

/-- Change the line. -/
def change (next : Listed → Listed) : Amend Unit :=
  modify fun state => { state with listed := next state.listed }

/-! ## Kinds of extra fields -/

/-- A number for the line, if it stands in the field, and how many bytes that took. -/
def longNumber (stands : Bool) (put : Nat → Listed → Listed) : Amend Nat := do
  if !stands then return 0
  let value ← number 8
  change (put value)
  return 8

/-- The long numbers. All three are there if the field has room for them;
otherwise those that did not fit into the line. -/
def longNumbers (size : Nat) : Amend Unit := do
  let all : Bool := 24 ≤ size
  let short ← line
  let taken ← longNumber (all || short.unpackedSize == highest32)
    fun value listed => { listed with unpackedSize := value }
  let more ← longNumber (all || short.size == highest32)
    fun value listed => { listed with size := value }
  let most ← longNumber (all || short.place == highest32)
    fun value listed => { listed with place := value }
  let taken := taken + more + most
  if size < taken then throw .longNumbersSize
  skip (size - taken)

/-- The text that replaces a stored one, as bytes and as it is read. It has to be
UTF-8, and the checksum in front of it has to be that of the stored one. -/
def replacement (size : Nat) (stored : List UInt8) : Amend (List UInt8 × String) := do
  skip 1
  let check ← number 4
  if size < 5 then throw .replacementTooShort
  let text ← bytes (size - 5)
  let actual := checksum stored
  if check ≠ actual.toNat then throw (.replacementOutdated (UInt32.ofNat check) actual)
  match String.fromUTF8? ⟨text.toArray⟩ with
  | some read => return (text, read)
  | none => throw .replacementNotText

/-- The name in UTF-8. -/
def name (size : Nat) : Amend Unit := do
  let (storedName, name) ← replacement size (← line).storedName
  change fun listed => { listed with storedName, name }

/-- The comment in UTF-8. The one that it replaces counts as it is read. -/
def comment (size : Nat) : Amend Unit := do
  let (_, comment) ← replacement size (← line).comment.toUTF8.toList
  change fun listed => { listed with comment }

/-- How many bits of a byte are set. -/
def countBits (byte : UInt8) : Nat := (List.range 8).countP byte.toNat.testBit

/-- Times. Flags say which of them are there, and a line of the directory may
leave out all but the first. -/
def times (size : Nat) : Amend Unit := do
  let flags := UInt8.ofNat (← number 1)
  if size ≠ 5 && size ≠ 1 + 4 * countBits flags then throw (.timesSize size flags)
  skip (size - 1)

/-- Finer times. -/
def fineTimes (size : Nat) : Amend Unit := do
  if size ≠ 32 then throw .fineTimesSize
  skip 4
  if (← number 2) ≠ 1 then throw .fineTimesTag
  if (← number 2) ≠ 24 then throw .fineTimesTagSize
  skip 24

/-- Who has defined how entries are encrypted. -/
def cipherVendor : Nat := 0x4541

/-- How the entry is encrypted, and the method that counts beneath. -/
def cipher (size : Nat) : Amend Unit := do
  if size ≠ 7 then throw .cipherSize
  let version ← number 2
  let vendor ← number 2
  let strength ← number 1
  let method ← number 2
  if vendor ≠ cipherVendor then throw .cipherVendor
  if version ≠ 1 && version ≠ 2 then throw .cipherVersion
  if strength = 0 || 3 < strength then throw .cipherStrength
  change fun listed => { listed with cipher := true, method }

/-- Contents without a meaning here. -/
def passOver (size : Nat) : Amend Unit :=
  tryCatch (skip size) fun _ => throw .fieldCutOff

/-- The contents of an extra field. -/
def contents : FieldKind → (size : Nat) → Amend Unit
  | .longNumbers => longNumbers
  | .fineTimes => fineTimes
  | .times => times
  | .comment => comment
  | .name => name
  | .cipher => cipher
  | .alignment => passOver

/-- The next extra field. -/
def field : Amend Unit := do
  let some number ← word? | return
  match FieldKind.ofNumber? number with
  | some kind =>
    let some size ← word? | throw (.fieldOpeningCutOff number)
    contents kind size
  | none =>
    let some size ← word? | return
    passOver size

/-- A number of extra fields, as long as there are any. -/
def fields : (bound : Nat) → Amend Unit
  | 0 => pure ()
  | bound + 1 => do
    if (← get).rest.isEmpty then return
    field
    fields bound

end Amend

namespace Listed

/-- The line as its extra fields amend it. Each field takes up at least a byte. -/
def amendedBy (listed : Listed) (extra : List UInt8) : Except ArchiveFault Listed := do
  let (_, state) ← (Amend.fields extra.length).run ⟨listed, extra⟩
  return state.listed

/-- The method of what is encrypted in a way that an extra field describes. -/
def cipherMethod : Nat := 99

/-- The line in an archive that has moved. -/
def moved (listed : Listed) (shift : Nat) : Except ArchiveFault Listed :=
  if listed.method = cipherMethod && !listed.cipher then .error .cipherMissing
  else if highest64 < listed.place + shift then .error .placeTooLarge
  else .ok { listed with place := listed.place + shift }

end Listed

/-! ## Lines -/

/-- Bytes as a text, by the encoding that the flags of a line name. -/
def readText (flags : Nat) (stored : List UInt8) : String :=
  if flags.testBit 11 then Text.Utf8.read stored else Text.CodePage.read stored

/-- The next bytes of a line that has room for texts of any size. -/
def readStoredText (size : Nat) : Reader (List UInt8) :=
  tryCatch (readBytes size) fun _ => fail (.archive .textCutOff)

/-- The next line of the directory, and its extra fields. -/
def readLine : Reader (Listed × List UInt8) := do
  expectRecord .line
  skipBytes 4
  let flags ← readWord 2
  let method ← readWord 2
  skipBytes 4
  let check ← readWord 4
  let size ← readWord 4
  let unpackedSize ← readWord 4
  let nameSize ← readWord 2
  let extraSize ← readWord 2
  let commentSize ← readWord 2
  skipBytes 8
  let place ← readWord 4
  let storedName ← readStoredText nameSize
  let extra ← readStoredText extraSize
  let storedComment ← readStoredText commentSize
  return ({
    storedName
    name := readText flags storedName
    comment := readText flags storedComment
    encrypted := flags.testBit 0
    cipher := false
    method, check, unpackedSize, size, place }, extra)

/-- The next line of the directory with all that amends it, in an archive that
has moved. -/
def readListed (shift : Nat) : Reader Listed := do
  let (listed, extra) ← readLine
  match listed.amendedBy extra >>= fun amended => amended.moved shift with
  | .error fault => fail (.archive fault)
  | .ok listed => return listed

end Archive

end NullGuard
