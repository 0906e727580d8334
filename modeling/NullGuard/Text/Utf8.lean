import NullGuard.Text.ModifiedUtf8

/-!
# UTF-8 with faults

Bytes that should be UTF-8 but need not be. What is well formed is read as it
stands; each run of bytes that begins a character but does not complete it is
read as one replacement character, and so is each byte that begins none.

The reader holds on to a character that has begun until its last byte comes, so
it passes over the bytes once.
-/

namespace NullGuard.Text

namespace Utf8

/-- A character that has begun: the bits so far, how many bytes are missing, and
the bounds of the next one. The bounds rule out surrogates, numbers that are too
large and forms that are longer than they need to be. -/
structure Begun where
  bits : Nat
  missing : Nat
  lowest : UInt8
  highest : UInt8
  deriving DecidableEq, Repr

/-- What a first byte begins, if it is not a character of its own. -/
def begun? (first : UInt8) : Option Begun :=
  let bits := first.toNat
  if first < 0xC2 then none
  else if first < 0xE0 then some ⟨bits % 0x20, 1, 0x80, 0xBF⟩
  else if first = 0xE0 then some ⟨0, 2, 0xA0, 0xBF⟩
  else if first = 0xED then some ⟨bits % 0x10, 2, 0x80, 0x9F⟩
  else if first < 0xF0 then some ⟨bits % 0x10, 2, 0x80, 0xBF⟩
  else if first = 0xF0 then some ⟨0, 3, 0x90, 0xBF⟩
  else if first < 0xF4 then some ⟨bits % 0x08, 3, 0x80, 0xBF⟩
  else if first = 0xF4 then some ⟨bits % 0x08, 3, 0x80, 0x8F⟩
  else none

/-- What follows when a byte begins something: the characters that are complete,
and the one that has begun. -/
def start (first : UInt8) : List Char × Option Begun :=
  if first < 0x80 then ([Char.ofNat first.toNat], none)
  else
    match begun? first with
    | some begun => ([], some begun)
    | none => ([replacement], none)

/-- Take in a byte. -/
def step (state : Option Begun) (byte : UInt8) : List Char × Option Begun :=
  match state with
  | none => start byte
  | some begun =>
    if begun.lowest ≤ byte && byte ≤ begun.highest then
      let bits := begun.bits * 0x40 + byte.toNat % 0x40
      if begun.missing = 1 then ([Char.ofNat bits], none)
      else ([], some ⟨bits, begun.missing - 1, 0x80, 0xBF⟩)
    else
      let (chars, state) := start byte
      (replacement :: chars, state)

/-- The characters that bytes are read as, after what has begun. -/
def readFrom (state : Option Begun) : List UInt8 → List Char
  | [] => if state.isSome then [replacement] else []
  | byte :: rest =>
    let (chars, state) := step state byte
    chars ++ readFrom state rest

/-- The text that bytes are read as. -/
def read (bytes : List UInt8) : String :=
  match String.fromUTF8? ⟨bytes.toArray⟩ with
  | some text => text
  | none => String.ofList (readFrom none bytes)

end Utf8

end NullGuard.Text
