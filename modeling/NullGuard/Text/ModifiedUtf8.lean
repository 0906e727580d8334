/-!
# Modified UTF-8

The encoding of names in a class file. A text is first written in UTF-16; each
unit then takes one, two or three bytes. NUL takes two bytes, so no written
byte is zero, and a supplementary character takes three bytes for each half of
its surrogate pair.

Reading is total: a byte that starts no form is read as the replacement
character, as is a surrogate without its partner. Only the lead byte of a form
is examined; of the bytes that follow it the low six bits count.
-/

namespace NullGuard.Text

/-- What stands for anything that cannot be read. -/
def replacement : Char := '\uFFFD'

/-- The UTF-16 units of a character. -/
def unitsOfChar (c : Char) : List UInt16 :=
  if c.toNat < 0x10000 then [UInt16.ofNat c.toNat]
  else
    [UInt16.ofNat (0xD800 + (c.toNat - 0x10000) / 0x400),
      UInt16.ofNat (0xDC00 + (c.toNat - 0x10000) % 0x400)]

/-- The first half of a surrogate pair. -/
def isHighSurrogate (unit : UInt16) : Bool := 0xD800 ≤ unit && unit < 0xDC00

/-- The second half of a surrogate pair. -/
def isLowSurrogate (unit : UInt16) : Bool := 0xDC00 ≤ unit && unit < 0xE000

/-- The character of a surrogate pair. -/
def pairChar (high low : UInt16) : Char :=
  Char.ofNat (0x10000 + (high.toNat - 0xD800) * 0x400 + (low.toNat - 0xDC00))

/-- The characters of a sequence of UTF-16 units. -/
def charsOfUnits : List UInt16 → List Char
  | [] => []
  | [unit] =>
    if isHighSurrogate unit || isLowSurrogate unit then [replacement]
    else [Char.ofNat unit.toNat]
  | unit :: next :: rest =>
    if isHighSurrogate unit then
      if isLowSurrogate next then pairChar unit next :: charsOfUnits rest
      else replacement :: charsOfUnits (next :: rest)
    else if isLowSurrogate unit then replacement :: charsOfUnits (next :: rest)
    else Char.ofNat unit.toNat :: charsOfUnits (next :: rest)

namespace ModifiedUtf8

/-- The bytes of one UTF-16 unit. -/
def encodeUnit (unit : UInt16) : List UInt8 :=
  let value := unit.toNat
  if 0 < value && value < 0x80 then [UInt8.ofNat value]
  else if value < 0x800 then
    [UInt8.ofNat (0xC0 + value / 0x40), UInt8.ofNat (0x80 + value % 0x40)]
  else
    [UInt8.ofNat (0xE0 + value / 0x1000), UInt8.ofNat (0x80 + value / 0x40 % 0x40),
      UInt8.ofNat (0x80 + value % 0x40)]

/-- The written form of a text. -/
def encode (text : String) : List UInt8 :=
  (text.toList.flatMap unitsOfChar).flatMap encodeUnit

/-- The UTF-16 units that a sequence of bytes is read as. -/
def decodeUnits : List UInt8 → List UInt16
  | [] => []
  | first :: rest =>
    if first < 0x80 then UInt16.ofNat first.toNat :: decodeUnits rest
    else if 0xC0 ≤ first && first < 0xE0 then
      match rest with
      | second :: rest =>
        UInt16.ofNat (first.toNat % 0x20 * 0x40 + second.toNat % 0x40) :: decodeUnits rest
      | [] => [0xFFFD]
    else if 0xE0 ≤ first && first < 0xF0 then
      match rest with
      | second :: third :: rest =>
        UInt16.ofNat (first.toNat % 0x10 * 0x1000 + second.toNat % 0x40 * 0x40 +
          third.toNat % 0x40) :: decodeUnits rest
      | rest => 0xFFFD :: decodeUnits rest
    else 0xFFFD :: decodeUnits rest

/-- The text that a sequence of bytes is read as. -/
def decode (bytes : List UInt8) : String :=
  String.ofList (charsOfUnits (decodeUnits bytes))

end ModifiedUtf8

end NullGuard.Text
