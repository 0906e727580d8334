import NullGuard.Text.Unprintable

/-!
# Quoted text

Messages show a text that may hold anything in double quotes, on one line and
so that each character can be told. A quote and a backslash are written behind a
backslash; tab, line feed, carriage return and NUL have a letter of their own;
every other character that cannot be shown by itself is written by its code
point.
-/

namespace NullGuard.Text

/-- Lower-case hexadecimal digits without leading zeros. -/
def hex (value : Nat) : String := String.ofList (Nat.toDigits 16 value)

/-- A byte as two lower-case hexadecimal digits. -/
def hexByte (byte : UInt8) : String :=
  if byte < 16 then "0" ++ hex byte.toNat else hex byte.toNat

/-- Capital hexadecimal digits, at least so many of them. -/
def hexCapital (least value : Nat) : String :=
  let digits := (Nat.toDigits 16 value).map Char.toUpper
  String.ofList (List.replicate (least - digits.length) '0' ++ digits)

/-- A byte as eight binary digits. -/
def bitsByte (byte : UInt8) : String :=
  String.ofList ((List.range 8).reverse.map fun bit => if byte.toNat.testBit bit then '1' else '0')

/-- The written form of one character inside quotes. -/
def quoteChar (c : Char) : List Char :=
  if c = '"' then ['\\', '"']
  else if c = '\\' then ['\\', '\\']
  else if c = '\t' then ['\\', 't']
  else if c = '\r' then ['\\', 'r']
  else if c = '\n' then ['\\', 'n']
  else if c.toNat = 0 then ['\\', '0']
  else if isUnprintable c then
    '\\' :: 'u' :: '\x7b' :: Nat.toDigits 16 c.toNat ++ ['\x7d']
  else [c]

/-- A text between double quotes. -/
def quote (text : String) : String :=
  String.ofList ('"' :: text.toList.flatMap quoteChar ++ ['"'])

/-- Quoted texts between brackets, separated by a comma and a space. -/
def quoteList (texts : List String) : String :=
  "[" ++ String.intercalate ", " (texts.map quote) ++ "]"

end NullGuard.Text
