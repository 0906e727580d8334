import NullGuard.Failure

/-!
# Reading bytes

A reader takes values off the front of a list of bytes and leaves the rest.
Numbers are big-endian. A reader that finds too few bytes fails as a whole and
leaves nothing behind, so the caller still has the bytes it started from.
-/

namespace NullGuard

/-- A step that takes a value off the front of a list of bytes. -/
abbrev Reader (α : Type) := StateT (List UInt8) (Except Failure) α

namespace Reader

/-- The number whose digits to the base 256 are the given bytes. -/
def ofDigits (bytes : List UInt8) : Nat :=
  bytes.foldl (fun value byte => value * 256 + byte.toNat) 0

/-- The next bytes, all of them or none. -/
def bytes (count : Nat) : Reader (List UInt8) := fun input =>
  let front := input.take count
  if front.length = count then .ok (front, input.drop count) else fail .truncated

/-- Pass over the next bytes. -/
def skip (count : Nat) : Reader Unit := do
  let _ ← bytes count

/-- The next byte. -/
def u8 : Reader UInt8
  | [] => fail .truncated
  | byte :: rest => .ok (byte, rest)

/-- The next two bytes as a number. -/
def u16 : Reader UInt16
  | a :: b :: rest => .ok (UInt16.ofNat (a.toNat * 256 + b.toNat), rest)
  | _ => fail .truncated

/-- The next four bytes as a number. -/
def u32 : Reader UInt32
  | a :: b :: c :: d :: rest => .ok (UInt32.ofNat (ofDigits [a, b, c, d]), rest)
  | _ => fail .truncated

/-- The next four bytes as a number in two's complement. -/
def i32 : Reader Int32 := do return (← u32).toInt32

/-- The next eight bytes as a number. -/
def u64 : Reader UInt64 := do return UInt64.ofNat (ofDigits (← bytes 8))

/-- The next eight bytes as a number in two's complement. -/
def i64 : Reader Int64 := do return (← u64).toInt64

/-- How many bytes have been read, given how many there were. -/
def position (total : Nat) : Reader Nat := fun rest => .ok (total - rest.length, rest)

/-- Whether nothing is left. -/
def atEnd : Reader Bool := fun rest => .ok (rest.isEmpty, rest)

/-- Fail unless nothing is left. -/
def expectEnd (what : String) : Reader Unit := fun rest =>
  if rest.isEmpty then .ok ((), rest) else fail (.trailingBytes rest.length what)

/-- Read items until `count` of them stand in front of `done`, which holds the
items read so far, last one first. -/
private def repeatInto {α : Type} (item : Reader α) : Nat → List α → Reader (List α)
  | 0, done => pure done.reverse
  | count + 1, done => do
    let next ← item
    repeatInto item count (next :: done)

/-- The same item a number of times. -/
def times {α : Type} (count : Nat) (item : Reader α) : Reader (List α) :=
  repeatInto item count []

/-- What has been read already only stands in front of what is read from then on. -/
private theorem repeatInto_eq {α : Type} (item : Reader α) (count : Nat) (done : List α) :
    repeatInto item count done = do return done.reverse ++ (← repeatInto item count []) := by
  induction count generalizing done with
  | zero => simp [repeatInto]
  | succ count inductionHypothesis =>
    simp only [repeatInto, bind_assoc]
    congr 1
    funext next
    rw [inductionHypothesis (next :: done), inductionHypothesis [next]]
    simp

/-- No items are read from nothing. -/
theorem times_zero {α : Type} (item : Reader α) : times 0 item = pure [] := rfl

/-- Of several items one is read after the other. -/
theorem times_succ {α : Type} (item : Reader α) (count : Nat) :
    times (count + 1) item = do
      let first ← item
      let others ← times count item
      return first :: others := by
  simp only [times, repeatInto]
  congr 1
  funext first
  rw [repeatInto_eq]
  simp

/-- A table: a two-byte count and that many rows. -/
def table {α : Type} (item : Reader α) : Reader (List α) := do
  let count ← u16
  times count.toNat item

/-- The value of a reader that has to use up all of its input. -/
def whole {α : Type} (what : String) (reader : Reader α) (input : List UInt8) :
    Except Failure α :=
  (do let value ← reader; expectEnd what; return value : Reader α).run' input

end Reader

end NullGuard
