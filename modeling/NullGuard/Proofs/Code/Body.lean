import NullGuard.Code.Body
import NullGuard.Proofs.Bytes.Reading

/-!
# The written form of a method body

A body that can be written is read back as it was, provided that its code has a
length that code can have.
-/

namespace NullGuard

/-! ## Attributes -/

namespace Attribute

/-- An attribute is read without a look at what follows. -/
instance : read.Local := by
  unfold read
  infer_instance

/-- A table of attributes ends where its last row ends. -/
instance : readAll.Local := by
  unfold readAll
  infer_instance

/-- The length in front of the contents says how many bytes there are. -/
theorem takes_read (front : List UInt8) (entry : Attribute) :
    read.Takes front entry ↔ entry.written = .ok front := by
  simp only [read, Reader.takes_u16_bind, Reader.takes_u32_bind, bind_pure_comp, Reader.takes_map,
    Reader.takes_bytes, written]
  constructor
  · rintro ⟨name, back, rfl, length, last, rfl, contents, ⟨rfl, size⟩, rfl⟩
    have bound : last.length < 0x100000000 := by
      rw [size]
      exact length.toNat_lt
    rw [if_pos bound, size, UInt32.ofNat_toNat, List.append_assoc]
  · intro wrote
    split at wrote
    next bound =>
      obtain rfl := Except.ok.inj wrote
      refine ⟨entry.name, _, by rw [List.append_assoc], UInt32.ofNat entry.contents.length, _, rfl,
        entry.contents, ⟨rfl, ?_⟩, rfl⟩
      exact (UInt32.toNat_ofNat_of_lt' bound).symm
    next => cases wrote

/-- The bytes taken as a table of attributes are its byte form. -/
theorem takes_readAll (bytes : List UInt8) (attributes : List Attribute) :
    readAll.Takes bytes attributes ↔ writtenAll attributes = .ok bytes :=
  Reader.takes_table_written takes_read "attributes" bytes attributes

end Attribute

/-! ## Handlers -/

namespace HandlerRow

/-- A row of handlers is read without a look at what follows. -/
instance : read.Local := by
  unfold read
  infer_instance

/-- The bytes taken as a row of handlers are its byte form. -/
theorem takes_read (front : List UInt8) (row : HandlerRow) :
    read.Takes front row ↔ (.ok row.written : Except Failure (List UInt8)) = .ok front := by
  simp only [read, Reader.takes_u16_bind, bind_pure_comp, Reader.takes_map, Reader.takes_u16,
    Except.ok.injEq, written]
  constructor
  · rintro ⟨start, _, rfl, stop, _, rfl, handler, _, rfl, caught, rfl, rfl⟩
    simp
  · rintro rfl
    exact ⟨row.start, _, by simp only [List.append_assoc], row.stop, _, rfl, row.handler, _, rfl,
      row.caught, rfl, rfl⟩

end HandlerRow

/-! ## Bodies -/

namespace Body

/-- A body is read without a look at what follows. -/
instance : read.Local := by
  unfold read
  infer_instance

/-- The length of the code is one that code can have. -/
def HasLength (body : Body) : Prop := 0 < body.code.length ∧ body.code.length ≤ Stream.maxLength

/-- A body is read as what it was written from, and the code of what is read has a
possible length. -/
theorem takes_read (bytes : List UInt8) (body : Body) :
    read.Takes bytes body ↔ body.HasLength ∧ body.written = .ok bytes := by
  constructor
  · intro taken
    obtain ⟨maxStack, _, rfl, behindStack⟩ := (Reader.takes_u16_bind ..).1 taken
    obtain ⟨maxLocals, _, rfl, behindLocals⟩ := (Reader.takes_u16_bind ..).1 behindStack
    obtain ⟨length, _, rfl, behindLength⟩ := (Reader.takes_u32_bind ..).1 behindLocals
    dsimp only at behindLength
    split at behindLength
    next =>
      obtain ⟨_, _, _, _, failed, -⟩ := (Reader.takes_bind ..).1 behindLength
      exact (Reader.takes_fail _ _ _ failed).elim
    next possible =>
      obtain ⟨code, _, counted, rfl, behindCode⟩ := (Reader.takes_bytes_bind ..).1 behindLength
      obtain ⟨rows, handlers, _, rfl, takenHandlers, behindRows⟩ :=
        (Reader.takes_bind ..).1 behindCode
      obtain ⟨entries, attributes, _, rfl, takenAttributes, returned⟩ :=
        (Reader.takes_bind ..).1 behindRows
      obtain ⟨rfl, rfl⟩ := (Reader.takes_pure ..).1 returned
      refine ⟨by rw [HasLength, counted]; omega, ?_⟩
      refine (Outcome.bind_eq_ok ..).2 ⟨handlers, ?_, ?_⟩
      · exact (Reader.takes_table_written HandlerRow.takes_read ..).1 takenHandlers
      refine (Outcome.bind_eq_ok ..).2 ⟨attributes, ?_, ?_⟩
      · exact (Attribute.takes_readAll ..).1 ((Reader.takes_during ..).1 takenAttributes)
      · simp only [counted, UInt32.ofNat_toNat, List.append_assoc, List.append_nil]
        rfl
  · rintro ⟨⟨positive, bounded⟩, wrote⟩
    obtain ⟨handlers, wroteHandlers, rest⟩ := (Outcome.bind_eq_ok ..).1 wrote
    obtain ⟨attributes, wroteAttributes, returned⟩ := (Outcome.bind_eq_ok ..).1 rest
    obtain rfl := Except.ok.inj returned
    have takenHandlers := (Reader.takes_table_written HandlerRow.takes_read ..).2 wroteHandlers
    have takenAttributes := (Reader.takes_during .parseCodeAttributes ..).2
      ((Attribute.takes_readAll ..).2 wroteAttributes)
    have length : (UInt32.ofNat body.code.length).toNat = body.code.length := by
      rw [Stream.maxLength] at bounded
      exact UInt32.toNat_ofNat_of_lt' (by show _ < 4294967296; omega)
    have possible : ¬ (body.code.length = 0 ∨ Stream.maxLength < body.code.length) := by
      omega
    simp only [List.append_assoc]
    refine (Reader.takes_u16_bind ..).2 ⟨body.maxStack, _, rfl, ?_⟩
    refine (Reader.takes_u16_bind ..).2 ⟨body.maxLocals, _, rfl, ?_⟩
    refine (Reader.takes_u32_bind ..).2 ⟨UInt32.ofNat body.code.length, _, rfl, ?_⟩
    rw [length, if_neg possible]
    refine (Reader.takes_bytes_bind ..).2 ⟨body.code, _, rfl, rfl, ?_⟩
    refine (Reader.takes_bind ..).2 ⟨body.handlers, handlers, attributes, rfl, takenHandlers, ?_⟩
    refine (Reader.takes_bind ..).2 ⟨body.attributes, attributes, [], ?_, takenAttributes, ?_⟩
    · rw [List.append_nil]
    · exact (Reader.takes_pure ..).2 ⟨rfl, rfl⟩

/-- Some bytes are read as a body exactly if the body is written with them and its code has
a length that a body can have. -/
theorem parse_eq_ok (bytes : List UInt8) (body : Body) :
    parse bytes = .ok body ↔ body.HasLength ∧ body.written = .ok bytes := by
  rw [parse, Reader.whole_eq_ok, takes_read]

/-- What was written is read back. -/
theorem parse_written (body : Body) (bytes : List UInt8) (positive : 0 < body.code.length)
    (bounded : body.code.length ≤ Stream.maxLength) (wrote : body.written = .ok bytes) :
    parse bytes = .ok body :=
  (parse_eq_ok bytes body).2 ⟨⟨positive, bounded⟩, wrote⟩

end Body

end NullGuard
