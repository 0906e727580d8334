import NullGuard.Code.StackMap
import NullGuard.Proofs.Bytes.Reading
import NullGuard.Proofs.Outcome

/-!
# Frames in bytes

The change that a frame stands for has a form in bytes, or two of them: where its
distance fits into the tag there is a short form besides the long one (`Form`). What
is read behind a tag is exactly one of these forms (`takes_readTagged`), and what is
written is one of them (`form_of_written`). Moving the offsets in a change keeps it
well-formed.
-/

namespace NullGuard

namespace VerificationType

/-- An offset of a `new` instruction moves, everything else stays. -/
inductive Moved (relocation : Relocation) : VerificationType → VerificationType → Prop
  | created (old new : Nat) (moved : relocation old = .ok new) :
    Moved relocation (.uninitialized old) (.uninitialized new)
  | other (type : VerificationType) (fixed : ∀ offset, type ≠ .uninitialized offset) :
    Moved relocation type type

/-- A type is moved exactly if the place where its object was made is. -/
theorem relocate_eq_ok (relocation : Relocation) (old new : VerificationType) :
    old.relocate relocation = .ok new ↔ Moved relocation old new := by
  constructor
  · intro ran
    cases old with
    | uninitialized offset =>
      obtain ⟨target, moved, returned⟩ := (Outcome.bind_eq_ok ..).1 ran
      obtain rfl := Except.ok.inj returned
      exact .created offset target moved
    | _ =>
      obtain rfl := Except.ok.inj ran
      exact .other _ (by simp)
  · intro moved
    cases moved with
    | created offset target moved => exact (Outcome.bind_eq_ok ..).2 ⟨target, moved, rfl⟩
    | other type fixed =>
      cases old with
      | uninitialized offset => exact absurd rfl (fixed offset)
      | _ => rfl

/-- What follows a tag. -/
def readTagged (tag : UInt8) : Reader VerificationType :=
  match tag with
  | 0 => return .top
  | 1 => return .integer
  | 2 => return .float
  | 3 => return .double
  | 4 => return .long
  | 5 => return .null
  | 6 => return .uninitializedThis
  | 7 => return .object (← Reader.u16)
  | 8 => return .uninitialized (← Reader.u16).toNat
  | _ => fail (.unknownVerificationTag tag)

/-- A type is its tag and what the tag asks for. -/
theorem read_eq : read = Reader.u8 >>= readTagged := rfl

/-- What follows the tag of a type is read without a look behind it. -/
instance (tag : UInt8) : (readTagged tag).Local := by
  unfold readTagged
  split <;> infer_instance

/-- A type is read without a look at what follows. -/
instance : read.Local := by
  rw [read_eq]
  infer_instance

/-- The place where an object was made is written as a word. -/
theorem written_uninitialized (word : UInt16) :
    written (.uninitialized word.toNat) = .ok (8 :: Written.u16 word) := by
  rw [written, if_pos word.toNat_lt, UInt16.ofNat_toNat]

/-- Reading takes the written form of a type. -/
theorem takes_read (front : List UInt8) (type : VerificationType) :
    read.Takes front type ↔ type.written = .ok front := by
  rw [read_eq, Reader.takes_u8_bind]
  constructor
  · rintro ⟨tag, back, rfl, taken⟩
    unfold readTagged at taken
    split at taken
    case h_8 =>
      rw [bind_pure_comp, Reader.takes_map] at taken
      obtain ⟨index, taken, rfl⟩ := taken
      obtain rfl := (Reader.takes_u16 ..).1 taken
      rfl
    case h_9 =>
      rw [bind_pure_comp, Reader.takes_map] at taken
      obtain ⟨word, taken, rfl⟩ := taken
      obtain rfl := (Reader.takes_u16 ..).1 taken
      exact written_uninitialized word
    case h_10 => exact (Reader.takes_fail _ _ _ taken).elim
    all_goals
      obtain ⟨rfl, rfl⟩ := (Reader.takes_pure ..).1 taken
      rfl
  · intro wrote
    cases type with
    | object index =>
      obtain rfl := Except.ok.inj wrote
      refine ⟨7, _, rfl, ?_⟩
      simp only [readTagged, bind_pure_comp, Reader.takes_map]
      exact ⟨index, (Reader.takes_u16 ..).2 rfl, rfl⟩
    | uninitialized offset =>
      rw [written] at wrote
      split at wrote
      next small =>
        obtain rfl := Except.ok.inj wrote
        refine ⟨8, _, rfl, ?_⟩
        simp only [readTagged, bind_pure_comp, Reader.takes_map]
        refine ⟨UInt16.ofNat offset, (Reader.takes_u16 ..).2 rfl, ?_⟩
        rw [UInt16.toNat_ofNat_of_lt' small]
      next => cases wrote
    | _ =>
      obtain rfl := Except.ok.inj wrote
      exact ⟨_, _, rfl, (Reader.takes_pure ..).2 ⟨rfl, rfl⟩⟩

/-- Several types take their written forms one after the other. -/
theorem takes_times_read (count : Nat) (bytes : List UInt8) (types : List VerificationType) :
    (Reader.times count read).Takes bytes types ↔
      types.length = count ∧ writtenAll types = .ok bytes := by
  simp only [Reader.takes_times_written takes_read, writtenAll, Outcome.bind_eq_ok,
    Outcome.pure_eq_ok, @eq_comm _ bytes]

end VerificationType

namespace FrameChange

/-- The number of locals that a frame can drop or add is one to three. -/
def WellFormed : FrameChange → Prop
  | .chop count => 1 ≤ count.toNat ∧ count.toNat ≤ 3
  | .append locals => 1 ≤ locals.length ∧ locals.length ≤ 3
  | _ => True

/-- The offsets in a change move. -/
inductive Moved (relocation : Relocation) : FrameChange → FrameChange → Prop
  | same : Moved relocation .same .same
  | oneItem (old new : VerificationType) (item : old.Moved relocation new) :
    Moved relocation (.oneItem old) (.oneItem new)
  | chop (count : UInt8) : Moved relocation (.chop count) (.chop count)
  | append (olds news : List VerificationType)
      (locals : List.Forall₂ (VerificationType.Moved relocation) olds news) :
    Moved relocation (.append olds) (.append news)
  | full (olds news oldStack newStack : List VerificationType)
      (locals : List.Forall₂ (VerificationType.Moved relocation) olds news)
      (stack : List.Forall₂ (VerificationType.Moved relocation) oldStack newStack) :
    Moved relocation (.full olds oldStack) (.full news newStack)

/-- What a change of a frame is moved to differs from it in moved places only. -/
theorem moved_of_relocate (relocation : Relocation) (old new : FrameChange)
    (ran : old.relocate relocation = .ok new) : Moved relocation old new := by
  have all (olds news : List VerificationType)
      (moved : olds.mapM (·.relocate relocation) = .ok news) :
      List.Forall₂ (VerificationType.Moved relocation) olds news :=
    ((Outcome.mapM_eq_ok ..).1 moved).imp fun old new moved =>
      (VerificationType.relocate_eq_ok ..).1 moved
  cases old with
  | same =>
    obtain rfl := Except.ok.inj ran
    exact .same
  | oneItem item =>
    obtain ⟨moved, reached, returned⟩ := (Outcome.bind_eq_ok ..).1 ran
    obtain rfl := Except.ok.inj returned
    exact .oneItem _ _ ((VerificationType.relocate_eq_ok ..).1 reached)
  | chop count =>
    obtain rfl := Except.ok.inj ran
    exact .chop count
  | append locals =>
    obtain ⟨moved, reached, returned⟩ := (Outcome.bind_eq_ok ..).1 ran
    obtain rfl := Except.ok.inj returned
    exact .append _ _ (all _ _ reached)
  | full locals stack =>
    obtain ⟨moved, reached, ran⟩ := (Outcome.bind_eq_ok ..).1 ran
    obtain ⟨movedStack, reachedStack, returned⟩ := (Outcome.bind_eq_ok ..).1 ran
    obtain rfl := Except.ok.inj returned
    exact .full _ _ _ _ (all _ _ reached) (all _ _ reachedStack)

/-- A moved change drops and adds as many locals as before. -/
theorem Moved.wellFormed {relocation : Relocation} {old new : FrameChange}
    (moved : Moved relocation old new) (wellFormed : old.WellFormed) : new.WellFormed := by
  cases moved with
  | append olds news locals =>
    rw [WellFormed, ← locals.length_eq]
    exact wellFormed
  | chop count => exact wellFormed
  | _ => trivial

/-! ## Frames in bytes -/

/-- What follows the tag of a frame is read without a look behind it. -/
instance (tag : UInt8) : (readTagged tag).Local := by
  unfold readTagged
  infer_instance

/-- What can be read behind a tag: besides being well-formed, a full frame has no more
locals and items than can be counted. -/
def Readable : FrameChange → Prop
  | .chop count => 1 ≤ count.toNat ∧ count.toNat ≤ 3
  | .append locals => 1 ≤ locals.length ∧ locals.length ≤ 3
  | .full locals stack => locals.length < 65536 ∧ stack.length < 65536
  | _ => True

/-- The forms that a frame can have in bytes: its tag, its distance from the frame before it,
its change, and the bytes behind the tag. Where a change has two forms, the tag of the short
one holds the distance as well. -/
inductive Form : UInt8 → Nat → FrameChange → List UInt8 → Prop
  | same (distance : Nat) (short : distance ≤ 63) : Form (UInt8.ofNat distance) distance .same []
  | sameFar (distance : Nat) (near : distance < 65536) :
    Form 251 distance .same (Written.u16 (UInt16.ofNat distance))
  | oneItem (distance : Nat) (short : distance ≤ 63) (item : VerificationType)
      (bytes : List UInt8) (wrote : item.written = .ok bytes) :
    Form (UInt8.ofNat (64 + distance)) distance (.oneItem item) bytes
  | oneItemFar (distance : Nat) (near : distance < 65536) (item : VerificationType)
      (bytes : List UInt8) (wrote : item.written = .ok bytes) :
    Form 247 distance (.oneItem item) (Written.u16 (UInt16.ofNat distance) ++ bytes)
  | chop (distance : Nat) (near : distance < 65536) (count : UInt8)
      (few : count = 1 ∨ count = 2 ∨ count = 3) :
    Form (251 - count) distance (.chop count) (Written.u16 (UInt16.ofNat distance))
  | append (distance : Nat) (near : distance < 65536) (locals : List VerificationType)
      (few : 1 ≤ locals.length ∧ locals.length ≤ 3) (bytes : List UInt8)
      (wrote : VerificationType.writtenAll locals = .ok bytes) :
    Form (UInt8.ofNat (251 + locals.length)) distance (.append locals)
      (Written.u16 (UInt16.ofNat distance) ++ bytes)
  | full (distance : Nat) (near : distance < 65536) (locals stack : List VerificationType)
      (first second : List UInt8)
      (wroteLocals : Written.table "frame locals" VerificationType.written locals = .ok first)
      (wroteStack : Written.table "frame stack items" VerificationType.written stack =
        .ok second) :
    Form 255 distance (.full locals stack)
      (Written.u16 (UInt16.ofNat distance) ++ (first ++ second))

/-- What a frame consists of whose distance stands behind its tag. -/
def readFar (tag : UInt8) (distance : Nat) : Reader (Nat × FrameChange) := do
  if tag = 247 then return (distance, .oneItem (← VerificationType.read))
  else if tag ≤ 250 then return (distance, .chop (251 - tag))
  else if tag = 251 then return (distance, .same)
  else if tag ≤ 254 then
    return (distance, .append (← Reader.times (tag.toNat - 251) VerificationType.read))
  else
    let locals ← Reader.table VerificationType.read
    let stack ← Reader.table VerificationType.read
    return (distance, .full locals stack)

/-- A frame that tells its distance in a word is read without a look at what follows. -/
instance (tag : UInt8) (distance : Nat) : (readFar tag distance).Local := by
  unfold readFar
  infer_instance

/-- The tag of a frame decides how the distance to it is told. -/
theorem readTagged_eq (tag : UInt8) : readTagged tag =
    if tag ≤ 63 then pure (tag.toNat, .same)
    else if tag ≤ 127 then do return (tag.toNat - 64, .oneItem (← VerificationType.read))
    else if tag ≤ 246 then fail (.reservedFrameType tag)
    else Reader.u16 >>= fun distance => readFar tag distance.toNat := rfl

/-- Every tag behind the reserved ones stands for one form of a frame. -/
theorem form_of_takes_readFar (tag : UInt8) (word : UInt16) (back : List UInt8) (distance : Nat)
    (change : FrameChange) (far : ¬ tag ≤ 246)
    (taken : (readFar tag word.toNat).Takes back (distance, change)) :
    Form tag distance change (Written.u16 word ++ back) := by
  have near := word.toNat_lt
  have tagBound := tag.toNat_lt
  have word_eq : UInt16.ofNat word.toNat = word := UInt16.ofNat_toNat
  simp only [UInt8.le_iff_toNat_le, UInt8.reduceToNat] at far
  simp only [readFar, UInt8.le_iff_toNat_le, ← UInt8.toNat_inj, UInt8.reduceToNat] at taken
  by_cases isItem : tag.toNat = 247
  · rw [if_pos isItem, bind_pure_comp, Reader.takes_map] at taken
    obtain ⟨item, taken, same⟩ := taken
    obtain ⟨rfl, rfl⟩ := Prod.mk.inj same
    obtain rfl : tag = 247 := UInt8.toNat_inj.1 isItem
    have form := Form.oneItemFar word.toNat near item back
      ((VerificationType.takes_read ..).1 taken)
    rw [word_eq] at form
    exact form
  rw [if_neg isItem] at taken
  by_cases dropping : tag.toNat ≤ 250
  · rw [if_pos dropping] at taken
    obtain ⟨rfl, same⟩ := (Reader.takes_pure ..).1 taken
    obtain ⟨rfl, rfl⟩ := Prod.mk.inj same
    have few : 251 - tag = 1 ∨ 251 - tag = 2 ∨ 251 - tag = 3 := by
      simp only [← UInt8.toNat_inj, UInt8.toNat_sub, UInt8.reduceToNat]
      omega
    have form := Form.chop word.toNat near (251 - tag) few
    have back : 251 - (251 - tag) = tag := by
      simp only [← UInt8.toNat_inj, UInt8.toNat_sub, UInt8.reduceToNat]
      omega
    rw [back, word_eq] at form
    rw [List.append_nil]
    exact form
  rw [if_neg dropping] at taken
  by_cases isSame : tag.toNat = 251
  · rw [if_pos isSame] at taken
    obtain ⟨rfl, same⟩ := (Reader.takes_pure ..).1 taken
    obtain ⟨rfl, rfl⟩ := Prod.mk.inj same
    obtain rfl : tag = 251 := UInt8.toNat_inj.1 isSame
    have form := Form.sameFar word.toNat near
    rw [word_eq] at form
    rw [List.append_nil]
    exact form
  rw [if_neg isSame] at taken
  by_cases adding : tag.toNat ≤ 254
  · rw [if_pos adding, bind_pure_comp, Reader.takes_map] at taken
    obtain ⟨locals, taken, same⟩ := taken
    obtain ⟨rfl, rfl⟩ := Prod.mk.inj same
    obtain ⟨count, wrote⟩ := (VerificationType.takes_times_read ..).1 taken
    have form := Form.append word.toNat near locals (by omega) back wrote
    have tag_eq : 251 + locals.length = tag.toNat := by omega
    rw [tag_eq, UInt8.ofNat_toNat, word_eq] at form
    exact form
  rw [if_neg adding] at taken
  obtain ⟨locals, first, rest, rfl, readLocals, taken⟩ := (Reader.takes_bind ..).1 taken
  rw [bind_pure_comp, Reader.takes_map] at taken
  obtain ⟨stack, readStack, same⟩ := taken
  obtain ⟨rfl, rfl⟩ := Prod.mk.inj same
  have isFull : tag.toNat = 255 := by omega
  obtain rfl : tag = 255 := UInt8.toNat_inj.1 isFull
  have form := Form.full word.toNat near locals stack first rest
    ((Reader.takes_table_written VerificationType.takes_read ..).1 readLocals)
    ((Reader.takes_table_written VerificationType.takes_read ..).1 readStack)
  rw [word_eq] at form
  exact form

/-- Only frames in one of their forms are read. -/
theorem form_of_takes (tag : UInt8) (back : List UInt8) (distance : Nat) (change : FrameChange)
    (taken : (readTagged tag).Takes back (distance, change)) : Form tag distance change back := by
  simp only [readTagged_eq, UInt8.le_iff_toNat_le, UInt8.reduceToNat] at taken
  by_cases short : tag.toNat ≤ 63
  · rw [if_pos short] at taken
    obtain ⟨rfl, same⟩ := (Reader.takes_pure ..).1 taken
    obtain ⟨rfl, rfl⟩ := Prod.mk.inj same
    have form := Form.same tag.toNat short
    rw [UInt8.ofNat_toNat] at form
    exact form
  rw [if_neg short] at taken
  by_cases shortItem : tag.toNat ≤ 127
  · rw [if_pos shortItem, bind_pure_comp, Reader.takes_map] at taken
    obtain ⟨item, taken, same⟩ := taken
    obtain ⟨rfl, rfl⟩ := Prod.mk.inj same
    have form := Form.oneItem (tag.toNat - 64) (by omega) item back
      ((VerificationType.takes_read ..).1 taken)
    rw [Nat.add_sub_cancel' (by omega), UInt8.ofNat_toNat] at form
    exact form
  rw [if_neg shortItem] at taken
  by_cases reserved : tag.toNat ≤ 246
  · rw [if_pos reserved] at taken
    exact (Reader.takes_fail _ _ _ taken).elim
  rw [if_neg reserved] at taken
  obtain ⟨word, rest, rfl, takenFar⟩ := (Reader.takes_u16_bind ..).1 taken
  exact form_of_takes_readFar tag word rest distance change
    (fun below => reserved (UInt8.le_iff_toNat_le.1 below)) takenFar

/-- Behind a tag that does not hold it the distance is read before the change. -/
theorem takes_readTagged_far (tag : UInt8) (distance : Nat) (change : FrameChange)
    (bytes : List UInt8) (far : ¬ tag ≤ 246) (near : distance < 65536)
    (taken : (readFar tag distance).Takes bytes (distance, change)) :
    (readTagged tag).Takes (Written.u16 (UInt16.ofNat distance) ++ bytes) (distance, change) := by
  have notSame : ¬ tag ≤ 63 := fun short => far (UInt8.le_trans short (by decide))
  have notItem : ¬ tag ≤ 127 := fun short => far (UInt8.le_trans short (by decide))
  rw [readTagged_eq, if_neg notSame, if_neg notItem, if_neg far]
  refine (Reader.takes_u16_bind ..).2 ⟨UInt16.ofNat distance, bytes, rfl, ?_⟩
  rw [UInt16.toNat_ofNat_of_lt' near]
  exact taken

/-- Every form of a frame is read. -/
theorem Form.takes {tag : UInt8} {distance : Nat} {change : FrameChange} {back : List UInt8}
    (form : Form tag distance change back) :
    (readTagged tag).Takes back (distance, change) := by
  cases form with
  | same distance short =>
    have tag : (UInt8.ofNat distance).toNat = distance :=
      UInt8.toNat_ofNat_of_lt' (Nat.lt_of_le_of_lt short (by decide))
    have first : UInt8.ofNat distance ≤ 63 := by
      rw [UInt8.le_iff_toNat_le, tag]
      exact short
    rw [readTagged_eq, if_pos first, Reader.takes_pure, tag]
    exact ⟨rfl, rfl⟩
  | sameFar distance near =>
    rw [← List.append_nil (Written.u16 _)]
    exact takes_readTagged_far 251 distance .same [] (by decide) near
      ((Reader.takes_pure ..).2 ⟨rfl, rfl⟩)
  | oneItem distance short item bytes wrote =>
    have tag : (UInt8.ofNat (64 + distance)).toNat = 64 + distance :=
      UInt8.toNat_ofNat_of_lt' (Nat.lt_of_le_of_lt (Nat.add_le_add_left short 64) (by decide))
    have notFirst : ¬ UInt8.ofNat (64 + distance) ≤ 63 := by
      simp only [UInt8.le_iff_toNat_le, tag, UInt8.reduceToNat]
      omega
    have second : UInt8.ofNat (64 + distance) ≤ 127 := by
      simp only [UInt8.le_iff_toNat_le, tag, UInt8.reduceToNat]
      omega
    rw [readTagged_eq, if_neg notFirst, if_pos second, bind_pure_comp, Reader.takes_map, tag]
    exact ⟨item, (VerificationType.takes_read ..).2 wrote, by rw [Nat.add_sub_cancel_left]⟩
  | oneItemFar distance near item bytes wrote =>
    refine takes_readTagged_far 247 distance (.oneItem item) bytes (by decide) near ?_
    rw [readFar, if_pos rfl, bind_pure_comp, Reader.takes_map]
    exact ⟨item, (VerificationType.takes_read ..).2 wrote, rfl⟩
  | chop distance near count few =>
    rw [← List.append_nil (Written.u16 _)]
    obtain rfl | rfl | rfl := few <;>
    · exact takes_readTagged_far _ distance (.chop _) [] (by decide) near
        ((Reader.takes_pure ..).2 ⟨rfl, rfl⟩)
  | append distance near locals few bytes wrote =>
    have count : locals.length = 1 ∨ locals.length = 2 ∨ locals.length = 3 := by omega
    have taken : (Reader.times locals.length VerificationType.read).Takes bytes locals :=
      (VerificationType.takes_times_read ..).2 ⟨rfl, wrote⟩
    obtain count | count | count := count <;>
    · rw [count] at taken ⊢
      refine takes_readTagged_far _ distance (.append locals) bytes (by decide) near ?_
      refine (Reader.takes_bind ..).2 ⟨locals, bytes, [], by simp, taken, ?_⟩
      exact (Reader.takes_pure ..).2 ⟨rfl, rfl⟩
  | full distance near locals stack first second wroteLocals wroteStack =>
    have takenLocals := (Reader.takes_table_written VerificationType.takes_read ..).2 wroteLocals
    have takenStack := (Reader.takes_table_written VerificationType.takes_read ..).2 wroteStack
    refine takes_readTagged_far 255 distance (.full locals stack) _ (by decide) near ?_
    refine (Reader.takes_bind ..).2 ⟨locals, first, second, rfl, takenLocals, ?_⟩
    refine (Reader.takes_bind ..).2 ⟨stack, second, [], by simp, takenStack, ?_⟩
    exact (Reader.takes_pure ..).2 ⟨rfl, rfl⟩

/-- Reading a frame takes exactly its forms. -/
theorem takes_readTagged (tag : UInt8) (back : List UInt8) (distance : Nat)
    (change : FrameChange) :
    (readTagged tag).Takes back (distance, change) ↔ Form tag distance change back :=
  ⟨form_of_takes tag back distance change, Form.takes⟩

/-- The distance to a frame that is read fits into a word. -/
theorem Form.near {tag : UInt8} {distance : Nat} {change : FrameChange} {back : List UInt8}
    (form : Form tag distance change back) : distance < 65536 := by
  cases form with
  | same _ short => omega
  | oneItem _ short => omega
  | _ => assumption

/-- A list of types that was written has been counted. -/
theorem length_lt_of_table {what : String} {types : List VerificationType} {bytes : List UInt8}
    (wrote : Written.table what VerificationType.written types = .ok bytes) :
    types.length < 65536 := by
  obtain ⟨length, counted, -⟩ := (Outcome.bind_eq_ok ..).1 wrote
  rw [Written.tableLength] at counted
  split at counted
  next few => exact few
  next => cases counted

/-- What is read of a frame can be read back. -/
theorem Form.readable {tag : UInt8} {distance : Nat} {change : FrameChange} {back : List UInt8}
    (form : Form tag distance change back) : change.Readable := by
  cases form with
  | chop _ _ count few =>
    rw [Readable]
    obtain rfl | rfl | rfl := few <;> decide
  | append _ _ _ few => exact few
  | full _ _ _ _ _ _ wroteLocals wroteStack =>
    exact ⟨length_lt_of_table wroteLocals, length_lt_of_table wroteStack⟩
  | _ => trivial

/-- What can be read can be written. -/
theorem Readable.wellFormed {change : FrameChange} (readable : change.Readable) :
    change.WellFormed := by
  cases change with
  | full locals stack => trivial
  | _ => exact readable

/-- The written form of a change is one of its forms. -/
theorem form_of_written (distance : Nat) (change : FrameChange) (bytes : List UInt8)
    (wellFormed : change.WellFormed) (near : distance < 65536)
    (wrote : change.written distance = .ok bytes) :
    ∃ tag back, bytes = tag :: back ∧ Form tag distance change back := by
  cases change with
  | same =>
    rw [written] at wrote
    split at wrote
    next short =>
      obtain rfl := Except.ok.inj wrote
      exact ⟨_, _, rfl, .same distance short⟩
    next =>
      obtain rfl := Except.ok.inj wrote
      exact ⟨_, _, rfl, .sameFar distance near⟩
  | oneItem item =>
    obtain ⟨type, wroteType, wrote⟩ := (Outcome.bind_eq_ok ..).1 wrote
    split at wrote
    next short =>
      obtain rfl := Except.ok.inj wrote
      exact ⟨_, _, rfl, .oneItem distance short item type wroteType⟩
    next =>
      obtain rfl := Except.ok.inj wrote
      exact ⟨_, _, rfl, .oneItemFar distance near item type wroteType⟩
  | chop count =>
    obtain rfl := Except.ok.inj wrote
    have few : count = 1 ∨ count = 2 ∨ count = 3 := by
      simp only [← UInt8.toNat_inj, UInt8.reduceToNat]
      have bounds : 1 ≤ count.toNat ∧ count.toNat ≤ 3 := wellFormed
      omega
    exact ⟨_, _, rfl, .chop distance near count few⟩
  | append locals =>
    obtain ⟨types, wroteAll, returned⟩ := (Outcome.bind_eq_ok ..).1 wrote
    obtain rfl := Except.ok.inj returned
    exact ⟨_, _, rfl, .append distance near locals wellFormed types wroteAll⟩
  | full locals stack =>
    obtain ⟨first, wroteLocals, wrote⟩ := (Outcome.bind_eq_ok ..).1 wrote
    obtain ⟨second, wroteStack, returned⟩ := (Outcome.bind_eq_ok ..).1 wrote
    obtain rfl := Except.ok.inj returned
    refine ⟨255, _, ?_, .full distance near locals stack first second wroteLocals wroteStack⟩
    rw [List.cons_append, List.cons_append, List.append_assoc]

end FrameChange

end NullGuard
