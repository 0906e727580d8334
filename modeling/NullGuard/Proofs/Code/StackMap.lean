import NullGuard.Proofs.Code.Frame

/-!
# Stack maps in bytes

A stack map is read from the forms that its frames have in bytes (`parse_eq_ok`),
and writing it gives each frame one of its forms. So a stack map that can be
written is read back as it was (`parse_written`), no matter which forms its frames
had before: the short form of a frame and the long one denote the same distance.
What is read is well-formed, and moving offsets keeps it so. `relocate_moves` puts
this together: the rewritten table holds the same frames with every offset moved.
-/

namespace NullGuard

/-- A frame moves with its change. -/
structure Frame.Moved (relocation : Relocation) (old new : Frame) : Prop where
  offset : relocation old.offset = .ok new.offset
  change : old.change.Moved relocation new.change

/-- A frame in one of its forms. -/
structure FrameForm where
  tag : UInt8
  distance : Nat
  change : FrameChange
  /-- The bytes behind the tag. -/
  details : List UInt8
  form : FrameChange.Form tag distance change details

namespace FrameForm

/-- The byte form of a frame: its tag and the details behind it. -/
def written (form : FrameForm) : List UInt8 := form.tag :: form.details

/-- The frames that some forms stand for, behind a frame at the previous offset. -/
def framesBehind (previous : Option Nat) : List FrameForm → List Frame
  | [] => []
  | form :: others =>
    ⟨StackMap.offsetAfter previous form.distance, form.change⟩ ::
      framesBehind (some (StackMap.offsetAfter previous form.distance)) others

/-- Each form gives one frame. -/
theorem length_framesBehind (previous : Option Nat) (forms : List FrameForm) :
    (framesBehind previous forms).length = forms.length := by
  induction forms generalizing previous with
  | nil => rfl
  | cons form others inductionHypothesis =>
    rw [framesBehind, List.length_cons, List.length_cons, inductionHypothesis]

/-- Bytes that consist of some forms of frames behind their number. -/
structure Spells (contents : List UInt8) (forms : List FrameForm) : Prop where
  few : forms.length < 65536
  bytes : contents = Written.u16 (UInt16.ofNat forms.length) ++ forms.flatMap written

end FrameForm

namespace StackMap

/-- Frames that can be written. -/
def WellFormed (map : StackMap) : Prop := ∀ frame ∈ map.frames, frame.change.WellFormed

/-- The frames of a table are read without a look at what follows. -/
instance (count : Nat) (found : List Frame) : (readFrames count found).Local := by
  induction count generalizing found with
  | zero => exact inferInstanceAs (Reader.Local (pure found.reverse))
  | succ count inductionHypothesis =>
    unfold readFrames
    infer_instance

/-- Reading frames takes some forms of them. The induction is on the number of frames; what was
found so far tells the offset in front of the next one. -/
theorem takes_readFrames (count : Nat) (found : List Frame) (front : List UInt8)
    (frames : List Frame) :
    (readFrames count found).Takes front frames ↔
      ∃ forms, forms.length = count ∧ front = forms.flatMap FrameForm.written ∧
        frames = found.reverse ++
          FrameForm.framesBehind (found.head?.map Frame.offset) forms := by
  induction count generalizing found front with
  | zero =>
    rw [readFrames, Reader.takes_pure]
    constructor
    · rintro ⟨rfl, rfl⟩
      exact ⟨[], rfl, rfl, (List.append_nil _).symm⟩
    · rintro ⟨forms, none, rfl, rfl⟩
      obtain rfl := List.length_eq_zero_iff.1 none
      exact ⟨rfl, List.append_nil _⟩
  | succ count inductionHypothesis =>
    rw [readFrames, Reader.takes_u8_bind]
    simp only [Reader.takes_bind, inductionHypothesis, Prod.exists,
      FrameChange.takes_readTagged]
    constructor
    · rintro ⟨tag, back, rfl, distance, change, details, rest, rfl, form, forms, rfl, rfl, rfl⟩
      refine ⟨⟨tag, distance, change, details, form⟩ :: forms, rfl, rfl, ?_⟩
      rw [List.reverse_cons, List.append_assoc]
      rfl
    · rintro ⟨forms, counted, rfl, rfl⟩
      cases forms with
      | nil => cases counted
      | cons form others =>
        refine ⟨form.tag, _, rfl, form.distance, form.change, form.details, _, rfl, form.form,
          others, Nat.succ.inj counted, rfl, ?_⟩
        rw [List.reverse_cons, List.append_assoc]
        rfl

/-- A stack map is read from the forms of its frames. -/
theorem parse_eq_ok (contents : List UInt8) (map : StackMap) :
    parse contents = .ok map ↔
      ∃ forms, FrameForm.Spells contents forms ∧
        map.frames = FrameForm.framesBehind none forms := by
  simp only [parse, Reader.whole_eq_ok, Reader.takes_u16_bind, bind_pure_comp, Reader.takes_map,
    takes_readFrames]
  constructor
  · rintro ⟨count, back, rfl, frames, ⟨forms, counted, rfl, rfl⟩, rfl⟩
    refine ⟨forms, ⟨?_, ?_⟩, rfl⟩
    · rw [counted]
      exact count.toNat_lt
    · rw [counted, UInt16.ofNat_toNat]
  · rintro ⟨forms, ⟨few, rfl⟩, frames⟩
    refine ⟨UInt16.ofNat forms.length, _, rfl, map.frames, ⟨forms, ?_, rfl, frames⟩, rfl⟩
    rw [UInt16.toNat_ofNat_of_lt' few]

/-- What frames are like that have been read, last one first: each stands behind the one
before it, and at most 65536 bytes further. -/
structure AreRead (found : List Frame) : Prop where
  changes : ∀ frame ∈ found, frame.change.Readable
  ascending : found.Pairwise fun later earlier => earlier.offset < later.offset
  bounded : ∀ frame ∈ found, frame.offset < 65536 * found.length

/-- No frames can be read from nothing. -/
theorem areRead_nil : AreRead [] := ⟨by simp, .nil, by simp⟩

/-- One more frame is read. -/
theorem AreRead.cons {found : List Frame} (read : AreRead found) (distance : Nat)
    (change : FrameChange) (small : distance < 65536) (readable : change.Readable) :
    AreRead (⟨offsetAfter (found.head?.map Frame.offset) distance, change⟩ :: found) := by
  refine
    { changes := List.forall_mem_cons.2 ⟨readable, read.changes⟩
      ascending := List.pairwise_cons.2 ⟨?_, read.ascending⟩
      bounded := List.forall_mem_cons.2 ?_ }
  · cases found with
    | nil => simp
    | cons last others =>
      obtain ⟨below, -⟩ := List.pairwise_cons.1 read.ascending
      have behind : last.offset < offsetAfter (some last.offset) distance := by
        rw [offsetAfter]
        omega
      rw [List.forall_mem_cons]
      exact ⟨behind, fun frame member => Nat.lt_trans (below frame member) behind⟩
  · rw [List.length_cons, Nat.mul_succ]
    constructor
    · cases found with
      | nil =>
        show distance < _
        omega
      | cons last others =>
        have bound := read.bounded last List.mem_cons_self
        show last.offset + distance + 1 < _
        omega
    · intro frame member
      have bound := read.bounded frame member
      omega

/-- So many frames are taken behind those found so far, and each can be read where it
stands. -/
theorem areRead_of_takes_frames (count : Nat) (found : List Frame) (front : List UInt8)
    (frames : List Frame) (taken : (readFrames count found).Takes front frames)
    (sofar : AreRead found) :
    AreRead frames.reverse ∧ frames.length = found.length + count := by
  induction count generalizing found front with
  | zero =>
    obtain ⟨-, rfl⟩ := (Reader.takes_pure ..).1 taken
    rw [List.reverse_reverse, List.length_reverse]
    exact ⟨sofar, rfl⟩
  | succ count inductionHypothesis =>
    obtain ⟨tag, back, -, taken⟩ := (Reader.takes_u8_bind ..).1 taken
    obtain ⟨⟨distance, change⟩, first, rest, -, read, taken⟩ := (Reader.takes_bind ..).1 taken
    have form := FrameChange.form_of_takes tag first distance change read
    obtain ⟨areRead, counted⟩ :=
      inductionHypothesis _ _ taken (sofar.cons distance change form.near form.readable)
    rw [List.length_cons] at counted
    exact ⟨areRead, by omega⟩

/-- The frames of a table that is read can be read where they stand, and are not too many
for their number. -/
theorem areRead_of_parse (contents : List UInt8) (map : StackMap)
    (parsed : parse contents = .ok map) :
    AreRead map.frames.reverse ∧ map.frames.length < 65536 := by
  rw [parse, Reader.whole_eq_ok, Reader.takes_u16_bind] at parsed
  obtain ⟨count, back, -, taken⟩ := parsed
  rw [bind_pure_comp, Reader.takes_map] at taken
  obtain ⟨frames, taken, rfl⟩ := taken
  obtain ⟨areRead, counted⟩ := areRead_of_takes_frames _ _ _ _ taken areRead_nil
  have bound := count.toNat_lt
  rw [List.length_nil, Nat.zero_add] at counted
  exact ⟨areRead, counted ▸ bound⟩

/-- Every stack map that is read is well-formed. -/
theorem wellFormed_of_parse (contents : List UInt8) (map : StackMap)
    (parsed : parse contents = .ok map) : map.WellFormed := by
  intro frame member
  have read := (areRead_of_parse contents map parsed).1
  exact (read.changes frame (List.mem_reverse.2 member)).wellFormed

/-- The distance that is written leads back to the offset. -/
theorem offsetAfter_of_distanceFrom (previous : Option Nat) (offset distance : Nat)
    (measured : distanceFrom previous offset = .ok distance) :
    offsetAfter previous distance = offset := by
  cases previous with
  | none => exact (Except.ok.inj measured).symm
  | some before =>
    rw [distanceFrom] at measured
    split at measured
    next => cases measured
    next =>
      obtain rfl := Except.ok.inj measured
      rw [offsetAfter]
      omega

/-- A frame that was written behind another one is written in one of its forms. -/
theorem form_of_writtenFrame (previous : Option Nat) (frame : Frame) (bytes : List UInt8)
    (wellFormed : frame.change.WellFormed) (wrote : writtenFrame previous frame = .ok bytes) :
    ∃ form : FrameForm, form.written = bytes ∧ form.change = frame.change ∧
      offsetAfter previous form.distance = frame.offset := by
  obtain ⟨distance, measured, wrote⟩ := (Outcome.bind_eq_ok ..).1 wrote
  split at wrote
  next => cases wrote
  next small =>
    obtain ⟨tag, back, rfl, form⟩ :=
      FrameChange.form_of_written distance frame.change bytes wellFormed (by omega) wrote
    exact ⟨⟨tag, distance, frame.change, back, form⟩, rfl, rfl,
      offsetAfter_of_distanceFrom _ _ _ measured⟩

/-- Frames that were written behind one another are written in some forms of theirs. The
induction is on the frames; each tells the offset in front of the next one. -/
theorem forms_of_writtenFrames (previous : Option Nat) (frames : List Frame)
    (parts : List (List UInt8)) (wellFormed : ∀ frame ∈ frames, frame.change.WellFormed)
    (wrote : ((previous :: frames.map fun frame => some frame.offset).zip frames).mapM
      (fun (previous, frame) => writtenFrame previous frame) = .ok parts) :
    ∃ forms, FrameForm.framesBehind previous forms = frames ∧
      forms.map FrameForm.written = parts := by
  induction frames generalizing previous parts with
  | nil =>
    obtain rfl := Except.ok.inj wrote
    exact ⟨[], rfl, rfl⟩
  | cons frame others inductionHypothesis =>
    obtain ⟨here, rest⟩ := List.forall_mem_cons.1 wellFormed
    rw [List.map_cons, List.zip_cons_cons, List.mapM_cons] at wrote
    obtain ⟨first, wroteFirst, wrote⟩ := (Outcome.bind_eq_ok ..).1 wrote
    obtain ⟨later, wroteLater, returned⟩ := (Outcome.bind_eq_ok ..).1 wrote
    obtain rfl := Except.ok.inj returned
    obtain ⟨form, rfl, change, offset⟩ := form_of_writtenFrame previous frame first here wroteFirst
    obtain ⟨forms, behind, rfl⟩ := inductionHypothesis (some frame.offset) later rest wroteLater
    refine ⟨form :: forms, ?_, rfl⟩
    rw [FrameForm.framesBehind, offset, change, behind]

/-- A stack map that was written is read back. -/
theorem parse_written (map : StackMap) (contents : List UInt8) (wellFormed : map.WellFormed)
    (wrote : map.written = .ok contents) : parse contents = .ok map := by
  obtain ⟨length, counted, wrote⟩ := (Outcome.bind_eq_ok ..).1 wrote
  obtain ⟨parts, wroteFrames, returned⟩ := (Outcome.bind_eq_ok ..).1 wrote
  obtain rfl := Except.ok.inj returned
  obtain ⟨forms, frames, rfl⟩ := forms_of_writtenFrames none map.frames parts wellFormed wroteFrames
  have count : forms.length = map.frames.length := by
    rw [← frames, FrameForm.length_framesBehind]
  rw [Written.tableLength] at counted
  split at counted
  next few =>
    obtain rfl := Except.ok.inj counted
    refine (parse_eq_ok ..).2 ⟨forms, ⟨by omega, ?_⟩, frames.symm⟩
    rw [count, List.flatMap_def]
  next => cases counted

/-- Relocation moves every frame and every offset in it. -/
theorem moved_of_relocate (relocation : Relocation) (map moved : StackMap)
    (ran : map.relocate relocation = .ok moved) :
    List.Forall₂ (Frame.Moved relocation) map.frames moved.frames := by
  obtain ⟨frames, each, returned⟩ := (Outcome.bind_eq_ok ..).1 ran
  obtain rfl := Except.ok.inj returned
  refine ((Outcome.mapM_eq_ok ..).1 each).imp fun old new ran => ?_
  obtain ⟨offset, reached, ran⟩ := (Outcome.bind_eq_ok ..).1 ran
  obtain ⟨change, changed, returned⟩ := (Outcome.bind_eq_ok ..).1 ran
  obtain rfl := Except.ok.inj returned
  exact ⟨reached, FrameChange.moved_of_relocate _ _ _ changed⟩

/-- The frames of a rewritten table are the moved frames of the table. -/
theorem relocate_moves (relocation : Relocation) (contents rewritten : List UInt8)
    (map moved : StackMap) (parsed : parse contents = .ok map)
    (ran : map.relocate relocation = .ok moved) (wrote : moved.written = .ok rewritten) :
    parse rewritten = .ok moved ∧
      List.Forall₂ (Frame.Moved relocation) map.frames moved.frames := by
  have each := moved_of_relocate relocation map moved ran
  have before := wellFormed_of_parse contents map parsed
  have wellFormed : moved.WellFormed := by
    intro frame member
    obtain ⟨old, present, moves⟩ := Outcome.exists_of_forall₂ each frame member
    exact moves.change.wellFormed (before old present)
  exact ⟨parse_written moved rewritten wellFormed wrote, each⟩

end StackMap

end NullGuard
