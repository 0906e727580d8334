import NullGuard.Proofs.Code.FrameOrder

/-!
# Stack maps written again

Reading a stack map forgets which forms its frames had. Writing picks a form for each
frame anew, the short one where there is a choice, and so a table can only get shorter.
It comes back byte for byte unless a frame of it has wasted two bytes on a distance that
its tag could have held (`exists_written_of_spells`). Neither this choice nor the one that
is made after offsets have moved shows when the table is read again (`survives_reencoding`).
-/

namespace NullGuard

namespace FrameForm

/-- A long form although the tag of the short one could hold the distance. -/
def Wasteful (form : FrameForm) : Prop :=
  (form.tag = 247 ∨ form.tag = 251) ∧ form.distance ≤ 63

/-- What a form becomes when its frame is written again. -/
inductive Rewritten (form : FrameForm) : List UInt8 → Prop
  | kept (thrifty : ¬ form.Wasteful) : Rewritten form form.written
  | shortened (wasteful : form.Wasteful) (bytes : List UInt8)
      (shorter : bytes.length < form.written.length) : Rewritten form bytes

/-- A form is not wasteful if its tag is none of the two of long forms that have a short one. -/
theorem thrifty_of_tag (form : FrameForm) (number : Nat) (tag : form.tag = UInt8.ofNat number)
    (small : number < 256) (notItem : number ≠ 247) (notSame : number ≠ 251) :
    ¬ form.Wasteful := by
  have value : form.tag.toNat = number := by
    rw [tag]
    exact UInt8.toNat_ofNat_of_lt' small
  rintro ⟨isItem | isSame, -⟩
  · exact notItem (value.symm.trans (congrArg UInt8.toNat isItem))
  · exact notSame (value.symm.trans (congrArg UInt8.toNat isSame))

/-- The frame of every form can be written. -/
theorem exists_rewritten (form : FrameForm) :
    ∃ bytes, form.change.written form.distance = .ok bytes ∧ form.Rewritten bytes := by
  obtain ⟨tag, distance, change, details, form⟩ := form
  cases form with
  | same distance short =>
    exact ⟨_, if_pos short,
      .kept (thrifty_of_tag _ distance rfl (by omega) (by omega) (by omega))⟩
  | sameFar distance near =>
    by_cases short : distance ≤ 63
    · refine ⟨_, if_pos short, .shortened ⟨.inr rfl, short⟩ _ ?_⟩
      simp [written, Written.u16]
    · exact ⟨_, if_neg short, .kept fun wasteful => short wasteful.2⟩
  | oneItem distance short item _ wrote =>
    exact ⟨_, (Outcome.bind_eq_ok ..).2 ⟨_, wrote, if_pos short⟩,
      .kept (thrifty_of_tag _ (64 + distance) rfl (by omega) (by omega) (by omega))⟩
  | oneItemFar distance near item _ wrote =>
    by_cases short : distance ≤ 63
    · refine ⟨_, (Outcome.bind_eq_ok ..).2 ⟨_, wrote, if_pos short⟩,
        .shortened ⟨.inl rfl, short⟩ _ ?_⟩
      simp [written, Written.u16]
    · exact ⟨_, (Outcome.bind_eq_ok ..).2 ⟨_, wrote, if_neg short⟩,
        .kept fun wasteful => short wasteful.2⟩
  | chop distance near count few =>
    refine ⟨_, rfl, .kept ?_⟩
    obtain rfl | rfl | rfl := few
    · exact thrifty_of_tag _ 250 rfl (by decide) (by decide) (by decide)
    · exact thrifty_of_tag _ 249 rfl (by decide) (by decide) (by decide)
    · exact thrifty_of_tag _ 248 rfl (by decide) (by decide) (by decide)
  | append distance near locals few _ wrote =>
    exact ⟨_, (Outcome.bind_eq_ok ..).2 ⟨_, wrote, rfl⟩,
      .kept (thrifty_of_tag _ (251 + locals.length) rfl (by omega) (by omega) (by omega))⟩
  | full distance near locals stack first second wroteLocals wroteStack =>
    refine ⟨_, (Outcome.bind_eq_ok ..).2 ⟨first, wroteLocals,
      (Outcome.bind_eq_ok ..).2 ⟨second, wroteStack, ?_⟩⟩,
      .kept (thrifty_of_tag _ 255 rfl (by decide) (by decide) (by decide))⟩
    rw [List.cons_append, List.cons_append, List.append_assoc]
    rfl

/-- Forms get shorter as a whole, and strictly so as soon as one of them is wasteful. -/
theorem flatten_rewritten {forms : List FrameForm} {parts : List (List UInt8)}
    (each : List.Forall₂ Rewritten forms parts) :
    parts.flatten.length ≤ (forms.flatMap written).length ∧
      (parts.flatten = forms.flatMap written ↔ ∀ form ∈ forms, ¬ form.Wasteful) := by
  induction each with
  | nil => simp
  | @cons form part others rest rewritten _ inductionHypothesis =>
    obtain ⟨shorter, same⟩ := inductionHypothesis
    rw [List.flatten_cons, List.flatMap_cons, List.length_append, List.length_append,
      List.forall_mem_cons]
    cases rewritten with
    | kept thrifty =>
      refine ⟨by omega, ?_⟩
      rw [List.append_cancel_left_eq, same, and_iff_right thrifty]
    | shortened wasteful bytes less =>
      refine ⟨by omega, iff_of_false (fun equal => ?_) fun thrifty => thrifty.1 wasteful⟩
      have sizes := congrArg List.length equal
      rw [List.length_append, List.length_append] at sizes
      omega

end FrameForm

namespace StackMap

/-- The distance is found again from the offset that it has led to. -/
theorem distanceFrom_offsetAfter (previous : Option Nat) (distance : Nat) :
    distanceFrom previous (offsetAfter previous distance) = .ok distance := by
  cases previous with
  | none => rfl
  | some before =>
    rw [distanceFrom, offsetAfter, if_neg (by omega)]
    congr 1
    omega

/-- Frames are written at the distances that they had when they were read. -/
theorem writtenFrames_framesBehind (previous : Option Nat) (forms : List FrameForm) :
    ((previous :: (FrameForm.framesBehind previous forms).map fun frame => some frame.offset).zip
        (FrameForm.framesBehind previous forms)).mapM
      (fun (previous, frame) => writtenFrame previous frame) =
        forms.mapM fun form => form.change.written form.distance := by
  induction forms generalizing previous with
  | nil => rfl
  | cons form others inductionHypothesis =>
    have near : ¬ 65536 ≤ form.distance := Nat.not_le_of_lt form.form.near
    have first : writtenFrame previous
        ⟨offsetAfter previous form.distance, form.change⟩ = form.change.written form.distance := by
      rw [writtenFrame, distanceFrom_offsetAfter]
      simp only [bind, Except.bind, if_neg near]
    simp only [FrameForm.framesBehind, List.map_cons, List.zip_cons_cons, List.mapM_cons, first,
      inductionHypothesis]

/-- What was read can be written, takes no more bytes than before, and comes back as it was
exactly if none of its frames was wasteful. -/
theorem exists_written_of_spells (contents : List UInt8) (forms : List FrameForm)
    (map : StackMap) (spells : FrameForm.Spells contents forms)
    (frames : map.frames = FrameForm.framesBehind none forms) :
    ∃ rewritten, map.written = .ok rewritten ∧ rewritten.length ≤ contents.length ∧
      (rewritten = contents ↔ ∀ form ∈ forms, ¬ form.Wasteful) := by
  have count : map.frames.length = forms.length := by
    rw [frames, FrameForm.length_framesBehind]
  obtain ⟨parts, each⟩ := Outcome.exists_forall₂ forms fun form _ => form.exists_rewritten
  have wrote : forms.mapM (fun form => form.change.written form.distance) = .ok parts :=
    (Outcome.mapM_eq_ok ..).2 (each.imp fun _ _ both => both.1)
  obtain ⟨shorter, same⟩ := FrameForm.flatten_rewritten (each.imp fun _ _ both => both.2)
  refine ⟨Written.u16 (UInt16.ofNat forms.length) ++ parts.flatten, ?_, ?_, ?_⟩
  · refine (Outcome.bind_eq_ok ..).2 ⟨UInt16.ofNat forms.length, ?_,
      (Outcome.bind_eq_ok ..).2 ⟨parts, ?_, rfl⟩⟩
    · rw [Written.tableLength, count, if_pos spells.few]
    · rw [frames]
      exact (writtenFrames_framesBehind none forms).trans wrote
  · rw [spells.bytes, List.length_append, List.length_append]
    omega
  · rw [spells.bytes, List.append_cancel_left_eq, same]

/-- Stack maps survive being written again. Every stack map that can be read can be written,
in no more bytes than it was read from, and is the same when it is read again; the bytes are
the same if and only if no frame of type 247 or 251 had a distance of at most 63. And every
stack map that can be read can be moved by a relocation that keeps the order of the offsets
that occur in it and moves them to at most 65535. What has been moved can be written, and
read again it is the stack map whose frames have their offsets and those of their `new`
instructions moved and nothing else changed. -/
theorem survives_reencoding (contents : List UInt8) (map : StackMap)
    (parsed : parse contents = .ok map) :
    (∃ rewritten, map.written = .ok rewritten ∧ rewritten.length ≤ contents.length ∧
      parse rewritten = .ok map ∧
      (∃ forms, FrameForm.Spells contents forms) ∧
      ∀ forms, FrameForm.Spells contents forms →
        map.frames = FrameForm.framesBehind none forms ∧
        (rewritten = contents ↔ ∀ form ∈ forms, ¬ form.Wasteful)) ∧
    ∀ relocation : Relocation, relocation.KeepsOrderOf map.offsets →
      ∃ moved rewritten, map.relocate relocation = .ok moved ∧
        moved.written = .ok rewritten ∧ parse rewritten = .ok moved ∧
        List.Forall₂ (Frame.Moved relocation) map.frames moved.frames := by
  constructor
  · obtain ⟨forms, spells, frames⟩ := (parse_eq_ok ..).1 parsed
    obtain ⟨rewritten, wrote, shorter, -⟩ :=
      exists_written_of_spells contents forms map spells frames
    have wellFormed := wellFormed_of_parse contents map parsed
    refine ⟨rewritten, wrote, shorter, parse_written map rewritten wellFormed wrote,
      ⟨forms, spells⟩, ?_⟩
    intro others spelled
    have again : parse contents = .ok ⟨FrameForm.framesBehind none others⟩ :=
      (parse_eq_ok ..).2 ⟨others, spelled, rfl⟩
    obtain rfl := Except.ok.inj (parsed.symm.trans again)
    obtain ⟨bytes, wroteBytes, -, same⟩ :=
      exists_written_of_spells contents others _ spelled rfl
    obtain rfl := Except.ok.inj (wrote.symm.trans wroteBytes)
    exact ⟨rfl, same⟩
  · intro relocation keeps
    obtain ⟨moved, ran⟩ := (relocate_succeeds_iff relocation map).2
      (List.forall_mem_flatMap.1 keeps.reached)
    obtain ⟨-, rewritten, wrote⟩ :=
      exists_written_of_keepsOrderOf relocation contents map moved parsed keeps ran
    exact ⟨moved, rewritten, ran, wrote, relocate_moves relocation contents rewritten map moved
      parsed ran wrote⟩

/-- A frame whose tag could have held its distance, one with an item on the stack that has
been created at offset 1, and one with a further local. -/
def wastefulTable : List UInt8 := [0, 3, 251, 0, 5, 66, 8, 0, 1, 252, 0, 10, 1]

/-- The frames of a wasteful table. -/
def wastefulFrames : StackMap :=
  ⟨[⟨5, .same⟩, ⟨8, .oneItem (.uninitialized 1)⟩, ⟨19, .append [.integer]⟩]⟩

/-- Behind the start of the code 97 bytes more are put in. -/
def spread (offset : Nat) : Nat := if offset < 5 then offset + 3 else offset + 100

/-- A table that wastes bytes is written shorter, and read as it was, moved or not. -/
theorem survives_reencoding_wastefulTable :
    parse wastefulTable = .ok wastefulFrames ∧
      (∃ rewritten, wastefulFrames.written = .ok rewritten ∧
        rewritten.length ≤ wastefulTable.length ∧ parse rewritten = .ok wastefulFrames) ∧
      ∃ moved rewritten, wastefulFrames.relocate (.total spread) = .ok moved ∧
        moved.written = .ok rewritten ∧ parse rewritten = .ok moved ∧
        List.Forall₂ (Frame.Moved (.total spread)) wastefulFrames.frames moved.frames := by
  have parsed : parse wastefulTable = .ok wastefulFrames := by decide +kernel
  have keeps : (Relocation.total spread).KeepsOrderOf wastefulFrames.offsets :=
    Relocation.keepsOrderOf_total spread wastefulFrames.offsets (by decide) (by decide)
  obtain ⟨⟨rewritten, wrote, shorter, again, -⟩, moves⟩ :=
    survives_reencoding wastefulTable wastefulFrames parsed
  exact ⟨parsed, ⟨rewritten, wrote, shorter, again⟩, moves (.total spread) keeps⟩

end StackMap

end NullGuard
