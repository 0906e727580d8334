import NullGuard.Proofs.Code.Body
import NullGuard.Proofs.Guard.Mentions

/-!
# Weaving a method

The stream that the weaver makes of a method holds the guards that the method
demands and nothing else. If that changes anything, the new contents of the code
attribute decode to the stream with all guards in it; otherwise the method is
left as it is.
-/

namespace NullGuard

open Stateful

/-- The instructions that were put into a stream. -/
def Stream.inserted (stream : Stream) : List (Instruction Label) :=
  stream.entry ++ stream.slots.flatMap fun slot => slot.before ++ slot.after

/-- A stream is another one with the guards in it that a method demands. Whether a
field instruction accesses a guarded field has been decided for each slot. -/
structure MethodPlan.Fills (plan : MethodPlan) (pool : Pool) (original stream : Stream) : Prop where
  instructions : stream.instructions = original.instructions
  landmarks : stream.landmarks = original.landmarks
  entry : plan.IsGuard pool stream.entry .argument
  slots : ∀ slot ∈ stream.slots, ∃ accessed,
    plan.Decides original.instructions pool slot.instruction accessed ∧
      plan.Guards pool accessed slot

namespace MethodPlan.Fills

variable {plan : MethodPlan} {pool grown : Pool} {original stream : Stream}
variable (fills : plan.Fills pool original stream)
include fills

/-- The groups of a method stay guards as the pool grows. -/
theorem grow (grows : pool.GrowsTo grown) : plan.Fills grown original stream where
  instructions := fills.instructions
  landmarks := fills.landmarks
  entry := fills.entry.grow grows
  slots slot member := by
    obtain ⟨accessed, decides, guards⟩ := fills.slots slot member
    exact ⟨accessed, decides.grow grows, guards.grow grows⟩

/-- Guards consist of independent instructions. -/
theorem isExtension : stream.Extends original where
  instructions := fills.instructions
  landmarks := fills.landmarks
  entry instruction member := (fills.entry.passable instruction member).1
  before slot inside instruction member := by
    obtain ⟨accessed, -, guards⟩ := fills.slots slot inside
    exact (guards.passable_before instruction member).1
  after slot inside instruction member := by
    obtain ⟨accessed, -, guards⟩ := fills.slots slot inside
    exact (guards.passable_after instruction member).1

/-- What was put in mentions guarded fields, checks and added methods only. -/
theorem mentions : ∀ instruction ∈ stream.inserted, plan.Mentions pool instruction := by
  intro instruction member
  rw [Stream.inserted, List.mem_append] at member
  obtain atEntry | atSlot := member
  · exact fills.entry.mentions instruction atEntry
  · obtain ⟨slot, inside, here⟩ := List.mem_flatMap.1 atSlot
    obtain ⟨accessed, -, guards⟩ := fills.slots slot inside
    obtain before | after := List.mem_append.1 here
    · obtain ⟨kind, -, -, guard⟩ := guards.exists_before (List.ne_nil_of_mem before)
      exact guard.mentions instruction before
    · have demanded := guards.demanded_after (List.ne_nil_of_mem after)
      exact (guards.after demanded).mentions instruction after

/-- Control passes through guards. -/
theorem passesThrough : stream.PassesThrough where
  entry instruction member := (fills.entry.passable instruction member).2
  before slot inside instruction member := by
    obtain ⟨accessed, -, guards⟩ := fills.slots slot inside
    exact (guards.passable_before instruction member).2
  after slot inside instruction member := by
    obtain ⟨accessed, -, guards⟩ := fills.slots slot inside
    exact (guards.passable_after instruction member).2
  host slot inside behind := by
    obtain ⟨accessed, -, guards⟩ := fills.slots slot inside
    exact guards.fallsThrough behind

/-- With separate indices every slot holds exactly the guard that is demanded there. -/
theorem exactly (separate : MethodPlan.Separate original.instructions) :
    ∀ slot ∈ stream.slots, plan.Guards pool (plan.Accesses pool slot.instruction) slot := by
  intro slot member
  obtain ⟨accessed, decides, guards⟩ := fills.slots slot member
  rw [← propext (decides.exactly separate)]
  exact guards

end MethodPlan.Fills

namespace MethodPlan

/-- The stream that the weaver makes is filled with the guards demanded. -/
theorem fills_of_guardStream (plan : MethodPlan) (original stream : Stream) (lengths : List Nat)
    (decoded : original.IsDecoded lengths) (kinds : List CheckKind) (pool grown : Pool)
    (small : pool.size ≤ Pool.maxSize)
    (ran : Runs (plan.guardStream original) pool (stream, kinds) grown) :
    pool.GrowsTo grown ∧ plan.Fills grown original stream := by
  obtain ⟨grows, groups, insertions, remembered, checks, each, -, rfl⟩ :=
    plan.chosen_of_guardStream original stream kinds pool grown small ran
  obtain ⟨instructions, slots⟩ := Insertion.slots_apply original.instructions insertions each
  refine ⟨grows, ?_⟩
  refine
    { instructions := ?_
      landmarks := rfl
      entry := ?_
      slots := ?_ }
  · rw [decoded.bare]
    exact instructions
  · refine ⟨groups, ?_, checks⟩
    show original.entry ++ groups.flatten = groups.flatten
    rw [decoded.entry, List.nil_append]
  · rw [decoded.bare]
    intro slot member
    obtain ⟨insertion, ⟨accessed, decides, inserts⟩, same⟩ := slots slot member
    have guards := inserts.guards
    rw [← same] at guards
    exact ⟨accessed, decides, guards⟩

end MethodPlan

/-! ## Code attributes -/

/-- A member has a code attribute that holds a body, whose code decodes to a stream. -/
def Member.HasBody (pool : Pool) (member : Member) (body : Body) (stream : Stream) : Prop :=
  ∃ code, pool.findAttribute ClassFile.codeName member.attributes = some code ∧
    Body.parse code.contents = .ok body ∧ Stream.decode body.code = .ok stream

/-- The first attribute is found, or the search goes on behind it. -/
theorem Pool.findAttribute_cons (pool : Pool) (name : String) (first : Attribute)
    (others : List Attribute) :
    pool.findAttribute name (first :: others) =
      if pool.utf8Is first.name name = true then some first
      else pool.findAttribute name others := by
  by_cases named : pool.utf8Is first.name name = true
  · rw [if_pos named]
    exact List.find?_cons_of_pos (p := fun entry : Attribute => pool.utf8Is entry.name name) named
  · rw [if_neg named]
    exact List.find?_cons_of_neg (p := fun entry : Attribute => pool.utf8Is entry.name name) named

/-- An attribute that was found stays where it is. -/
theorem Pool.GrowsTo.findAttribute {pool grown : Pool} (grows : pool.GrowsTo grown) (name : String)
    (attributes : List Attribute) (entry : Attribute)
    (found : pool.findAttribute name attributes = some entry) :
    grown.findAttribute name attributes = some entry := by
  have named : pool.utf8Is entry.name name = true :=
    List.find?_some (p := fun entry : Attribute => pool.utf8Is entry.name name) found
  rw [grows.findAttribute_eq name attributes ⟨entry.name, named⟩]
  exact found

/-- The body that a member has is still found as the pool grows. -/
theorem Member.HasBody.grow {pool grown : Pool} {member : Member} {body : Body} {stream : Stream}
    (holds : member.HasBody pool body stream) (grows : pool.GrowsTo grown) :
    member.HasBody grown body stream := by
  obtain ⟨code, found, parsed, decoded⟩ := holds
  exact ⟨code, grows.findAttribute _ _ _ found, parsed, decoded⟩

/-- The stream of a body is what its code was decoded to. -/
theorem Member.HasBody.isDecoded {pool : Pool} {member : Member} {body : Body} {stream : Stream}
    (holds : member.HasBody pool body stream) : ∃ lengths, stream.IsDecoded lengths := by
  obtain ⟨code, -, -, decoded⟩ := holds
  obtain ⟨lengths, isDecoded, -⟩ := Stream.isDecoded_of_decode body.code stream decoded
  exact ⟨lengths, isDecoded⟩

namespace MethodPlan

/-- The new body of a method, moved along with a stream that holds the guards. -/
structure Moves (stream : Stream) (body newBody : Body) (again : Stream) : Prop where
  decoded : Stream.decode newBody.code = .ok again
  flattened : again = stream.flattened
  handlers : ∃ encoded, stream.Encodes encoded ∧
    List.Forall₂ (HandlerRow.Moved (Body.relocationOf stream encoded)) body.handlers
      newBody.handlers

/-- What weaving a method has come to: nothing, as no guard is demanded, or the
contents of a code attribute. -/
def Rewrites (plan : MethodPlan) (pool : Pool) (member : Member)
    (result : Option (List UInt8 × Statistics)) : Prop :=
  ∃ body original stream, member.HasBody pool body original ∧ plan.Fills pool original stream ∧
    match result with
    | none => stream.isModified = false
    | some (contents, _) => ∃ newBody again, Body.parse contents = .ok newBody ∧
        Moves stream body newBody again ∧
        newBody.maxStack = Body.raisedStack body.maxStack guardStack

/-- What has become of a method stays right as the pool grows. -/
theorem Rewrites.grow {plan : MethodPlan} {pool grown : Pool} {member : Member}
    {result : Option (List UInt8 × Statistics)} (rewrites : plan.Rewrites pool member result)
    (grows : pool.GrowsTo grown) : plan.Rewrites grown member result := by
  obtain ⟨body, original, stream, holds, fills, rewritten⟩ := rewrites
  exact ⟨body, original, stream, holds.grow grows, fills.grow grows, rewritten⟩

/-- All that is done to weave the code of a member: its body is decoded and the guards are
put into its stream. If there are any, the body is rearranged and written. -/
theorem runs_guardCode (plan : MethodPlan) (member : Member)
    (result : Option (List UInt8 × Statistics)) (pool grown : Pool)
    (ran : Runs (plan.guardCode member) pool result grown) :
    ∃ code body original stream kinds,
      pool.findAttribute ClassFile.codeName member.attributes = some code ∧
      Body.parse code.contents = .ok body ∧ Stream.decode body.code = .ok original ∧
      Runs (plan.guardStream original) pool (stream, kinds) grown ∧
      ((stream.isModified = false ∧ result = none) ∨
        (stream.isModified = true ∧ ∃ newBody contents,
          body.rearranged stream grown guardStack = .ok newBody ∧
          newBody.written = .ok contents ∧ result = some (contents, .ofKinds kinds))) := by
  have begun := (runs_get_bind ..).1 ran
  split at begun
  next code found =>
    obtain ⟨body, parsed, decoding⟩ := (runs_settle_bind ..).1 begun
    obtain ⟨original, decoded, guarding⟩ := (runs_settle_bind ..).1 decoding
    obtain ⟨⟨stream, kinds⟩, filled, guarded, ended⟩ := (runs_bind ..).1 guarding
    dsimp only at ended
    split at ended
    next unmodified =>
      obtain ⟨rfl, rfl⟩ := (runs_pure ..).1 ended
      exact ⟨code, body, original, stream, kinds, found, parsed, decoded, guarded,
        .inl ⟨by simpa using unmodified, rfl⟩⟩
    next modified =>
      have moving := (runs_get_bind ..).1 ended
      obtain ⟨newBody, rearranged, writing⟩ := (runs_settle_bind ..).1 moving
      obtain ⟨contents, wrote, returned⟩ := (runs_settle_bind ..).1 writing
      obtain ⟨rfl, rfl⟩ := (runs_pure ..).1 returned
      exact ⟨code, body, original, stream, kinds, found, parsed, decoded, guarded,
        .inr ⟨by simpa using modified, newBody, contents, rearranged, wrote, rfl⟩⟩
  next => exact (not_runs_fail _ _ _ _ begun).elim

/-- A rearranged body is read as it was written, and its code decodes to the stream with
the guards. -/
theorem moves_of_rearranged {original stream : Stream} {lengths : List Nat}
    (isDecoded : original.IsDecoded lengths) (isExtension : stream.Extends original)
    (body newBody : Body) (pool : Pool) (contents : List UInt8)
    (rearranged : body.rearranged stream pool guardStack = .ok newBody)
    (wrote : newBody.written = .ok contents) :
    Body.parse contents = .ok newBody ∧ Moves stream body newBody stream.flattened ∧
      newBody.maxStack = Body.raisedStack body.maxStack guardStack := by
  obtain ⟨encoded, ranEncode, newCode, raised, -, handlers, -⟩ :=
    Body.moved_of_rearranged body newBody stream pool guardStack rearranged
  have encodes := (Stream.encode_eq_ok ..).1 ranEncode
  have fits := isExtension.fits isDecoded
  have length := encodes.length_code fits
  have parsedAgain := newBody.parse_written contents
    (by rw [newCode, length]; exact encodes.positive)
    (by rw [newCode, length]; exact encodes.bounded) wrote
  have decodedAgain : Stream.decode newBody.code = .ok stream.flattened := by
    rw [newCode]
    exact encodes.decode fits
  exact ⟨parsedAgain, ⟨decodedAgain, rfl, encoded, encodes, handlers⟩, raised⟩

/-- A member whose code has been found is woven by guards that it demands. -/
theorem rewrites_of_guardCode (plan : MethodPlan) (member : Member)
    (result : Option (List UInt8 × Statistics)) (pool grown : Pool)
    (small : pool.size ≤ Pool.maxSize)
    (ran : Runs (plan.guardCode member) pool result grown) :
    pool.GrowsTo grown ∧ plan.Rewrites grown member result := by
  obtain ⟨code, body, original, stream, kinds, found, parsed, decoded, guarded, ended⟩ :=
    plan.runs_guardCode member result pool grown ran
  obtain ⟨lengths, isDecoded, -⟩ := Stream.isDecoded_of_decode body.code original decoded
  obtain ⟨grows, fills⟩ :=
    plan.fills_of_guardStream original stream lengths isDecoded kinds pool grown small guarded
  have holds : member.HasBody grown body original :=
    ⟨code, grows.findAttribute _ _ _ found, parsed, decoded⟩
  refine ⟨grows, body, original, stream, holds, fills, ?_⟩
  obtain ⟨unmodified, rfl⟩ | ⟨-, newBody, contents, rearranged, wrote, rfl⟩ := ended
  · exact unmodified
  · exact ⟨newBody, _, moves_of_rearranged isDecoded fills.isExtension body newBody grown contents
      rearranged wrote⟩

end MethodPlan

end NullGuard
