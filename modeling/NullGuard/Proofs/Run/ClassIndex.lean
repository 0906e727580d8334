import NullGuard.Proofs.Run.Input
import NullGuard.Run.ClassIndex

/-!
# Looking up classes

An index answers for a name with the class of the input that has it, and otherwise with
the first one of the class path. It exists if no two classes of the input share a name.
-/

namespace NullGuard.ClassIndex

/-- A class is added behind those that are there. -/
theorem find?_add (index : ClassIndex) (name : String) (bytes : List UInt8) (sought : String) :
    (index.add name bytes).find? sought =
      (index.find? sought).or ([(name, bytes)].lookup sought) := by
  rw [add, contains]
  cases known : index.find? name with
  | none => exact List.lookup_append
  | some held =>
    rw [Option.isSome_some, if_pos rfl]
    by_cases same : sought = name
    · rw [same, known, Option.some_or]
    · rw [List.lookup_cons, beq_eq_false_iff_ne.2 same, List.lookup_nil, Option.or_none]

/-- Of several classes the first one of a name counts. -/
theorem find?_foldl_add (items : List (String × List UInt8)) (index : ClassIndex)
    (sought : String) :
    (items.foldl (fun index item => index.add item.1 item.2) index).find? sought =
      (index.find? sought).or (items.lookup sought) := by
  induction items generalizing index with
  | nil => rw [List.foldl_nil, List.lookup_nil, Option.or_none]
  | cons item others inductionHypothesis =>
    rw [List.foldl_cons, inductionHypothesis, find?_add, Option.or_assoc, ← List.lookup_append,
      List.singleton_append]

/-- What a name of the input stands for, and otherwise what it stands for on the class
path. -/
def answer (inputs : Inputs) (name : String) : Option (List UInt8) :=
  ((inputs.classes.map fun item => (item.1, item.2.bytes)).lookup name).or
    ((inputs.classpath.map fun item => (item.name, item.bytes)).lookup name)

/-- No name is shared by two classes of the input. -/
theorem duplicates_eq_nil (inputs : Inputs) (distinct : (inputs.classes.map Prod.fst).Nodup) :
    duplicates inputs = [] := by
  have single (name : String) :
      (inputs.classes.filter fun item => item.1 == name).length ≤ 1 := by
    rw [← List.countP_eq_length_filter]
    have once := List.nodup_iff_count_le_one.1 distinct name
    rw [List.count, List.countP_map] at once
    exact once
  rw [duplicates, List.filter_eq_nil_iff]
  intro item member
  obtain ⟨name, -, rfl⟩ := List.mem_map.1 member
  rw [decide_eq_true_iff, List.length_map]
  exact Nat.not_lt.2 (single name)

/-- What an index answers. -/
theorem find?_of_ofInputs (inputs : Inputs) (index : ClassIndex)
    (indexed : ofInputs inputs = .ok index) (name : String) :
    index.find? name = answer inputs name := by
  unfold ofInputs at indexed
  split at indexed
  next =>
    obtain rfl := Except.ok.inj indexed
    have begun := find?_foldl_add (inputs.classes.map fun item => (item.1, item.2.bytes)) empty name
    have ended := find?_foldl_add (inputs.classpath.map fun item => (item.name, item.bytes))
      (inputs.classes.foldl (fun index item => index.add item.1 item.2.bytes) empty) name
    rw [List.foldl_map] at begun ended
    rw [answer]
    refine ended.trans (congrArg (Option.or · _) ?_)
    exact begun.trans (Option.none_or ..)
  next => cases indexed

/-- If the classes of the input have different names, there is an index of everything. -/
theorem exists_index (inputs : Inputs) (distinct : (inputs.classes.map Prod.fst).Nodup) :
    ∃ index, ofInputs inputs = .ok index ∧ ∀ name, index.find? name = answer inputs name := by
  have indexed : ∃ index, ofInputs inputs = .ok index := by
    rw [ofInputs, duplicates_eq_nil inputs distinct]
    exact ⟨_, rfl⟩
  obtain ⟨index, known⟩ := indexed
  exact ⟨index, known, find?_of_ofInputs inputs index known⟩

end NullGuard.ClassIndex
