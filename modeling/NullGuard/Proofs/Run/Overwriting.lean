import NullGuard.Proofs.Run.Confinement

/-!
# What becomes of the input

A run refuses an output path that leads to its input. That keeps the files of the input from
being overwritten as long as the two paths lie apart. It does not if one of them leads below
the other, if the output path leads to the input only once directories on its way have been
created, or if a class file has a name that leads out of the output directory
(`Output.Meets`, `Output.keeps_input`).
-/

namespace NullGuard

namespace FileTree

/-- Two paths that lead to the same thing have one destination, and the other way round if
both lead to something. -/
theorem leadToSame_of_destination (tree : FileTree) (first second : String)
    (firstExists : tree.pathExists first = true) (secondExists : tree.pathExists second = true)
    (same : tree.destination first = tree.destination second) :
    tree.leadToSame first second = true := by
  obtain ⟨_, firstKnown⟩ := (tree.pathExists_iff first).1 firstExists
  obtain ⟨_, secondKnown⟩ := (tree.pathExists_iff second).1 secondExists
  simp [leadToSame, firstKnown, secondKnown, same]

/-- Nothing stands below a file. -/
theorem eq_of_prefix_file (tree : FileTree) (path : String) (found : tree.pathExists path = true)
    (isFile : tree.isDirectory path = false) (location : Location) (node : Node)
    (below : tree.destination path <+: location) (here : tree.node? location = some node) :
    location = tree.destination path := by
  by_contra different
  have around := tree.directory_of_above location _ node here below (Ne.symm different)
  obtain ⟨branch, known⟩ := (tree.pathExists_iff path).1 found
  rw [node?, (tree.stat_eq path _ branch known).2] at around
  cases branch with
  | file bytes => cases around
  | directory entries =>
    rw [isDirectory, known] at isFile
    cases isFile

end FileTree

namespace Scan

/-- An input that is no directory is a file. -/
theorem Finds.isFile [ArchiveLibrary] {tree : FileTree} {path : String} {layout : InputLayout}
    {entries : List InputEntry} (found : Finds tree path layout entries)
    (form : layout ≠ .directory) : tree.isDirectory path = false := by
  cases found with
  | directory => exact absurd rfl form
  | jar _ isFile => exact isFile
  | classFile _ _ isFile => exact isFile

end Scan

namespace Output

/-- How the output can come to lie where the input is. -/
inductive Meets (options : Options) (tree : FileTree) (layout : InputLayout) : Prop
  /-- Nothing stands where the output path leads so far, but it names the place of the input. -/
  | unseen (same : tree.destination options.output = tree.destination options.input)
      (unknown : tree.pathExists options.output = false)
  /-- The input stands below the output directory. -/
  | around (form : layout ≠ .jar)
      (outside : (tree.destination options.input).IsBelow (tree.destination options.output))
  /-- The output directory stands below the input directory. -/
  | within (form : layout = .directory)
      (inside : (tree.destination options.output).IsBelow (tree.destination options.input))
  /-- The class file has a name that leads out of a directory. -/
  | astray (out : Scan.LeadsOut tree options.input layout)

/-- A place of the input at which the output is written is one where the two meet. -/
theorem meets_of_mem_targets [ArchiveLibrary] {options : Options} {tree : FileTree}
    (proper : tree.root.IsProper) {prepared : Run.Prepared} {index : ClassIndex}
    (ready : Run.Ready options tree prepared index) {support : List SupportClass}
    (missing : Missing prepared.inputs options.mode support) (location : Location)
    (bytes : List UInt8) (ofInput : tree.destination options.input <+: location)
    (here : tree.node? location = some (.file bytes))
    (target : location ∈ targets tree.current prepared.inputs.layout options.output
      (files prepared.inputs prepared.woven support)) :
    Meets options tree prepared.inputs.layout := by
  have found := Scan.finds_of_inputs prepared.inputs ready.scanned
  have meetsAt (same : tree.destination options.output = tree.destination options.input) :
      Meets options tree prepared.inputs.layout := by
    refine .unseen same (Bool.eq_false_iff.2 fun known => ?_)
    have guarded := ready.apart
    rw [tree.leadToSame_of_destination _ _ ready.inputExists known same.symm] at guarded
    cases guarded
  have fileAt (form : prepared.inputs.layout ≠ .directory) :
      location = tree.destination options.input :=
    tree.eq_of_prefix_file options.input ready.inputExists (found.isFile form) location _
      ofInput here
  by_cases jar : prepared.inputs.layout = .jar
  · have there := fileAt (by rw [jar]; decide)
    rw [jar] at target
    exact meetsAt ((List.mem_singleton.1 target).symm.trans there)
  · by_cases out : Scan.LeadsOut tree options.input prepared.inputs.layout
    · exact .astray out
    · obtain ⟨file, member, rfl⟩ := exists_of_mem_targets jar target
      obtain ⟨names, any, ends⟩ := isBelow_files proper prepared.inputs found jar out
        prepared.woven missing tree.current options.output file member
      have ofOutput : tree.destination options.output <+: _ := ⟨names, ends.symm⟩
      by_cases directory : prepared.inputs.layout = .directory
      · rcases List.prefix_or_prefix_of_prefix ofOutput ofInput with
          ⟨inner, same⟩ | ⟨inner, same⟩
        · by_cases none : inner = []
          · rw [none, List.append_nil] at same
            exact meetsAt same
          · exact .around jar ⟨inner, none, same.symm⟩
        · by_cases none : inner = []
          · rw [none, List.append_nil] at same
            exact meetsAt same.symm
          · exact .within directory ⟨inner, none, same.symm⟩
      · exact .around jar ⟨names, any, (fileAt directory).symm.trans ends⟩

/-- What becomes of the files of the input, be it the input itself or a file below it.
Whether or not the output can be written, each of them keeps its bytes unless the output is
written where it stands, and that takes an output that meets the input. If the output has
been written, its own bytes stand at all the places where it is written. -/
theorem keeps_input [ArchiveLibrary] (options : Options) (tree : FileTree)
    (proper : tree.root.IsProper) (prepared : Run.Prepared)
    (ran : Run.prepare options tree = .ok prepared) :
    ∃ support, missingSupport prepared.inputs options.mode = .ok support ∧
      (∀ location, tree.destination options.input <+: location →
        ∀ bytes, tree.node? location = some (.file bytes) →
          (write prepared.inputs prepared.woven options.mode options.output tree).2.node?
              location = some (.file bytes) ∨
            location ∈ targets tree.current prepared.inputs.layout options.output
                (files prepared.inputs prepared.woven support) ∧
              Meets options tree prepared.inputs.layout) ∧
      ∀ summary after,
        write prepared.inputs prepared.woven options.mode options.output tree =
            (.ok summary, after) →
          ∀ location ∈ targets tree.current prepared.inputs.layout options.output
              (files prepared.inputs prepared.woven support),
            ∃ bytes, Writes tree.current prepared.inputs.layout options.output
                (files prepared.inputs prepared.woven support) location bytes ∧
              after.node? location = some (.file bytes) := by
  obtain ⟨support, known, missing⟩ := exists_missing prepared.inputs options.mode
  obtain ⟨index, ready⟩ := (Run.prepare_eq_ok ..).1 ran
  refine ⟨support, known, fun location ofInput bytes here => ?_, fun summary after wrote => ?_⟩
  · by_cases target : location ∈ targets tree.current prepared.inputs.layout options.output
        (files prepared.inputs prepared.woven support)
    · exact .inr ⟨target,
        meets_of_mem_targets proper ready missing location bytes ofInput here target⟩
    · have touched := touches_output prepared.inputs prepared.woven options.mode options.output
        support known tree
      exact .inl ((touched.files location target bytes).2 here)
  · exact writes_of_runs_output _ _ _ _ support known tree after summary wrote

attribute [local instance] Archive.uncompressed in
/-- A class file is kept when the output goes elsewhere. -/
theorem keeps_input_fieldClass : ∃ prepared,
    (Run.smallTree "A.class" (.file Dispatcher.fieldClass)).root.IsProper ∧
      Run.prepare (Run.smallOptions "A.class" "out")
        (Run.smallTree "A.class" (.file Dispatcher.fieldClass)) = .ok prepared ∧
      (Run.smallTree "A.class" (.file Dispatcher.fieldClass)).destination "A.class" <+:
        ["A.class"] ∧
      (Run.smallTree "A.class" (.file Dispatcher.fieldClass)).node? ["A.class"] =
        some (.file Dispatcher.fieldClass) ∧
      (write prepared.inputs prepared.woven .external "out"
        (Run.smallTree "A.class" (.file Dispatcher.fieldClass))).2.node? ["A.class"] =
          some (.file Dispatcher.fieldClass) := by
  obtain ⟨prepared, ran, form, -⟩ := Run.exists_prepared
    (Run.smallOptions "A.class" "out") (Run.smallTree "A.class" (.file Dispatcher.fieldClass))
    .classFile ["r/A.class"] (by decide +kernel)
  have proper := Run.isProper_smallTree "A.class" (.file Dispatcher.fieldClass)
    ⟨by decide, by decide, by decide⟩ (.file _)
  have input : (Run.smallTree "A.class" (.file Dispatcher.fieldClass)).destination "A.class" =
      ["A.class"] := by decide
  have output : (Run.smallTree "A.class" (.file Dispatcher.fieldClass)).destination "out" =
      ["out"] := by decide
  have here : (Run.smallTree "A.class" (.file Dispatcher.fieldClass)).node? ["A.class"] =
      some (.file Dispatcher.fieldClass) := by decide
  have below : (Run.smallTree "A.class" (.file Dispatcher.fieldClass)).destination "A.class" <+:
      ["A.class"] := by simp [input]
  obtain ⟨support, -, kept, -⟩ := keeps_input (Run.smallOptions "A.class" "out")
    (Run.smallTree "A.class" (.file Dispatcher.fieldClass)) proper prepared ran
  refine ⟨prepared, proper, ran, below, here, ?_⟩
  refine (kept ["A.class"] below Dispatcher.fieldClass here).resolve_right ?_
  rintro ⟨-, meets⟩
  cases meets with
  | unseen same =>
    have different : ["out"] = ["A.class"] := output.symm.trans (same.trans input)
    revert different
    decide
  | around _ outside =>
    obtain ⟨names, -, same⟩ := outside
    have different : ["A.class"] = ["out"] ++ names :=
      input.symm.trans (same.trans (congrArg (· ++ names) output))
    have first := (List.cons.inj different).1
    revert first
    decide
  | within directory =>
    rw [form] at directory
    cases directory
  | astray out => exact not_leadsOut_fieldClass _ out

/-- A class with a field, on which the marker is that forbids null. -/
def markedClass : List UInt8 :=
  Written.u32 ClassFile.magic ++ [0, 0, 0, 49, 0, 7] ++
    holderText "r/A" ++ [7, 0, 1] ++ holderText "f" ++ holderText "Ljava/lang/Object;" ++
    holderText "RuntimeVisibleAnnotations" ++ holderText Markers.notNullType ++
    [0, 0x21, 0, 2, 0, 0, 0, 0, 0, 1, 0, 0, 0, 3, 0, 4, 0, 0, 0, 0] ++
    [0, 1, 0, 5, 0, 0, 0, 6, 0, 1, 0, 6, 0, 0]

/-- A class file that stands in the directory of its package is overwritten when the output
goes to the directory around that. -/
theorem overwrites_input_markedClass : ∃ result after,
    run (Run.smallOptions "r/A.class" ".")
        (Run.smallTree "r" (.directory [("A.class", .file markedClass)])) = (.ok result, after) ∧
      (Run.smallTree "r" (.directory [("A.class", .file markedClass)])).destination "r/A.class" =
        ["r", "A.class"] ∧
      (Run.smallTree "r" (.directory [("A.class", .file markedClass)])).node? ["r", "A.class"] =
        some (.file markedClass) ∧
      after.node? ["r", "A.class"] ≠ some (.file markedClass) := by
  obtain ⟨result, after, ran, changed⟩ := Run.exists_result
    (Run.smallOptions "r/A.class" ".")
    (Run.smallTree "r" (.directory [("A.class", .file markedClass)]))
    (fun tree => decide (tree.node? ["r", "A.class"] = some (.file markedClass))) false
    (by decide +kernel)
  exact ⟨result, after, ran, by decide, by decide, of_decide_eq_false changed⟩

end Output

end NullGuard
