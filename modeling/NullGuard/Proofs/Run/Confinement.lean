import NullGuard.Proofs.Run.Basic
import NullGuard.Proofs.Run.Scan
import NullGuard.Proofs.Run.Written

/-!
# What stays below the output

A file of the output goes where its path leads from the output directory. What was read from
a directory goes below the output directory, and so do the support classes, so a run that
writes a directory touches no file outside of it. A class file that stands alone goes
wherever the name leads that the class gives itself, and that may be outside
(`Output.stays_below`).
-/

namespace NullGuard

namespace Output

/-- A file goes where its path leads from the output directory. -/
theorem destination_target (current : Location) (directory : String) (file : OutputFile) :
    Path.destination current (target directory file) =
      Path.follow (Path.destination current directory) (Path.pieces file.path) :=
  Path.destination_joinAll current directory _ (Path.isPiece_of_mem_pieces file.path)

/-- A file whose path ends in a name and does not lead out goes below the output directory. -/
theorem isBelow_target (current : Location) (directory : String) (file : OutputFile)
    (ends : Path.EndsInName file.path) (inside : Path.climbs file.path = false) :
    Location.IsBelow (Path.destination current (target directory file))
      (Path.destination current directory) := by
  obtain ⟨front, last, split, named⟩ := ends
  rw [Path.climbs, split] at inside
  rw [destination_target, split]
  exact Path.isBelow_follow _ front last named inside

/-- The paths of the support classes lead nowhere but down. -/
theorem climbs_names : ∀ name ∈ SupportClass.names, Path.climbs (name ++ classEnding) = false := by
  decide +kernel

/-- Each file of the output has the path of a file of the input or that of a support class. -/
theorem path_of_mem_files (inputs : Inputs) (woven : EngineOutput) (mode : SupportMode)
    (support : List SupportClass) (missing : Missing inputs mode support) :
    ∀ file ∈ files inputs woven support,
      (∃ entry ∈ inputs.entries, file.path = entry.path) ∨
        ∃ name ∈ SupportClass.names, file.path = name ++ classEnding := by
  intro file member
  rcases List.mem_append.1 member with here | added
  · have path := List.mem_map_of_mem (f := OutputFile.path) here
    rw [paths_copied] at path
    obtain ⟨entry, inside, same⟩ := List.mem_map.1 path
    exact .inl ⟨entry, inside, same.symm⟩
  · obtain ⟨item, inside, rfl⟩ := List.mem_map.1 added
    exact .inr ⟨item.name, missing.sublist.subset (List.mem_map_of_mem inside), rfl⟩

/-- The files of the input are among those of the output. -/
theorem exists_file_of_path (inputs : Inputs) (woven : EngineOutput)
    (support : List SupportClass) (path : String)
    (known : path ∈ inputs.entries.map InputEntry.path) :
    ∃ file ∈ files inputs woven support, file.path = path := by
  rw [← paths_copied inputs woven] at known
  obtain ⟨file, member, same⟩ := List.mem_map.1 known
  exact ⟨file, List.mem_append_left _ member, same⟩

/-- Unless the input is a class file whose name leads out, all files go below the output
directory. -/
theorem isBelow_files [ArchiveLibrary] {tree : FileTree} {path : String}
    (proper : tree.root.IsProper) (inputs : Inputs)
    (found : Scan.Finds tree path inputs.layout inputs.entries)
    (form : inputs.layout ≠ .jar) (stays : ¬ Scan.LeadsOut tree path inputs.layout)
    (woven : EngineOutput) {mode : SupportMode} {support : List SupportClass}
    (missing : Missing inputs mode support) (current : Location) (output : String) :
    ∀ file ∈ files inputs woven support,
      Location.IsBelow (Path.destination current (target output file))
        (Path.destination current output) := by
  intro file member
  rcases path_of_mem_files _ _ _ _ missing file member with
    ⟨entry, inside, same⟩ | ⟨name, supports, same⟩
  · refine isBelow_target _ _ file (same ▸ found.endsInName proper form entry inside) ?_
    rw [← Bool.not_eq_true, same]
    exact fun out => stays ((found.leadsOut_iff proper form).2 ⟨entry, inside, out⟩)
  · exact isBelow_target _ _ file (same ▸ Path.endsInName_class name)
      (same ▸ climbs_names name supports)

/-- Where the output goes if the input is no jar, whatever is on the class path, whatever has
become of the classes and whatever path the output has. Unless the input is a class file whose
name leads out of a directory, each file goes below the output directory, and whether or not
the output can be written, no file elsewhere appears, changes or disappears. A class file
whose name leads out goes elsewhere for some output directory. -/
theorem stays_below [ArchiveLibrary] (tree : FileTree) (proper : tree.root.IsProper)
    (path output : String) (inputs : Inputs)
    (scanned : Scan.input tree path = .ok (inputs.layout, inputs.entries))
    (form : inputs.layout ≠ .jar) (woven : EngineOutput) (mode : SupportMode) :
    ∃ support, missingSupport inputs mode = .ok support ∧
      (¬ Scan.LeadsOut tree path inputs.layout →
        (∀ file ∈ files inputs woven support,
          Location.IsBelow (tree.destination (target output file)) (tree.destination output)) ∧
        ∀ location, ¬ location.IsBelow (tree.destination output) → ∀ bytes,
          (write inputs woven mode output tree).2.node? location = some (.file bytes) ↔
            tree.node? location = some (.file bytes)) ∧
      (Scan.LeadsOut tree path inputs.layout →
        ∃ file ∈ files inputs woven support, ∃ other,
          ¬ Location.IsBelow (tree.destination (target other file)) (tree.destination other)) := by
  obtain ⟨support, known, missing⟩ := exists_missing inputs mode
  have found := Scan.finds_of_input _ _ scanned
  refine ⟨support, known, ?_, ?_⟩
  · intro stays
    have below := isBelow_files proper inputs found form stays woven missing tree.current output
    refine ⟨below, fun location outside bytes => ?_⟩
    refine (touches_output _ _ _ _ support known tree).files location (fun member => ?_) bytes
    obtain ⟨file, written, rfl⟩ := exists_of_mem_targets form member
    exact outside (below file written)
  · intro out
    obtain ⟨entry, inside, climbs⟩ := (found.leadsOut_iff proper form).1 out
    obtain ⟨file, member, same⟩ :=
      exists_file_of_path inputs woven support entry.path (List.mem_map_of_mem inside)
    refine ⟨file, member, ?_⟩
    by_contra stays
    push Not at stays
    have never : Path.climbs file.path = false := by
      refine (Path.climbs_eq_false_iff tree.current file.path).2 fun other => ?_
      obtain ⟨names, -, ends⟩ := stays other
      exact ⟨names, ends.symm.trans (destination_target ..)⟩
    rw [same, climbs] at never
    cases never

/-- An ordinary name leads out of no directory. -/
theorem not_leadsOut_fieldClass (layout : InputLayout) :
    ¬ Scan.LeadsOut (Run.smallTree "A.class" (.file Dispatcher.fieldClass)) "A.class" layout := by
  rintro ⟨-, bytes, name, read, named, out⟩
  have known : ((Run.smallTree "A.class" (.file Dispatcher.fieldClass)).readFile "A.class" >>=
      ClassFile.peekName).toOption = some "r/A" := by decide
  rw [(Outcome.bind_eq_ok ..).2 ⟨bytes, read, named⟩] at known
  obtain rfl := Option.some.inj known
  have inside : Path.climbs ("r/A" ++ classEnding) = false := by decide
  rw [inside] at out
  cases out

attribute [local instance] Archive.uncompressed in
/-- A class file that calls itself by an ordinary name goes below the output directory. -/
theorem stays_below_fieldClass : ∃ prepared file,
    (Run.smallTree "A.class" (.file Dispatcher.fieldClass)).root.IsProper ∧
      Run.prepare (Run.smallOptions "A.class" "out")
        (Run.smallTree "A.class" (.file Dispatcher.fieldClass)) = .ok prepared ∧
      prepared.inputs.layout ≠ .jar ∧
      ¬ Scan.LeadsOut (Run.smallTree "A.class" (.file Dispatcher.fieldClass)) "A.class"
        prepared.inputs.layout ∧
      file ∈ files prepared.inputs prepared.woven [] ∧ file.path = "r/A.class" ∧
      Location.IsBelow ((Run.smallTree "A.class" (.file Dispatcher.fieldClass)).destination
        (target "out" file)) ["out"] := by
  obtain ⟨prepared, ran, form, paths⟩ := Run.exists_prepared
    (Run.smallOptions "A.class" "out") (Run.smallTree "A.class" (.file Dispatcher.fieldClass))
    .classFile ["r/A.class"] (by decide +kernel)
  have proper := Run.isProper_smallTree "A.class" (.file Dispatcher.fieldClass)
    ⟨by decide, by decide, by decide⟩ (.file _)
  have noJar : prepared.inputs.layout ≠ .jar := by
    rw [form]
    decide
  have stays := not_leadsOut_fieldClass prepared.inputs.layout
  obtain ⟨file, member, path⟩ := exists_file_of_path prepared.inputs prepared.woven []
    "r/A.class" (by rw [paths]; decide)
  obtain ⟨index, ready⟩ := (Run.prepare_eq_ok ..).1 ran
  obtain ⟨support, known, below, -⟩ := stays_below
    (Run.smallTree "A.class" (.file Dispatcher.fieldClass)) proper "A.class" "out" prepared.inputs
    (Scan.input_of_inputs _ ready.scanned) noJar prepared.woven .external
  obtain rfl := Except.ok.inj known
  have place : (Run.smallTree "A.class" (.file Dispatcher.fieldClass)).destination "out" =
      ["out"] := by decide
  rw [← place]
  exact ⟨prepared, file, proper, ran, noJar, stays, member, path, (below stays).1 file member⟩

/-- A class that calls itself by a name with two dots in front. -/
def strayClass : List UInt8 :=
  Written.u32 ClassFile.magic ++ [0, 0, 0, 49, 0, 5] ++
    holderText "../B" ++ [7, 0, 1] ++ holderText "java/lang/Object" ++ [7, 0, 3] ++
    [0, 0x21, 0, 2, 0, 4, 0, 0, 0, 0, 0, 0, 0, 0]

/-- Such a class is written beside the output directory, where there was no file. -/
theorem leaves_output_strayClass : ∃ result after,
    run (Run.smallOptions "A.class" "out") (Run.smallTree "A.class" (.file strayClass)) =
        (.ok result, after) ∧
      (Run.smallTree "A.class" (.file strayClass)).node? ["B.class"] = none ∧
      after.node? ["B.class"] = some (.file strayClass) ∧
      ¬ Location.IsBelow ["B.class"]
        ((Run.smallTree "A.class" (.file strayClass)).destination "out") := by
  obtain ⟨result, after, ran, written⟩ := Run.exists_result
    (Run.smallOptions "A.class" "out") (Run.smallTree "A.class" (.file strayClass))
    (fun tree => tree.node? ["B.class"]) (some (.file strayClass)) (by decide +kernel)
  have place : (Run.smallTree "A.class" (.file strayClass)).destination "out" = ["out"] := by
    decide
  refine ⟨result, after, ran, by decide, written, ?_⟩
  rw [place]
  rintro ⟨names, -, same⟩
  have first := (List.cons.inj same).1
  revert first
  decide

end Output

end NullGuard
