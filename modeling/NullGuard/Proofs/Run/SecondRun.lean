import NullGuard.Proofs.Run.Output

/-!
# Weaving an output

The output of a run may be the input of another one. Classes keep their names, since
names follow from paths, and the classes that stand for packages keep their bytes, since
they are never rewritten. So each class gets the verdicts that it got before: what was
woven is recognised, and what was left alone is left alone again. The support classes
are outside the root and are no longer missing.
-/

namespace NullGuard

/-! ## Markers and outcomes -/

namespace Dispatcher

/-- Only the classes that stand for packages are looked up. -/
theorem outcomeAlone_congr (scope : RootScope) {lookup other : ClassLookup}
    (agree : ∀ package, lookup (packageMarkerClass package) = other (packageMarkerClass package))
    (name : String) (bytes : List UInt8) :
    outcomeAlone scope lookup name bytes = outcomeAlone scope other name bytes := by
  have same : packageMarkers lookup = packageMarkers other := by
    funext package
    rw [packageMarkers, packageMarkers, agree package]
  rw [outcomeAlone, outcomeAlone, same]

/-- The class of a package is named like one. -/
theorem endsWith_packageMarkerClass (package : String) :
    Text.endsWith (packageMarkerClass package) packageMarkerName = true :=
  (Text.endsWith_iff ..).2 ⟨package ++ "/", rfl⟩

section

variable {scope : RootScope} {lookup : ClassLookup} {name : String} {bytes : List UInt8}

variable {woven : WovenClass}
variable (rewritten : outcomeAlone scope lookup name bytes = .ok (.rewritten woven))
include rewritten

/-- A class that was rewritten does not stand for a package. -/
theorem isClass_of_rewritten : Text.endsWith name packageMarkerName = false := by
  have sound : Sound ⟨some scope, .empty⟩ scope lookup := ⟨rfl, PackageCache.sound_empty _⟩
  rw [← sound.result] at rewritten
  exact (runs_of_rewritten _ lookup woven rewritten).1

/-- A class that was rewritten is left alone from then on. -/
theorem outcomeAlone_rewritten (other : ClassLookup) :
    ∃ reason, outcomeAlone scope other name woven.bytes = .ok (.unchanged reason) := by
  have sound : Sound ⟨some scope, .empty⟩ scope lookup := ⟨rfl, PackageCache.sound_empty _⟩
  rw [← sound.result] at rewritten
  obtain ⟨-, within, later, ran⟩ := runs_of_rewritten _ lookup woven rewritten
  obtain ⟨file, model, policy, grown, parsed, named, grew, wrote⟩ :=
    of_rewritten within lookup _ later woven ran
  obtain ⟨parsedAgain, -, marked⟩ :=
    parse_of_weave bytes woven.bytes file grown model policy woven.statistics name parsed named
      grew wrote
  have again := examined_of_woven name woven.bytes grown parsedAgain marked
  rw [outcomeAlone, outcomeBy, wovenBy, again]
  split
  · exact ⟨_, rfl⟩
  · split
    · exact ⟨_, rfl⟩
    · exact ⟨_, rfl⟩

end

end Dispatcher

/-! ## Classes of an output -/

/-- The input that some files make, each under the class that its path gives. -/
def Inputs.ofFiles (layout : InputLayout) (files : List OutputFile)
    (classpath : List ClasspathClass) : Inputs :=
  ⟨layout, files.map fun file => .ofFile file.path file.bytes, classpath⟩

/-- The bytes of a class of the input by its name. -/
theorem Inputs.lookup_classes (inputs : Inputs) (distinct : (inputs.classes.map Prod.fst).Nodup)
    (name : String) (bytes : List UInt8) :
    (inputs.classes.map fun item => (item.1, item.2.bytes)).lookup name = some bytes ↔
      ∃ entry ∈ inputs.entries, entry.className = some name ∧ entry.bytes = bytes := by
  rw [lookup_eq_some_iff_mem (by rwa [List.map_map]), List.mem_map]
  constructor
  · rintro ⟨⟨other, entry⟩, member, same⟩
    obtain ⟨rfl, rfl⟩ := Prod.mk.inj same
    obtain ⟨inside, named⟩ := (inputs.mem_classes ..).1 member
    exact ⟨entry, inside, named, rfl⟩
  · rintro ⟨entry, inside, named, rfl⟩
    exact ⟨(name, entry), (inputs.mem_classes ..).2 ⟨inside, named⟩, rfl⟩

/-- No support class stands for a package. -/
theorem SupportClass.isClass_names :
    ∀ name ∈ names, Text.endsWith name Dispatcher.packageMarkerName = false := by
  decide

/-- Files with different paths make an input whose classes have different names. -/
theorem Inputs.nodup_classes_ofFiles (layout : InputLayout) (files : List OutputFile)
    (classpath : List ClasspathClass) (distinct : (files.map OutputFile.path).Nodup) :
    ((ofFiles layout files classpath).classes.map Prod.fst).Nodup := by
  refine nodup_classes _ (by rwa [ofFiles, List.map_map]) ?_
  intro entry inside
  obtain ⟨file, -, rfl⟩ := List.mem_map.1 inside
  rfl

namespace Output

/-- What has become of a file of the input whose classes each come to what they come to
alone: it has its own bytes or those of the woven class. -/
inductive Became (scope : RootScope) (lookup : ClassLookup) (entry : InputEntry) :
    List UInt8 → Prop
  | rewritten (name : String) (woven : WovenClass) (named : entry.className = some name)
    (alone : Dispatcher.outcomeAlone scope lookup name entry.bytes = .ok (.rewritten woven)) :
    Became scope lookup entry woven.bytes
  | unchanged (kept : ∀ name, entry.className = some name → ∃ reason,
      Dispatcher.outcomeAlone scope lookup name entry.bytes = .ok (.unchanged reason)) :
    Became scope lookup entry entry.bytes

/-- A file that stands for a package stays as it is. -/
theorem Became.bytes_of_marker {scope : RootScope} {lookup : ClassLookup} {entry : InputEntry}
    {bytes : List UInt8} (became : Became scope lookup entry bytes) {package : String}
    (marker : entry.className = some (Dispatcher.packageMarkerClass package)) :
    bytes = entry.bytes := by
  cases became with
  | unchanged kept => rfl
  | rewritten name woven named alone =>
    have isClass := Dispatcher.isClass_of_rewritten alone
    rw [Option.some.inj (named.symm.trans marker),
      Dispatcher.endsWith_packageMarkerClass] at isClass
    cases isClass

section

variable {scope : RootScope} {lookup : ClassLookup} {inputs : Inputs}
variable {results : List ClassResult}
variable (each : List.Forall₂ (fun item result => Engine.resultAlone scope lookup item = .ok result)
  (Engine.classesOf inputs.entries) results)
include each

/-- Every file of the input is in the output, with what has become of it. -/
theorem became_each : List.Forall₂
    (fun entry file => file.path = entry.path ∧ Became scope lookup entry file.bytes)
    inputs.entries (copied inputs (.ofClasses results)) := by
  have distinct : ((EngineOutput.ofClasses results).classes.map ClassResult.entry).Nodup := by
    rw [List.Nodup, List.pairwise_map]
    exact (Engine.pairwise_results each).imp Nat.ne_of_lt
  obtain ⟨sameLength, copies⟩ :=
    List.forall₂_iff_zip.1 (copied_each inputs (.ofClasses results) distinct)
  rw [← List.zipIdx_map_fst 0 inputs.entries, List.forall₂_map_left_iff, List.forall₂_iff_zip]
  refine ⟨sameLength, ?_⟩
  rintro ⟨entry, position⟩ file member
  have here := List.mem_zipIdx_iff_getElem?.1 (List.of_mem_zip member).1
  have copy := copies member
  refine ⟨copy.path, ?_⟩
  -- A file gives way to the result at its own position, and only if that is a woven class.
  by_cases found : ∃ result ∈ results, result.entry = position ∧
      ∃ woven, result.outcome = .rewritten woven
  · obtain ⟨result, inside, rfl, woven, rewritten⟩ := found
    obtain ⟨other, there, named, alone⟩ := Engine.exists_entry each result inside
    cases here.symm.trans there
    rw [copy.rewritten result inside rfl woven rewritten]
    rw [rewritten] at alone
    exact .rewritten result.name woven named alone
  · have unwoven (result : ClassResult) (inside : result ∈ results)
        (same : result.entry = position) : ∃ reason, result.outcome = .unchanged reason := by
      cases outcome : result.outcome with
      | unchanged reason => exact ⟨reason, rfl⟩
      | rewritten woven => exact (found ⟨result, inside, same, woven, outcome⟩).elim
    have own : file.bytes = entry.bytes := by
      refine copy.unchanged fun result inside same => ?_
      obtain ⟨reason, outcome⟩ := unwoven result inside same
      rw [outcome]
      rfl
    rw [own]
    refine .unchanged fun name named => ?_
    obtain ⟨outcome, inside⟩ := Engine.exists_result each position entry name here named
    obtain ⟨other, there, -, alone⟩ := Engine.exists_entry each _ inside
    cases here.symm.trans there
    obtain ⟨reason, rfl⟩ := unwoven _ inside rfl
    exact ⟨reason, alone⟩

end

/-- What the second input has to do with the first one: it has the same class path, every
file of the first input is in it with what has become of it, and what else there is are
support classes. -/
structure Follows (scope : RootScope) (lookup : ClassLookup) (inputs again : Inputs) : Prop where
  classpath : again.classpath = inputs.classpath
  stays : ∀ before ∈ inputs.entries, ∃ entry ∈ again.entries,
    entry.className = before.className ∧ Became scope lookup before entry.bytes
  origin : ∀ entry ∈ again.entries,
    (∃ before ∈ inputs.entries, entry.className = before.className ∧
      Became scope lookup before entry.bytes) ∨
    ∃ name ∈ SupportClass.names, entry.className = some name

namespace Follows

variable {scope : RootScope} {lookup : ClassLookup} {inputs again : Inputs}
variable (follows : Follows scope lookup inputs again)
include follows

/-- The class that stands for a package is found as before. -/
theorem answer_marker (distinct : (inputs.classes.map Prod.fst).Nodup)
    (distinctAgain : (again.classes.map Prod.fst).Nodup) (package : String) :
    ClassIndex.answer again (Dispatcher.packageMarkerClass package) =
      ClassIndex.answer inputs (Dispatcher.packageMarkerClass package) := by
  rw [ClassIndex.answer, ClassIndex.answer, follows.classpath]
  congr 1
  ext bytes
  rw [again.lookup_classes distinctAgain, inputs.lookup_classes distinct]
  constructor
  · rintro ⟨entry, inside, named, rfl⟩
    obtain ⟨before, was, same, became⟩ | ⟨name, support, called⟩ := follows.origin entry inside
    · rw [same] at named
      exact ⟨before, was, named, (became.bytes_of_marker named).symm⟩
    · have isClass := SupportClass.isClass_names name support
      rw [Option.some.inj (called.symm.trans named),
        Dispatcher.endsWith_packageMarkerClass] at isClass
      cases isClass
  · rintro ⟨before, was, named, rfl⟩
    obtain ⟨entry, inside, same, became⟩ := follows.stays before was
    exact ⟨entry, inside, same.trans named, became.bytes_of_marker named⟩

/-- No class of the second input is rewritten. -/
theorem unchanged (outside : ∀ name ∈ SupportClass.names, scope.contains name = false)
    {lookupAgain : ClassLookup}
    (agree : ∀ package, lookupAgain (Dispatcher.packageMarkerClass package) =
      lookup (Dispatcher.packageMarkerClass package))
    (entry : InputEntry) (inside : entry ∈ again.entries) (name : String)
    (named : entry.className = some name) :
    ∃ reason, Dispatcher.outcomeAlone scope lookupAgain name entry.bytes =
      .ok (.unchanged reason) := by
  obtain ⟨before, -, same, became⟩ | ⟨support, member, called⟩ := follows.origin entry inside
  · rw [same] at named
    generalize entry.bytes = bytes at became
    cases became with
    | rewritten other woven called alone =>
      cases called.symm.trans named
      exact Dispatcher.outcomeAlone_rewritten alone lookupAgain
    | unchanged kept =>
      rw [Dispatcher.outcomeAlone_congr scope agree]
      exact kept name named
  · cases called.symm.trans named
    exact ⟨.outOfScope, Dispatcher.outcomeAlone_outside (outside name member)⟩

end Follows

/-- No file is replaced exactly if no class has been rewritten. -/
theorem rewritten_eq_nil (woven : EngineOutput) :
    woven.rewritten = [] ↔ ∀ result ∈ woven.classes, result.outcome.woven? = none := by
  simp [EngineOutput.rewritten, List.filterMap_eq_nil_iff]

/-- Without woven classes the files of the output are those of the input. -/
theorem copied_of_unchanged (inputs : Inputs) (woven : EngineOutput)
    (nothing : woven.rewritten = []) :
    copied inputs woven = inputs.entries.map fun entry => ⟨entry.path, entry.bytes⟩ := by
  rw [copied, nothing, ← List.zipIdx_map_fst 0 inputs.entries, List.map_map, List.zipIdx_map_fst]
  rfl

section

variable {scope : RootScope} {lookup : ClassLookup} {inputs : Inputs} {mode : SupportMode}
variable {results : List ClassResult} {support : List SupportClass}
variable (each : List.Forall₂ (fun item result => Engine.resultAlone scope lookup item = .ok result)
  (Engine.classesOf inputs.entries) results)
variable (named : ∀ entry ∈ inputs.entries, entry.className = weavableName entry.path)
variable (missing : Missing inputs mode support)
include each named missing

/-- The output as an input. -/
theorem follows_ofFiles (layout : InputLayout) :
    Follows scope lookup inputs
      (.ofFiles layout (files inputs (.ofClasses results) support) inputs.classpath) := by
  have became := became_each each
  refine ⟨rfl, ?_, ?_⟩
  · intro before was
    obtain ⟨file, member, path, became⟩ := Outcome.exists_of_forall₂ became.flip before was
    refine ⟨.ofFile file.path file.bytes, ?_, ?_, became⟩
    · exact List.mem_map_of_mem (List.mem_append_left _ member)
    · rw [named before was, ← path]
      rfl
  · intro entry inside
    obtain ⟨file, member, rfl⟩ := List.mem_map.1 inside
    rcases List.mem_append.1 member with member | member
    · obtain ⟨before, was, path, became⟩ := Outcome.exists_of_forall₂ became file member
      refine .inl ⟨before, was, ?_, became⟩
      rw [named before was, ← path]
      rfl
    · obtain ⟨item, written, rfl⟩ := List.mem_map.1 member
      have known := missing.sublist.subset (List.mem_map_of_mem written)
      exact .inr ⟨item.name, known, SupportClass.weavableName_names item.name known⟩

/-- Nothing is missing in the output. -/
theorem missingSupport_ofFiles (layout : InputLayout) :
    missingSupport (.ofFiles layout (files inputs (.ofClasses results) support) inputs.classpath)
      mode = .ok [] := by
  have follows := follows_ofFiles each named missing layout
  obtain ⟨others, known, missingAgain⟩ := exists_missing
    (.ofFiles layout (files inputs (.ofClasses results) support) inputs.classpath) mode
  rw [known]
  cases mode with
  | external => exact congrArg Except.ok missingAgain
  | emit =>
    obtain ⟨classes, written, rfl⟩ := id missing
    obtain ⟨same, writtenToo, rfl⟩ := missingAgain
    obtain rfl := Except.ok.inj (written.symm.trans writtenToo)
    refine congrArg Except.ok (List.filter_eq_nil_iff.2 fun item member => ?_)
    rw [decide_eq_true_iff]
    intro absent
    by_cases before : ∀ entry ∈ inputs.entries, entry.className ≠ some item.name
    · have added : item ∈ classes.filter fun item =>
          decide (∀ entry ∈ inputs.entries, entry.className ≠ some item.name) :=
        List.mem_filter.2 ⟨member, decide_eq_true before⟩
      have supports := missing.sublist.subset (List.mem_map_of_mem added)
      refine absent (.ofFile (item.name ++ classEnding) item.bytes) ?_
        (SupportClass.weavableName_names item.name supports)
      exact List.mem_map_of_mem (f := fun file => InputEntry.ofFile file.path file.bytes)
        (List.mem_append_right _ (List.mem_map_of_mem (f := ofSupport) added))
    · push Not at before
      obtain ⟨entry, inside, called⟩ := before
      obtain ⟨later, there, same, -⟩ := follows.stays entry inside
      exact absent later there (same.trans called)

end

/-! ## Runs one after the other -/

/-- What comes of an input: a new engine weaves its classes, which are looked up in the
input and on its class path, and some support classes are missing. -/
structure Makes (root : String) (mode : SupportMode) (inputs : Inputs) (woven : EngineOutput)
    (support : List SupportClass) : Prop where
  woven : ∃ engine index, Engine.create root = .ok engine ∧
    ClassIndex.ofInputs inputs = .ok index ∧
    engine.weave inputs.entries index.lookup = .ok woven
  support : missingSupport inputs mode = .ok support

/-- Something comes of every input whose classes have different names. -/
theorem exists_makes {root : String} {scope : RootScope}
    (parsed : RootScope.parse root = .ok scope) (mode : SupportMode) (inputs : Inputs)
    (distinct : (inputs.classes.map Prod.fst).Nodup) :
    ∃ lookup results support, (∀ name, lookup name = .ok (ClassIndex.answer inputs name)) ∧
      List.Forall₂ (fun item result => Engine.resultAlone scope lookup item = .ok result)
        (Engine.classesOf inputs.entries) results ∧
      Missing inputs mode support ∧ Makes root mode inputs (.ofClasses results) support := by
  obtain ⟨index, indexed, found⟩ := ClassIndex.exists_index inputs distinct
  obtain ⟨support, known, missing⟩ := exists_missing inputs mode
  have created := Engine.create_of_parse parsed
  have sound : (⟨⟨some scope, .empty⟩⟩ : Engine).dispatcher.Sound scope index.lookup :=
    ⟨rfl, PackageCache.sound_empty _⟩
  have (sought : String) : Ordinary (index.lookup sought) := ⟨fun _ failed => nomatch failed⟩
  obtain ⟨woven, ran⟩ := Engine.exists_output sound inputs.entries
  obtain ⟨results, each, rfl⟩ := (Engine.weave_eq_ok sound ..).1 ran
  exact ⟨index.lookup, results, support, fun name => congrArg Except.ok (found name), each, missing,
    ⟨_, index, created, indexed, ran⟩, known⟩

/-- Weaving an output changes nothing. If the files of an input have different paths, the
classes are named after them, and the support classes are outside the root, then its
output is made, and when that is woven in turn, no class is rewritten, no support class is
missing, and the same files are written. -/
theorem weave_again [ArchiveLibrary] (root : String) (scope : RootScope)
    (parsed : RootScope.parse root = .ok scope)
    (outside : ∀ name ∈ SupportClass.names, scope.contains name = false) (inputs : Inputs)
    (distinct : (inputs.entries.map InputEntry.path).Nodup)
    (named : ∀ entry ∈ inputs.entries, entry.className = weavableName entry.path)
    (mode : SupportMode) :
    ∃ woven support, Makes root mode inputs woven support ∧
      (∀ output, write inputs woven mode output = (do
        place inputs.layout output (files inputs woven support)
        return ⟨(files inputs woven support).length, woven.rewritten.length, support.length⟩)) ∧
      ∀ layout again, again = .ofFiles layout (files inputs woven support) inputs.classpath →
        ∃ wovenAgain, Makes root mode again wovenAgain [] ∧
          (∀ result ∈ wovenAgain.classes, ∃ reason, result.outcome = .unchanged reason) ∧
          files again wovenAgain [] = files inputs woven support ∧
          ∀ output, write again wovenAgain mode output = (do
            place layout output (files inputs woven support)
            return ⟨(files inputs woven support).length, 0, 0⟩) := by
  have distinctNames := inputs.nodup_classes distinct named
  obtain ⟨lookup, results, support, found, each, missing, makes⟩ :=
    exists_makes parsed mode inputs distinctNames
  refine ⟨_, support, makes, fun output => write_eq _ _ _ output _ makes.support, ?_⟩
  rintro layout again rfl
  have follows := follows_ofFiles each named missing layout
  have paths := missing.nodup_paths (.ofClasses results) distinct fun entry inside =>
    .inl (named entry inside)
  have distinctAgain := Inputs.nodup_classes_ofFiles layout _ inputs.classpath paths
  obtain ⟨lookupAgain, resultsAgain, added, foundAgain, eachAgain, -, makesAgain⟩ :=
    exists_makes parsed mode _ distinctAgain
  have known := missingSupport_ofFiles each named missing layout
  obtain rfl := Except.ok.inj (makesAgain.support.symm.trans known)
  -- The files of the output answer for the package markers as those of the input do.
  have agree (package : String) : lookupAgain (Dispatcher.packageMarkerClass package) =
      lookup (Dispatcher.packageMarkerClass package) := by
    rw [found, foundAgain, follows.answer_marker distinctNames distinctAgain]
  have unchanged (result : ClassResult) (member : result ∈ resultsAgain) :
      ∃ reason, result.outcome = .unchanged reason := by
    obtain ⟨entry, here, called, alone⟩ := Engine.exists_entry eachAgain result member
    obtain ⟨reason, kept⟩ := follows.unchanged outside agree entry (List.mem_of_getElem? here)
      result.name called
    exact ⟨reason, Except.ok.inj (alone.symm.trans kept)⟩
  have unwoven (result : ClassResult) (member : result ∈ resultsAgain) :
      result.outcome.woven? = none := by
    obtain ⟨reason, outcome⟩ := unchanged result member
    rw [outcome]
    rfl
  have nothing : (EngineOutput.ofClasses resultsAgain).rewritten = [] :=
    (rewritten_eq_nil _).2 unwoven
  have same : files (.ofFiles layout (files inputs (.ofClasses results) support) inputs.classpath)
      (.ofClasses resultsAgain) [] = files inputs (.ofClasses results) support := by
    rw [files, copied_of_unchanged _ _ nothing, List.map_nil, List.append_nil, Inputs.ofFiles,
      List.map_map]
    exact List.map_id _
  refine ⟨_, makesAgain, unchanged, same, fun output => ?_⟩
  rw [write_eq _ _ _ output _ makesAgain.support, same, nothing]
  rfl

/-- A file that is no class, a class, and the class of its package, which forbids null. -/
def packageFiles : List OutputFile :=
  [⟨"readme", []⟩, ⟨"r/A.class", Dispatcher.fieldClass⟩,
    ⟨"r/package-info.class", Dispatcher.packageClass⟩]

attribute [local instance] Archive.uncompressed in
/-- The files are woven with all support classes; weaving the result once more writes the
same files. -/
theorem weave_again_packageFiles :
    RootScope.parse "r" = .ok ⟨"r"⟩ ∧
      (∀ name ∈ SupportClass.names, RootScope.contains ⟨"r"⟩ name = false) ∧
      ((Inputs.ofFiles .jar packageFiles []).entries.map InputEntry.path).Nodup ∧
      (∀ entry ∈ (Inputs.ofFiles .jar packageFiles []).entries,
        entry.className = weavableName entry.path) ∧
      ∃ woven support, Makes "r" .emit (.ofFiles .jar packageFiles []) woven support ∧
        ∀ layout again,
          again = .ofFiles layout (files (.ofFiles .jar packageFiles []) woven support) [] →
          ∃ wovenAgain, Makes "r" .emit again wovenAgain [] ∧
            (∀ result ∈ wovenAgain.classes, ∃ reason, result.outcome = .unchanged reason) ∧
            files again wovenAgain [] = files (.ofFiles .jar packageFiles []) woven support := by
  have parsed : RootScope.parse "r" = .ok ⟨"r"⟩ := by decide
  have outside : ∀ name ∈ SupportClass.names, RootScope.contains ⟨"r"⟩ name = false := by
    decide
  have distinct : ((Inputs.ofFiles .jar packageFiles []).entries.map InputEntry.path).Nodup := by
    decide
  have named : ∀ entry ∈ (Inputs.ofFiles .jar packageFiles []).entries,
      entry.className = weavableName entry.path := by
    decide
  obtain ⟨woven, support, makes, -, again⟩ :=
    weave_again "r" ⟨"r"⟩ parsed outside (.ofFiles .jar packageFiles []) distinct named .emit
  refine ⟨parsed, outside, distinct, named, woven, support, makes, fun layout second same => ?_⟩
  obtain ⟨wovenAgain, makesAgain, unchanged, written, -⟩ := again layout second same
  exact ⟨wovenAgain, makesAgain, unchanged, written⟩

end Output

end NullGuard
