import NullGuard.Run.Engine
import NullGuard.Text.Json

/-!
# Reports

A report tells what a run did: how many classes there were, what was written,
and for each class what became of it and how many guards it got.
-/

namespace NullGuard

/-- Where woven code finds the support classes when it runs. -/
inductive SupportMode
  /-- They are written beside the woven classes. -/
  | emit
  /-- They are provided by someone else. -/
  | external
  deriving DecidableEq, Repr

namespace SupportMode

/-- The word for the mode on the command line and in reports. -/
def label : SupportMode → String
  | .emit => "emit"
  | .external => "external"

/-- The mode that a word names. -/
def ofLabel? (word : String) : Option SupportMode :=
  [emit, external].find? fun mode => mode.label == word

end SupportMode

/-- How many files were written. -/
structure OutputSummary where
  entries : Nat
  rewritten : Nat
  supportClasses : Nat
  deriving DecidableEq, Repr

/-- What a report tells besides what became of the classes. -/
structure ReportContext where
  root : String
  mode : SupportMode
  traceId : Option String
  classpathClasses : Nat
  deriving DecidableEq, Repr

/-- What a run did. -/
structure Report where
  context : ReportContext
  woven : EngineOutput
  summary : OutputSummary
  deriving DecidableEq, Repr

namespace Report

/-- The name by which the program calls itself in a report. -/
def toolName : String := "nullcheck-weaver"

/-- The version that stands beside the name. -/
def toolVersion : String := "0.1.0"

/-- Counts by name. -/
def statistics (counts : Statistics) : Json :=
  .object [("arguments", .number counts.arguments), ("results", .number counts.results),
    ("field_reads", .number counts.fieldReads), ("field_writes", .number counts.fieldWrites),
    ("constructor_exits", .number counts.constructorExits),
    ("static_initializer_exits", .number counts.staticInitializerExits),
    ("rewritten_methods", .number counts.rewrittenMethods),
    ("synthesized_methods", .number counts.synthesizedMethods)]

/-- A member of an object that is left out when there is nothing to tell. -/
def optional (name : String) (value : Option Json) : List (String × Json) :=
  (value.map fun value => (name, value)).toList

/-- What became of a class. -/
def classResult (result : ClassResult) : Json :=
  match result.outcome with
  | .rewritten woven =>
    .object [("name", .text result.name), ("status", .text "rewritten"),
      ("guards", statistics woven.statistics)]
  | .unchanged reason =>
    .object ([("name", .text result.name), ("status", .text reason.label)] ++
      optional "detail" (reason.detail?.map Json.text))

/-- The report as a value. -/
def toJson (report : Report) : Json :=
  .object (
    [("tool", .object [("name", .text toolName), ("version", .text toolVersion)]),
      ("root_package", .text report.context.root),
      ("runtime", .text report.context.mode.label)] ++
    optional "trace_id" (report.context.traceId.map Json.text) ++
    [("class_count", .number report.woven.classes.length),
      ("rewritten_count", .number report.woven.rewritten.length),
      ("classpath_class_count", .number report.context.classpathClasses),
      ("output", .object [("entries", .number report.summary.entries),
        ("rewritten", .number report.summary.rewritten),
        ("runtime_classes", .number report.summary.supportClasses)]),
      ("totals", statistics report.woven.totals),
      ("classes", .list (report.woven.classes.map classResult))])

/-- The report as a text that ends its last line. -/
def text (report : Report) : String := report.toJson.pretty ++ "\n"

end Report

end NullGuard
