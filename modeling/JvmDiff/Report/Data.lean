import JvmDiff.Json.Printer
import JvmDiff.Json.Reader
import JvmDiff.Report.Basic

/-!
# Reports as data

The JSON form of changes and reports, written and read.  Reading takes a record as an object
with each field once, or as an array of exactly the fields; unknown fields of an object do not
count.
-/

namespace JvmDiff

namespace Argument

def toJson : Argument → Json
  | .null => .null
  | .number value => .integer value.toInt
  | .text value => .text value

/-- The argument that a JSON value is; integers have to fit into 64 bits. -/
def ofJson? : Json → Option Argument
  | .null => some .null
  | .integer value =>
      if Int64.minValue.toInt ≤ value ∧ value ≤ Int64.maxValue.toInt then
        some (.number (Int64.ofInt value))
      else
        none
  | .string (some value) => some (.text value)
  | _ => none

end Argument

namespace Change

def toJson (change : Change) : Json :=
  .record
    [("severity", .text change.severity.name), ("type", .text change.kind.name),
      ("message_key", .text change.key), ("args", .array (change.arguments.map Argument.toJson))]

/-- The change that a JSON value is. -/
def ofJson? (json : Json) : Option Change :=
  match json.fields? ["severity", "type", "message_key", "args"] with
  | some [severity, kind, key, arguments] => do
      return {
        severity := ← severity.choice? Severity.ofName?
        kind := ← kind.choice? ChangeKind.ofName?
        key := ← key.text?
        arguments := ← (← arguments.items?).mapM Argument.ofJson? }
  | _ => none

def ofText? (text : String) : Option Change :=
  (Json.ofText? text).bind ofJson?

end Change

namespace ChangeGroup

/-- The group in JSON, with its name under the key. -/
def toJson (key : String) (group : ChangeGroup) : Json :=
  .record [(key, .text group.name), ("diffs", .array (group.changes.map Change.toJson))]

/-- The group that a JSON value is. -/
def ofJson? (key : String) (json : Json) : Option ChangeGroup :=
  match json.fields? [key, "diffs"] with
  | some [name, changes] => do
      return ⟨← name.text?, ← (← changes.items?).mapM Change.ofJson?⟩
  | _ => none

end ChangeGroup

namespace SidedFailure

def toJson (entry : SidedFailure) : Json :=
  .record
    [("side", .text entry.side.name), ("class_name", .text entry.failure.className),
      ("path", .text entry.failure.path), ("reason", .text entry.failure.reason),
      ("error_code", .text entry.failure.errorCode)]

/-- The depth of arrays and objects that a failure in a report may hold. -/
def maxDepth : Nat :=
  125

/-- The failure that a JSON value is.  Only an object will do, and all that is in
it has to be plain. -/
def ofJson? : Json → Option SidedFailure
  | .object members =>
      if (Json.object members).isPlain maxDepth then do
        return {
          side := ← (← Json.member? members "side").choice? Side.ofName?
          failure :=
            { className := ← (← Json.member? members "class_name").text?
              path := ← (← Json.member? members "path").text?
              reason := ← (← Json.member? members "reason").text?
              errorCode := ← (← Json.member? members "error_code").text? } }
      else
        none
  | _ => none

end SidedFailure

namespace Summary

def toJson (summary : Summary) : Json :=
  .record
    [("errors", .natural summary.errors), ("warnings", .natural summary.warnings),
      ("infos", .natural summary.infos), ("classes_compared", .natural summary.classesCompared),
      ("packages_compared", .natural summary.packagesCompared),
      ("failures", .natural summary.failures)]

/-- The counts that a JSON value is. -/
def ofJson? (json : Json) : Option Summary :=
  match json.fields?
    ["errors", "warnings", "infos", "classes_compared", "packages_compared", "failures"] with
  | some [errors, warnings, infos, classes, packages, failures] => do
      return {
        errors := ← errors.natural?
        warnings := ← warnings.natural?
        infos := ← infos.natural?
        classesCompared := ← classes.natural?
        packagesCompared := ← packages.natural?
        failures := ← failures.natural? }
  | _ => none

end Summary

namespace Report

def toJson (report : Report) : Json :=
  .record
    [("run_id", .text report.runId), ("previous", .text report.previous),
      ("next", .text report.next), ("min_severity", .text report.minSeverity.name),
      ("packages", .array (report.packages.map (ChangeGroup.toJson "package_name"))),
      ("classes", .array (report.classes.map (ChangeGroup.toJson "class_name"))),
      ("failures", .array (report.failures.map SidedFailure.toJson)),
      ("summary", report.summary.toJson)]

def keys : List String :=
  ["run_id", "previous", "next", "min_severity", "packages", "classes", "failures", "summary"]

/-- The report that a JSON value is. -/
def ofJson? (json : Json) : Option Report :=
  match json.fields? keys with
  | some [runId, previous, next, minSeverity, packages, classes, failures, summary] => do
      return {
        runId := ← runId.text?
        previous := ← previous.text?
        next := ← next.text?
        minSeverity := ← minSeverity.choice? Severity.ofName?
        packages := ← (← packages.items?).mapM (ChangeGroup.ofJson? "package_name")
        classes := ← (← classes.items?).mapM (ChangeGroup.ofJson? "class_name")
        failures := ← (← failures.items?).mapM SidedFailure.ofJson?
        summary := ← Summary.ofJson? summary }
  | _ => none

def ofText? (text : String) : Option Report :=
  (Json.ofText? text).bind ofJson?

/-- The report as a JSON text, closed by a line feed. -/
def jsonText (report : Report) : String :=
  report.toJson.render .pretty ++ "\n"

end Report

end JvmDiff
