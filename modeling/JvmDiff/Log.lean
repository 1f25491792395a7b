import JvmDiff.Report.Basic
import JvmDiff.Snapshot.Loading

/-!
# The log of a run

Each operation tells when it starts and how it ends, and loading a snapshot tells of every class
that failed.
-/

namespace JvmDiff

inductive LogLevel where
  | info
  | warn
  | error
deriving DecidableEq, Repr

def LogLevel.name : LogLevel → String
  | .info => "INFO"
  | .warn => "WARN"
  | .error => "ERROR"

/-- The place of an event in its operation. -/
inductive LogStage where
  | start
  | finish
  | failure
deriving DecidableEq, Repr

def LogStage.name : LogStage → String
  | .start => "start"
  | .finish => "end"
  | .failure => "end_error"

/-- Something that an operation tells. -/
structure LogEvent where
  level : LogLevel
  operation : String
  stage : Option LogStage
  fields : List (String × String)
deriving DecidableEq, Repr

namespace LogEvent

/-- The part of the program that loads snapshots. -/
def loadComponent : String :=
  "classdelta_engine::commands::load"

/-- The part of the program that compares snapshots. -/
def diffComponent : String :=
  "classdelta_engine::commands::diff"

def diffOperation : String :=
  "diff_snapshots"

def loadStarts (root : String) : LogEvent :=
  ⟨.info, Loading.operation, some .start, [("component", loadComponent), ("path", root)]⟩

def classFails (failure : LoadFailure) : LogEvent :=
  ⟨.warn, Loading.operation, none,
    [("message", "class failed to load"), ("class_name", failure.className),
      ("path", failure.path), ("err_code", failure.errorCode), ("reason", failure.reason)]⟩

def classRepeats (root : String) (redefinition : Redefinition) : LogEvent :=
  ⟨.warn, Loading.operation, none,
    [("message", "duplicate class definition"), ("class_name", redefinition.className),
      ("path", redefinition.place root), ("first_path", redefinition.firstPath),
      ("err_code", ProblemKind.invalidModel.code)]⟩

def loadEnds (snapshot : Snapshot) : LogEvent :=
  ⟨.info, Loading.operation, some .finish,
    [("component", loadComponent), ("class_count", toString snapshot.classes.length),
      ("failure_count", toString snapshot.failures.length)]⟩

def loadFails (problem : Problem) : LogEvent :=
  ⟨.error, Loading.operation, some .failure,
    [("component", loadComponent), ("err_kind", problem.kind.label),
      ("err_code", problem.kind.code)]⟩

/-- The events of loading what stands at a root. -/
def ofLoading (root : String) : Except Problem Loading → List LogEvent
  | .error problem => [loadStarts root, loadFails problem]
  | .ok loading =>
      loadStarts root :: loading.failures.map classFails ++
        (Snapshot.redefinitions loading.sources).map (classRepeats root) ++
        [loadEnds loading.snapshot]

def ofReport (report : Report) : List LogEvent :=
  [⟨.info, diffOperation, some .start,
      [("component", diffComponent), ("previous", report.previous), ("next", report.next)]⟩,
    ⟨.info, diffOperation, some .finish,
      [("component", diffComponent), ("class_count", toString report.summary.classesCompared),
        ("diff_count", toString report.changeCount),
        ("failure_count", toString report.summary.failures)]⟩]

end LogEvent

end JvmDiff
