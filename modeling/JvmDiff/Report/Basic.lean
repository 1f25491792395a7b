import JvmDiff.Change.Message
import JvmDiff.Snapshot.Basic

/-!
# Reports

A report lists the changes between two snapshots, by package and by class, and the classes of
either snapshot that failed to load.
-/

namespace JvmDiff

inductive Side where
  | previous
  | next
deriving DecidableEq, Repr

namespace Side

def name : Side → String
  | .previous => "previous"
  | .next => "next"

def ofName? (name : String) : Option Side :=
  [Side.previous, .next].find? fun side => side.name = name

end Side

/-- A failure with the side on which it was met. -/
structure SidedFailure where
  side : Side
  failure : LoadFailure
deriving DecidableEq, Repr

/-- The changes of one package or one class. -/
structure ChangeGroup where
  name : String
  changes : List Change
deriving DecidableEq, Repr

/-- The numbers of changes by severity, of classes and packages that were
compared, and of failures. -/
structure Summary where
  errors : Nat
  warnings : Nat
  infos : Nat
  classesCompared : Nat
  packagesCompared : Nat
  failures : Nat
deriving DecidableEq, Repr

/-- What a comparison of two snapshots found. -/
structure Report where
  /-- A name for the run that made the report. -/
  runId : String
  previous : String
  next : String
  minSeverity : Severity
  packages : List ChangeGroup
  classes : List ChangeGroup
  failures : List SidedFailure
  summary : Summary
deriving DecidableEq, Repr

namespace Report

def changes (report : Report) : List Change :=
  report.packages.flatMap ChangeGroup.changes ++ report.classes.flatMap ChangeGroup.changes

/-- Some change is an error, or some class failed to load. -/
def hasErrors (report : Report) : Bool :=
  0 < report.summary.errors || !report.failures.isEmpty

/-- The number of changes of any severity. -/
def changeCount (report : Report) : Nat :=
  report.summary.errors + report.summary.warnings + report.summary.infos

/-- The changes of the class with the name, if there are any. -/
def class? (report : Report) (name : String) : Option ChangeGroup :=
  report.classes.find? fun group => group.name = name

/-- The changes of the package with the name, if there are any. -/
def package? (report : Report) (name : String) : Option ChangeGroup :=
  report.packages.find? fun group => group.name = name

end Report

end JvmDiff
