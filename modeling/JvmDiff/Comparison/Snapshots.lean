import JvmDiff.Comparison.Classes
import JvmDiff.Report.Basic

/-!
# Comparing two snapshots

Packages are compared by the union of their names, classes if both snapshots hold them.  A class
that failed to load on either side takes part in neither, so it shows as a failure and as nothing
else.
-/

namespace JvmDiff.Comparison

/-- The names of the classes that failed in either snapshot. -/
def failedNames (previous next : Snapshot) : List String :=
  previous.failedNames ++ next.failedNames

/-- The package with the name without the failed classes; empty if the snapshot
has no such package. -/
def sidePackage (snapshot : Snapshot) (failed : List String) (name : String) : Package :=
  match snapshot.package? name with
  | none => Package.empty name
  | some package =>
      Package.build name package.annotations
        (package.classes.filter fun entry => !failed.contains entry.name)

/-- The names of the packages of either snapshot. -/
def packageNames (previous next : Snapshot) : List String :=
  Text.distinct ((previous.packages ++ next.packages).map Package.name)

/-- The changes that are severe enough. -/
def retained (minSeverity : Severity) (changes : List Change) : List Change :=
  changes.filter fun change => change.severity.atLeast minSeverity

def packageGroups (minSeverity : Severity) (previous next : Snapshot) : List ChangeGroup :=
  let failed := failedNames previous next
  (packageNames previous next).map fun name =>
    ⟨name,
      retained minSeverity
        (ofPackage (sidePackage previous failed name) (sidePackage next failed name))⟩

/-- The classes that both snapshots hold and neither failed to load. -/
def comparedClasses (previous next : Snapshot) : List (Class × Class) :=
  let failed := failedNames previous next
  (previous.classes.filter fun c => !failed.contains c.name).filterMap fun c =>
    (next.class? c.name).map fun other => (c, other)

def classGroups (minSeverity : Severity) (previous next : Snapshot) : List ChangeGroup :=
  (comparedClasses previous next).map fun pair =>
    ⟨pair.1.name, retained minSeverity (ofClass pair.1 pair.2)⟩

def nonempty (groups : List ChangeGroup) : List ChangeGroup :=
  groups.filter fun group => !group.changes.isEmpty

def sidedFailures (previous next : Snapshot) : List SidedFailure :=
  previous.failures.map (SidedFailure.mk .previous) ++ next.failures.map (SidedFailure.mk .next)

/-- The number of changes of a severity. -/
def countOf (severity : Severity) (changes : List Change) : Nat :=
  changes.countP fun change => change.severity = severity

/-- The report on the changes that are at least so severe. -/
def ofSnapshots (runId : String) (minSeverity : Severity) (previous next : Snapshot) : Report :=
  let packages := nonempty (packageGroups minSeverity previous next)
  let classes := nonempty (classGroups minSeverity previous next)
  let failures := sidedFailures previous next
  let changes := packages.flatMap ChangeGroup.changes ++ classes.flatMap ChangeGroup.changes
  { runId := runId
    previous := previous.root
    next := next.root
    minSeverity := minSeverity
    packages := packages
    classes := classes
    failures := failures
    summary :=
      { errors := countOf .error changes
        warnings := countOf .warning changes
        infos := countOf .info changes
        classesCompared := (comparedClasses previous next).length
        packagesCompared := (packageNames previous next).length
        failures := failures.length } }

end JvmDiff.Comparison
