import JvmDiff.Report.Basic

/-!
# Reports for a reader

The text of a report: a head, a block of lines for every package and every class with changes, a
block for the failures, and the counts.
-/

namespace JvmDiff.Report

def changeLine (change : Change) : String :=
  "  [" ++ change.severity.name ++ "] " ++ change.message

/-- A block of lines with a heading, after an empty line. -/
def block (heading : String) (lines : List String) : List String :=
  "" :: heading :: lines

def packageHeading (name : String) : String :=
  "== package " ++ if name = "" then "(default package)" else name

def classHeading (name : String) : String :=
  "== " ++ name

/-- The block of a group of changes. -/
def groupLines (heading : String → String) (group : ChangeGroup) : List String :=
  block (heading group.name) (group.changes.map changeLine)

def failureLine (entry : SidedFailure) : String :=
  "  [" ++ entry.side.name ++ "] " ++ entry.failure.className ++ " (" ++ entry.failure.path ++
    "): " ++ entry.failure.reason

/-- The block of the failures, nothing if there are none. -/
def failureLines : List SidedFailure → List String
  | [] => []
  | failures => block "Failures:" (failures.map failureLine)

def summaryLine (summary : Summary) : String :=
  "Summary: " ++ toString summary.errors ++ " error(s), " ++ toString summary.warnings ++
    " warning(s), " ++ toString summary.infos ++ " info(s); " ++
    toString summary.classesCompared ++ " class(es) compared, " ++ toString summary.failures ++
    " failure(s)"

def lines (report : Report) : List String :=
  ["classdelta report " ++ report.runId, "previous: " ++ report.previous,
      "next:     " ++ report.next] ++
    report.packages.flatMap (groupLines packageHeading) ++
    report.classes.flatMap (groupLines classHeading) ++ failureLines report.failures ++
    block (summaryLine report.summary) []

/-- The text of the report, every line closed by a line feed. -/
def text (report : Report) : String :=
  String.join (report.lines.map (· ++ "\n"))

end JvmDiff.Report
