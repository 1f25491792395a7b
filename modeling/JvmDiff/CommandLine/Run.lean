import JvmDiff.Comparison.Snapshots
import JvmDiff.FileTree.Basic
import JvmDiff.Report.Data
import JvmDiff.Report.Text
import JvmDiff.Settings.Basic
import JvmDiff.Snapshot.Loading

/-!
# Running the program

A run of the program as a function of its arguments and of what it reads.
-/

namespace JvmDiff

/-- What a comparison reads: the settings file, if it counts, and what stands at
the two roots. -/
structure Surroundings where
  settings : Option (Except AccessFault (List UInt8))
  previous : Option DirEntry
  next : Option DirEntry

/-- What a comparison reads in a working directory. -/
def FileTree.surroundings (tree : FileTree) (options : DiffOptions) : Surroundings where
  settings :=
    match options.config with
    | some path => some (tree.read path)
    | none =>
        if tree.isFile Settings.defaultFile then some (tree.read Settings.defaultFile) else none
  previous := tree.resolve? options.previous
  next := tree.resolve? options.next

/-- How a run ends. -/
structure Outcome where
  exitCode : Nat
  output : String := ""
  /-- What is said about a failure. -/
  failure : Option String := none
deriving DecidableEq, Repr

namespace Outcome

/-- The arguments ask for nothing that the program can do. -/
def usage : Outcome where
  exitCode := 2

def failed (message : String) : Outcome where
  exitCode := 2
  failure := some ("Error: " ++ message)

/-- The text of a report in a format. -/
def reportText : ReportFormat → Report → String
  | .text, report => report.text
  | .json, report => report.jsonText

def reported (format : ReportFormat) (report : Report) : Outcome where
  exitCode := if report.hasErrors then 1 else 0
  output := reportText format report

/-- A text with blanks behind it up to a width. -/
def padded (width : Nat) (text : String) : String :=
  text ++ String.ofList (List.replicate (width - text.length) ' ')

/-- The line of a topic in the table of topics. -/
def topicLine (isPlain : Bool) (topic : Topic) : String :=
  if isPlain then topic.key else padded 32 topic.key ++ " " ++ topic.template

def topics (isPlain : Bool) : Outcome where
  exitCode := 0
  output := String.join (Topic.all.map fun topic => topicLine isPlain topic ++ "\n")

def ofDiff (runId : String) (options : DiffOptions) (surroundings : Surroundings) : Outcome :=
  match Settings.load options surroundings.settings with
  | .error problem => failed problem.display
  | .ok settings =>
      match Snapshot.load options.previous settings.filter surroundings.previous with
      | .error problem => failed ("loading previous snapshot: " ++ problem.display)
      | .ok previous =>
          match Snapshot.load options.next settings.filter surroundings.next with
          | .error problem => failed ("loading next snapshot: " ++ problem.display)
          | .ok next =>
              reported settings.format
                (Comparison.ofSnapshots runId settings.minSeverity previous next)

/-- The outcome of a run in a working directory. -/
def ofArguments (runId : String) (tree : FileTree) (arguments : List String) : Outcome :=
  match Command.ofArguments? arguments with
  | none => usage
  | some (.keys isPlain) => topics isPlain
  | some (.diff options) => ofDiff runId options (tree.surroundings options)

end Outcome

end JvmDiff
