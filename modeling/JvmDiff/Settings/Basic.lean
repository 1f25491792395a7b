import JvmDiff.ClassFilter
import JvmDiff.CommandLine.Options

/-!
# Settings

What counts for a comparison in the end: the command line goes before the settings file, and the
file before the defaults.
-/

namespace JvmDiff

/-- The settings of a comparison. -/
structure Settings where
  filter : ClassFilter
  minSeverity : Severity
  format : ReportFormat
  profile : LogProfile
deriving DecidableEq, Repr

namespace Settings

/-- The settings file that is read without being asked for, if it is there. -/
def defaultFile : String :=
  "classdelta.toml"

/-- The first list unless it is empty. -/
def preferred (first second : List String) : List String :=
  if first = [] then second else first

/-- The settings from the command line and the settings file. -/
def resolve (options : DiffOptions) (file : FileSettings) : Settings where
  filter := ⟨preferred options.included file.included, preferred options.excluded file.excluded⟩
  minSeverity := (options.minSeverity <|> file.minSeverity).getD .info
  format := (options.format <|> file.format).getD .text
  profile := file.profile.getD .development

def filePath (options : DiffOptions) : String :=
  options.config.getD defaultFile

/-- The settings with the bytes of the settings file, if there is one. -/
def load (options : DiffOptions) (bytes : Option (Except AccessFault (List UInt8))) :
    Except Problem Settings :=
  match bytes with
  | none => .ok (resolve options {})
  | some content => (FileSettings.ofBytes (filePath options) content).map (resolve options)

end Settings

end JvmDiff
