/-!
# Problems

A problem is what an operation reports when it fails: its kind, the operation, a message, and
the class and the file concerned as far as they are known.
-/

namespace JvmDiff

/-- The kinds of problems. -/
inductive ProblemKind where
  | malformedSignature
  | missingName
  | invalidModel
  | malformedClassFile
  | unsupportedConstant
  | io
  | config
  | serialization
  | internal
deriving DecidableEq, Repr

namespace ProblemKind

/-- The code of a kind, stable for scripts. -/
def code : ProblemKind → String
  | .malformedSignature => "ERR_MALFORMED_SIGNATURE"
  | .missingName => "ERR_MISSING_NAME"
  | .invalidModel => "ERR_INVALID_MODEL"
  | .malformedClassFile => "ERR_MALFORMED_CLASS_FILE"
  | .unsupportedConstant => "ERR_UNSUPPORTED_CONSTANT"
  | .io => "ERR_IO"
  | .config => "ERR_CONFIG"
  | .serialization => "ERR_SERIALIZATION"
  | .internal => "ERR_INTERNAL"

/-- The name of a kind in the log. -/
def label : ProblemKind → String
  | .malformedSignature => "MalformedSignature"
  | .missingName => "MissingName"
  | .invalidModel => "InvalidModel"
  | .malformedClassFile => "MalformedClassFile"
  | .unsupportedConstant => "UnsupportedConstant"
  | .io => "Io"
  | .config => "Config"
  | .serialization => "Serialization"
  | .internal => "Internal"

end ProblemKind

/-- A problem with what is known about it. -/
structure Problem where
  kind : ProblemKind
  operation : Option String := none
  className : Option String := none
  path : Option String := none
  message : String := ""
deriving DecidableEq, Repr

namespace Problem

/-- A detail in parentheses, nothing when it is not known. -/
def detail (label : String) : Option String → String
  | none => ""
  | some text => " (" ++ label ++ ": " ++ text ++ ")"

/-- The problem in one line, leaving out what is not known. -/
def display (problem : Problem) : String :=
  "[" ++ problem.kind.code ++ "]" ++
    (match problem.operation with
      | none => ""
      | some operation => " in operation '" ++ operation ++ "'") ++
    (if problem.message = "" then "" else ": " ++ problem.message) ++
    detail "class" problem.className ++ detail "path" problem.path

/-- The problem with the class it concerns. -/
def withClass (problem : Problem) (className : String) : Problem :=
  { problem with className := some className }

end Problem

end JvmDiff
