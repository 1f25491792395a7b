import JvmDiff.Settings.File

/-!
# The command line

What the arguments of the program ask for.  An option takes the argument after it as its value,
unless that looks like another option, or what stands behind an equals sign.
-/

namespace JvmDiff

/-- What a comparison is asked for. -/
structure DiffOptions where
  previous : String
  next : String
  format : Option ReportFormat := none
  minSeverity : Option Severity := none
  included : List String := []
  excluded : List String := []
  config : Option String := none
deriving DecidableEq, Repr

/-- What the program is asked for. -/
inductive Command where
  | diff (options : DiffOptions)
  /-- The table of topics, or their keys alone. -/
  | keys (isPlain : Bool)
deriving DecidableEq, Repr

namespace DiffOptions

/-- The options, each of them with a value. -/
def names : List String :=
  ["--previous", "--next", "--format", "--min-severity", "--include", "--exclude", "--config"]

def looksLikeOption (argument : String) : Bool :=
  argument.toList.head? = some '-' && argument ≠ "-"

/-- The name and the value of an argument with an equals sign. -/
def splitAtEquals (argument : String) : String × Option String :=
  let chars := argument.toList
  match chars.dropWhile (· ≠ '=') with
  | [] => (argument, none)
  | _ :: value => (String.ofList (chars.takeWhile (· ≠ '=')), some (String.ofList value))

/-- The options among the arguments with their values, in their order.  Two
hyphens end the options, and nothing may follow them. -/
def pairs? : List String → Option (List (String × String))
  | [] => some []
  | "--" :: rest => if rest = [] then some [] else none
  | argument :: rest =>
      let name := (splitAtEquals argument).1
      if names.contains name then
        match (splitAtEquals argument).2 with
        | some value => (pairs? rest).map ((name, value) :: ·)
        | none =>
            match rest with
            | [] => none
            | value :: after =>
                if looksLikeOption value then none else (pairs? after).map ((name, value) :: ·)
      else none

/-- The values of an option. -/
def valuesOf (name : String) (pairs : List (String × String)) : List String :=
  (pairs.filter fun pair => pair.1 = name).map Prod.snd

/-- The value of an option that may be given once, if it is right. -/
def optional? {α : Type} (read : String → Option α) : List String → Option (Option α)
  | [] => some none
  | [value] => (read value).map some
  | _ => none

/-- The value of an option that has to be given once. -/
def required? {α : Type} (read : String → Option α) : List String → Option α
  | [value] => read value
  | _ => none

/-- A path is any text but the empty one. -/
def path? (value : String) : Option String :=
  if value = "" then none else some value

/-- What the arguments of a comparison ask for. -/
def ofArguments? (arguments : List String) : Option DiffOptions := do
  let pairs ← pairs? arguments
  return {
    previous := ← required? path? (valuesOf "--previous" pairs)
    next := ← required? path? (valuesOf "--next" pairs)
    format := ← optional? ReportFormat.ofName? (valuesOf "--format" pairs)
    minSeverity :=
      ← optional? (fun value => (Severity.parse value).toOption) (valuesOf "--min-severity" pairs)
    included := valuesOf "--include" pairs
    excluded := valuesOf "--exclude" pairs
    config := ← optional? path? (valuesOf "--config" pairs) }

end DiffOptions

namespace Command

/-- What the arguments of the table of topics ask for. -/
def keysOfArguments? : List String → Option Command
  | [] => some (.keys false)
  | ["--"] => some (.keys false)
  | ["--plain"] => some (.keys true)
  | ["--plain", "--"] => some (.keys true)
  | _ => none

/-- What the arguments of the program ask for. -/
def ofArguments? : List String → Option Command
  | "diff" :: arguments => (DiffOptions.ofArguments? arguments).map .diff
  | "keys" :: arguments => keysOfArguments? arguments
  | _ => none

end Command

end JvmDiff
