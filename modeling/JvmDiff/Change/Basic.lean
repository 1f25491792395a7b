/-!
# Changes

A change is one difference between two versions: how severe it is, what happened, the key of
the message about it and the arguments of the message.
-/

namespace JvmDiff

/-- How severe a change is. -/
inductive Severity where
  | info
  | warning
  | error
deriving DecidableEq, Repr

namespace Severity

def name : Severity → String
  | .info => "INFO"
  | .warning => "WARNING"
  | .error => "ERROR"

/-- The place of a severity, the mildest first. -/
def rank : Severity → Nat
  | .info => 0
  | .warning => 1
  | .error => 2

/-- The severity is at least the given one. -/
def atLeast (severity least : Severity) : Bool :=
  least.rank ≤ severity.rank

def ofName? (name : String) : Option Severity :=
  [Severity.info, .warning, .error].find? fun severity => severity.name = name

/-- A text with the letters of ASCII in upper case. -/
def upperAscii (text : String) : String :=
  String.ofList (text.toList.map Char.toUpper)

/-- The severity that a text names, in any case; the error is the text in upper
case. -/
def parse (text : String) : Except String Severity :=
  let upper := upperAscii text
  if upper = "WARN" then .ok .warning
  else
    match ofName? upper with
    | some severity => .ok severity
    | none => .error upper

/-- The message for a text that names no severity. -/
def unknownMessage (upper : String) : String :=
  "unknown severity '" ++ upper ++ "'"

end Severity

inductive ChangeKind where
  | added
  | removed
  | modified
deriving DecidableEq, Repr

namespace ChangeKind

/-- The name of a kind of change. -/
def name : ChangeKind → String
  | .added => "ADDED"
  | .removed => "REMOVED"
  | .modified => "MODIFIED"

def ofName? (name : String) : Option ChangeKind :=
  [ChangeKind.added, .removed, .modified].find? fun kind => kind.name = name

end ChangeKind

inductive Argument where
  | null
  | number (value : Int64)
  | text (value : String)
deriving DecidableEq, Repr

namespace Argument

/-- The text that an argument puts into a message. -/
def display : Argument → String
  | .null => "null"
  | .number value => toString value.toInt
  | .text value => value

/-- A natural number below `2 ^ 63` as an argument. -/
def ofNat (n : Nat) : Argument :=
  .number (Int64.ofNat n)

/-- A text that may be missing. -/
def ofOption : Option String → Argument
  | none => .null
  | some value => .text value

end Argument

/-- One difference between two versions. -/
structure Change where
  severity : Severity
  kind : ChangeKind
  key : String
  arguments : List Argument
deriving DecidableEq, Repr

end JvmDiff
