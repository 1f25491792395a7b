import JvmDiff.Change.Basic
import JvmDiff.DirEntry
import JvmDiff.Problem
import JvmDiff.Toml.Reader

/-!
# Settings in a file

A settings file is a TOML document with up to three sections.  Everything in it is optional, and
a section or a key that is not known is an error.
-/

namespace JvmDiff

/-- The form in which a report is written. -/
inductive ReportFormat where
  | text
  | json
deriving DecidableEq, Repr

namespace ReportFormat

def name : ReportFormat → String
  | .text => "text"
  | .json => "json"

def ofName? (name : String) : Option ReportFormat :=
  [ReportFormat.text, .json].find? fun format => format.name = name

end ReportFormat

/-- How much a run tells about itself. -/
inductive LogProfile where
  | development
  | production
  | test
deriving DecidableEq, Repr

namespace LogProfile

def name : LogProfile → String
  | .development => "development"
  | .production => "production"
  | .test => "test"

def ofName? (name : String) : Option LogProfile :=
  [LogProfile.development, .production, .test].find? fun profile => profile.name = name

end LogProfile

namespace Toml

def Item.text? : Item → Option String
  | .text value => some value
  | _ => none

def Item.texts? : Item → Option (List String)
  | .list items => items.mapM Item.text?
  | _ => none

def Item.isEmpty : Item → Bool
  | .list items => items.isEmpty
  | .table _ entries => entries.isEmpty
  | _ => false

/-- One of several names, as a text or as the only key of a table with nothing
under it. -/
def Item.choice? {α : Type} (ofName? : String → Option α) : Item → Option α
  | .text name => ofName? name
  | .table _ [(name, item)] => if item.isEmpty then ofName? name else none
  | _ => none

/-- The values of a section in the order of its keys.  A table has no other keys;
a list gives the values one after another, and what is left of it does not
count. -/
def Item.fields? (keys : List String) : Item → Option (List (Option Item))
  | .table _ entries =>
      if entries.all fun entry => keys.contains entry.1 then
        some (keys.map fun key => Entries.get? key entries)
      else none
  | .list items => some (ofList keys items)
  | .tables items => some (ofList keys items)
  | _ => none
where
  /-- The items with a place for each key. -/
  ofList : List String → List Item → List (Option Item)
    | [], _ => []
    | _ :: keys, [] => none :: ofList keys []
    | _ :: keys, item :: items => some item :: ofList keys items

end Toml

/-- What a settings file says. -/
structure FileSettings where
  included : List String := []
  excluded : List String := []
  minSeverity : Option Severity := none
  format : Option ReportFormat := none
  profile : Option LogProfile := none
deriving DecidableEq, Repr

namespace FileSettings

open Toml

/-- A value that may be missing; one that is there has to be right. -/
def optional {α : Type} (read : Item → Option α) : Option Item → Option (Option α)
  | none => some none
  | some item => (read item).map some

/-- The names to include and to exclude. -/
def filterSection (item : Item) : Option (List String × List String) :=
  match item.fields? ["include", "exclude"] with
  | some [included, excluded] => do
      return ((← optional Item.texts? included).getD [], (← optional Item.texts? excluded).getD [])
  | _ => none

/-- The least severity and the format of the report. -/
def reportSection (item : Item) : Option (Option Severity × Option ReportFormat) :=
  match item.fields? ["min_severity", "format"] with
  | some [minSeverity, format] => do
      return (← optional (Item.choice? Severity.ofName?) minSeverity,
        ← optional (Item.choice? ReportFormat.ofName?) format)
  | _ => none

/-- The profile. -/
def loggingSection (item : Item) : Option (Option LogProfile) :=
  match item.fields? ["profile"] with
  | some [profile] => optional (Item.choice? LogProfile.ofName?) profile
  | _ => none

def ofEntries? (entries : Entries) : Option FileSettings :=
  match (Item.table .explicit entries).fields? ["filter", "report", "logging"] with
  | some [filter, report, logging] => do
      let (included, excluded) := (← optional filterSection filter).getD ([], [])
      let (minSeverity, format) := (← optional reportSection report).getD (none, none)
      return ⟨included, excluded, minSeverity, format, (← optional loggingSection logging).getD none⟩
  | _ => none

def ofText? (text : String) : Option FileSettings :=
  (Toml.ofText? text).bind ofEntries?

/-- The operation that a problem with the file names. -/
def operation : String :=
  "load_config"

/-- A problem with the settings file. -/
def problem (kind : ProblemKind) (path message : String) : Problem where
  kind := kind
  operation := some operation
  path := some path
  message := message

/-- The settings in the bytes of the file at a path. -/
def ofBytes (path : String) : Except AccessFault (List UInt8) → Except Problem FileSettings
  | .error fault => .error (problem .io path fault.message)
  | .ok bytes =>
      match String.fromUTF8? (ByteArray.mk bytes.toArray) with
      | none => .error (problem .io path "stream did not contain valid UTF-8")
      | some text =>
          match ofText? text with
          | none => .error (problem .config path "invalid settings")
          | some settings => .ok settings

end FileSettings

end JvmDiff
