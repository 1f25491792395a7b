/-!
# Tables in TOML

A TOML document is one table with tables inside.  A table can be written in pieces, and how it
was first written decides what may be added to it later: `TableKind` keeps that.
-/

namespace JvmDiff.Toml

/-- How a table came to be. -/
inductive TableKind where
  /-- By a header of its own. -/
  | explicit
  /-- By the header of a table inside it. -/
  | implicit
  /-- By a key with dots. -/
  | dotted
  /-- Between braces; nothing can be added to it. -/
  | closed
deriving DecidableEq, Repr

/-- A value in a document. -/
inductive Item where
  | text (value : String)
  /-- A number, a date or a truth value; its kind and value do not count here. -/
  | scalar
  | list (items : List Item)
  | table (kind : TableKind) (entries : List (String × Item))
  /-- Tables under repeated headers, in their order. -/
  | tables (items : List Item)
deriving Repr

/-- The entries of a table, in the order in which they were written. -/
abbrev Entries := List (String × Item)

namespace Entries

def get? (key : String) (entries : Entries) : Option Item :=
  (entries.find? fun entry => entry.1 = key).map Prod.snd

/-- The entries with another value under a key, a new key at the end. -/
def put (key : String) (item : Item) : Entries → Entries
  | [] => [(key, item)]
  | entry :: entries =>
      if entry.1 = key then (key, item) :: entries else entry :: put key item entries

/-- The entries with a change of the last one of repeated tables. -/
def changeLast (change : Entries → Option Entries) : List Item → Option (List Item)
  | [] => none
  | [.table kind entries] => (change entries).map fun changed => [.table kind changed]
  | [_] => none
  | item :: items => (changeLast change items).map (item :: ·)

/-- The entries with a change of the table to which keys lead.  Tables on the way
are made as they are needed; a table between braces is not entered. -/
def within (path : List String) (change : Entries → Option Entries) (entries : Entries) :
    Option Entries :=
  match path with
  | [] => change entries
  | key :: rest =>
      match get? key entries with
      | none => (within rest change []).map fun inner => put key (.table .implicit inner) entries
      | some (.table .closed _) => none
      | some (.table kind inner) =>
          (within rest change inner).map fun changed => put key (.table kind changed) entries
      | some (.tables items) =>
          (changeLast (within rest change) items).map fun changed =>
            put key (.tables changed) entries
      | some _ => none

/-- The entries with a table under a header.  The key has to be new, or stand for
a table that has been made only for one inside it. -/
def openTable (key : String) (entries : Entries) : Option Entries :=
  match get? key entries with
  | none => some (put key (.table .explicit []) entries)
  | some (.table .implicit inner) => some (put key (.table .explicit inner) entries)
  | some _ => none

/-- The entries with one more table under a repeated header. -/
def openRepeated (key : String) (entries : Entries) : Option Entries :=
  match get? key entries with
  | none => some (put key (.tables [.table .explicit []]) entries)
  | some (.tables items) => some (put key (.tables (items ++ [.table .explicit []])) entries)
  | some _ => none

def add (key : String) (item : Item) (entries : Entries) : Option Entries :=
  match get? key entries with
  | none => some (entries ++ [(key, item)])
  | some _ => none

/-- The entries of a table with a value under a key behind dots; `isDotted` says
whether keys with dots made the table. -/
def defineBelow (isDotted : Bool) (path : List String) (key : String) (item : Item)
    (entries : Entries) : Option Entries :=
  match path with
  | [] => if isDotted then add key item entries else none
  | part :: rest =>
      match get? part entries with
      | none =>
          (defineBelow true rest key item []).map fun inner =>
            put part (.table .dotted inner) entries
      | some (.table .dotted inner) =>
          (defineBelow true rest key item inner).map fun changed =>
            put part (.table .dotted changed) entries
      | some (.table .implicit inner) =>
          (defineBelow false rest key item inner).map fun changed =>
            put part (.table .implicit changed) entries
      | some (.tables items) =>
          (changeLast (defineBelow false rest key item) items).map fun changed =>
            put part (.tables changed) entries
      | some _ => none

/-- The entries of a table with a value under a key with or without dots.  Keys
with dots add only to tables that keys with dots have made. -/
def define (path : List String) (key : String) (item : Item) (entries : Entries) :
    Option Entries :=
  match path with
  | [] => add key item entries
  | _ => defineBelow false path key item entries

end Entries

end JvmDiff.Toml
