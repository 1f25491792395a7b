import JvmDiff.Toml.Item
import JvmDiff.Toml.Scalar
import JvmDiff.Toml.Text

/-!
# Reading TOML

A document is read line by line: a line is empty, a header, or a key with a value, which may go
on over several lines.  Reading fails as a whole where anything is out of place.
-/

namespace JvmDiff.Toml

/-! ## Keys -/

/-- A character of a key without quotes. -/
def isBareKeyChar (c : Char) : Bool :=
  c.isAlphanum || c = '_' || c = '-'

/-- The key at the start of a text, and what follows it. -/
def key? (text : List Char) : Option (String × List Char) :=
  match text with
  | '"' :: rest => (shortText? '"' rest).map fun found => (String.ofList found.1, found.2)
  | '\'' :: rest => (shortText? '\'' rest).map fun found => (String.ofList found.1, found.2)
  | _ =>
      let found := text.takeWhile isBareKeyChar
      if found = [] then none else some (String.ofList found, text.dropWhile isBareKeyChar)

/-- A key with dots. -/
structure KeyPath where
  path : List String
  last : String
deriving DecidableEq, Repr

/-- The keys at the start of a text, with dots between them, and what follows
them and the blanks behind them; `fuel` bounds their number. -/
def keyPath? (fuel : Nat) (text : List Char) : Option (KeyPath × List Char) :=
  match fuel with
  | 0 => none
  | fuel + 1 =>
      match key? (skipBlanks text) with
      | none => none
      | some (key, rest) =>
          match skipBlanks rest with
          | '.' :: more =>
              (keyPath? fuel more).map fun found =>
                (⟨key :: found.1.path, found.1.last⟩, found.2)
          | after => some (⟨[], key⟩, after)

/-! ## Values -/

mutual

/-- The value at the start of a text, and what follows it; `fuel` bounds the
number of steps into lists, tables and their parts. -/
def item? (fuel : Nat) (text : List Char) : Option (Item × List Char) :=
  match fuel with
  | 0 => none
  | fuel + 1 =>
      match text with
      | '[' :: rest => (listItems? fuel rest).map fun found => (.list found.1, found.2)
      | '\x7b' :: rest =>
          match skipBlanks rest with
          | '\x7d' :: after => some (.table .closed [], after)
          | _ =>
              (tableEntries? fuel [] rest).map fun found => (.table .closed found.1, found.2)
      | _ =>
          match text? text with
          | some (value, rest) => some (.text value, rest)
          | none => (Scalar.skip? text).map fun rest => (.scalar, rest)

/-- The items of a list up to its end, and what follows it. -/
def listItems? (fuel : Nat) (text : List Char) : Option (List Item × List Char) :=
  match fuel with
  | 0 => none
  | fuel + 1 =>
      match skipLines false text with
      | ']' :: rest => some ([], rest)
      | start =>
          match item? fuel start with
          | none => none
          | some (item, rest) =>
              match skipLines false rest with
              | ',' :: more =>
                  (listItems? fuel more).map fun found => (item :: found.1, found.2)
              | ']' :: after => some ([item], after)
              | _ => none

/-- The entries of a table between braces up to its end, and what follows it. -/
def tableEntries? (fuel : Nat) (entries : Entries) (text : List Char) :
    Option (Entries × List Char) :=
  match fuel with
  | 0 => none
  | fuel + 1 =>
      match keyPath? text.length text with
      | some (⟨path, key⟩, '=' :: rest) =>
          match item? fuel (skipBlanks rest) with
          | none => none
          | some (item, after) =>
              match Entries.define path key item entries with
              | none => none
              | some entries =>
                  match skipBlanks after with
                  | ',' :: more => tableEntries? fuel entries more
                  | '\x7d' :: outside => some (entries, outside)
                  | _ => none
      | _ => none

end

/-! ## Documents -/

/-- What has been read of a document: its table, and the header that keys stand
under. -/
structure Document where
  entries : Entries := []
  header : List String := []

namespace Document

def openHeader (document : Document) (keys : KeyPath) : Option Document :=
  (Entries.within keys.path (Entries.openTable keys.last) document.entries).map fun entries =>
    ⟨entries, keys.path ++ [keys.last]⟩

/-- The document after a header that can be repeated. -/
def openRepeatedHeader (document : Document) (keys : KeyPath) : Option Document :=
  (Entries.within keys.path (Entries.openRepeated keys.last) document.entries).map fun entries =>
    ⟨entries, keys.path ++ [keys.last]⟩

/-- The document after a key with a value. -/
def define (document : Document) (keys : KeyPath) (item : Item) : Option Document :=
  (Entries.within document.header (Entries.define keys.path keys.last item)
      document.entries).map fun entries => { document with entries := entries }

/-- The document after one more line, which starts with no blank, and what
follows the line. -/
def line? (document : Document) (text : List Char) : Option (Document × List Char) :=
  match text with
  | '[' :: '[' :: rest =>
      match keyPath? rest.length rest with
      | some (keys, ']' :: ']' :: after) => do
          return (← document.openRepeatedHeader keys, ← endLine? false after)
      | _ => none
  | '[' :: rest =>
      match keyPath? rest.length rest with
      | some (keys, ']' :: after) => do
          return (← document.openHeader keys, ← endLine? false after)
      | _ => none
  | '#' :: _ => (endLine? false text).map fun after => (document, after)
  | '\n' :: _ => (endLine? false text).map fun after => (document, after)
  | '\r' :: _ => (endLine? false text).map fun after => (document, after)
  | _ =>
      match keyPath? text.length text with
      | some (keys, '=' :: rest) =>
          match item? (2 * rest.length + 2) (skipBlanks rest) with
          | some (item, after) => do
              return (← document.define keys item, ← endLine? false after)
          | none => none
      | _ => none

/-- The document after all lines of a text; `fuel` bounds their number. -/
def lines? (fuel : Nat) (document : Document) (text : List Char) : Option Document :=
  match fuel with
  | 0 => none
  | fuel + 1 =>
      match skipBlanks text with
      | [] => some document
      | start =>
          match document.line? start with
          | none => none
          | some (next, rest) => lines? fuel next rest

end Document

/-- The table that a text spells, after a byte order mark if there is one. -/
def ofText? (text : String) : Option Entries :=
  let chars :=
    match text.toList with
    | '\uFEFF' :: rest => rest
    | chars => chars
  (Document.lines? (chars.length + 1) {} chars).map Document.entries

end JvmDiff.Toml
