/-!
# Order and spelling of names

Texts are ordered by code point, which is also the order of their UTF-8 bytes.  Every
list that a reader sees in sorted order is sorted by this one comparison.
-/

namespace JvmDiff.Text

/-- Texts compare by the first code point in which they differ. -/
def le (first second : String) : Bool :=
  decide (first ≤ second)

/-- The texts in ascending order, equal texts keeping their places. -/
def sorted (texts : List String) : List String :=
  texts.mergeSort le

/-- The texts with each run of equal neighbours reduced to one. -/
def withoutRepeats : List String → List String
  | [] => []
  | [text] => [text]
  | text :: next :: rest =>
      if text = next then withoutRepeats (next :: rest)
      else text :: withoutRepeats (next :: rest)

/-- The texts in ascending order, each of them once. -/
def distinct (texts : List String) : List String :=
  withoutRepeats (sorted texts)

/-- The texts between brackets, separated by commas without blanks. -/
def bracketed (texts : List String) : String :=
  "[" ++ ",".intercalate texts ++ "]"

/-- A class name as source code spells it: dots where the binary form has
slashes. -/
def dotted (name : String) : String :=
  String.ofList (name.toList.map fun c => if c = '/' then '.' else c)

/-- A class name as the binary form spells it: slashes where source code has
dots. -/
def slashed (name : String) : String :=
  String.ofList (name.toList.map fun c => if c = '.' then '/' else c)

/-- The text without the given first and last characters, provided it has
both and they are not the same character of a one-character text. -/
def unwrapped (first last : Char) (text : String) : Option String :=
  match text.toList with
  | [] => none
  | c :: rest =>
      if c = first ∧ rest.getLast? = some last then
        some (String.ofList rest.dropLast)
      else
        none

/-- The part of a dotted name before its last dot, empty when there is none. -/
def beforeLastDot (name : String) : String :=
  let chars := name.toList
  if '.' ∈ chars then
    String.ofList (chars.reverse.dropWhile (· ≠ '.') |>.drop 1 |>.reverse)
  else
    ""

/-- The part of a dotted name after its last dot, all of it when there is
none. -/
def afterLastDot (name : String) : String :=
  String.ofList (name.toList.reverse.takeWhile (· ≠ '.') |>.reverse)

end JvmDiff.Text
