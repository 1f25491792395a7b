import JvmDiff.Json.Basic

/-!
# JSON texts

A JSON value is written in one of two layouts: without any blanks, or with each item and each
member on a line of its own, indented by two blanks for every array and object around it.
-/

namespace JvmDiff.Json

/-- How a value is laid out. -/
inductive Layout where
  | compact
  | pretty
deriving DecidableEq, Repr

namespace Layout

/-- What stands before an item or a closing bracket at a depth. -/
def lineStart (layout : Layout) (depth : Nat) : List Char :=
  match layout with
  | .compact => []
  | .pretty => '\n' :: List.replicate (2 * depth) ' '

/-- What stands between a key and its value. -/
def colon : Layout → List Char
  | .compact => [':']
  | .pretty => [':', ' ']

end Layout

/-- The digits of a hexadecimal number of two places. -/
def hexPair (n : Nat) : List Char :=
  [Nat.digitChar (n / 16), Nat.digitChar (n % 16)]

def escaped (c : Char) : List Char :=
  if c = '"' then ['\\', '"']
  else if c = '\\' then ['\\', '\\']
  else if c = '\x08' then ['\\', 'b']
  else if c = '\x0c' then ['\\', 'f']
  else if c = '\n' then ['\\', 'n']
  else if c = '\r' then ['\\', 'r']
  else if c = '\t' then ['\\', 't']
  else if c.toNat < 0x20 then ['\\', 'u', '0', '0'] ++ hexPair c.toNat
  else [c]

/-- A string; one that spells no text is written as half a pair. -/
def stringChars : Option String → List Char
  | some text => '"' :: text.toList.flatMap escaped ++ ['"']
  | none => ['"', '\\', 'u', 'd', '8', '0', '0', '"']

/-- The digits of an integer, after a minus sign if it is negative. -/
def integerChars : Int → List Char
  | .ofNat n => Nat.toDigits 10 n
  | .negSucc n => '-' :: Nat.toDigits 10 (n + 1)

def decimalChars (isNegative : Bool) (significand : Nat) (exponent : Int) : List Char :=
  (if isNegative then ['-'] else []) ++ Nat.toDigits 10 significand ++
    'e' :: integerChars exponent

mutual

def chars (layout : Layout) (depth : Nat) : Json → List Char
  | .null => "null".toList
  | .boolean true => "true".toList
  | .boolean false => "false".toList
  | .integer value => integerChars value
  | .decimal isNegative significand exponent => decimalChars isNegative significand exponent
  | .string text => stringChars text
  | .array [] => ['[', ']']
  | .array (item :: items) =>
      '[' :: layout.lineStart (depth + 1) ++ chars layout (depth + 1) item ++
        itemChars layout depth items
  | .object [] => ['\x7b', '\x7d']
  | .object ((key, value) :: members) =>
      '\x7b' :: layout.lineStart (depth + 1) ++ stringChars key ++ layout.colon ++
        chars layout (depth + 1) value ++ memberChars layout depth members

/-- The items after the first one and the end of an array. -/
def itemChars (layout : Layout) (depth : Nat) : List Json → List Char
  | [] => layout.lineStart depth ++ [']']
  | item :: items =>
      ',' :: layout.lineStart (depth + 1) ++ chars layout (depth + 1) item ++
        itemChars layout depth items

/-- The members after the first one and the end of an object. -/
def memberChars (layout : Layout) (depth : Nat) : List (Option String × Json) → List Char
  | [] => layout.lineStart depth ++ ['\x7d']
  | (key, value) :: members =>
      ',' :: layout.lineStart (depth + 1) ++ stringChars key ++ layout.colon ++
        chars layout (depth + 1) value ++ memberChars layout depth members

end

def render (layout : Layout) (value : Json) : String :=
  String.ofList (chars layout 0 value)

end JvmDiff.Json
