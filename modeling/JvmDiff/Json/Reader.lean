import JvmDiff.Json.Token

/-!
# Reading a JSON text

The tokens of a text are read from left to right.  Between two tokens the reader knows which
arrays and objects are still open and what has to come next.
-/

namespace JvmDiff.Json

/-- An open array or object with what has been read of it, the latest first. -/
inductive Opened where
  | array (items : List Json)
  /-- An object in which the value for the key is being read. -/
  | object (members : List (Option String × Json)) (key : Option String)
deriving Repr

/-- What has to come next, and what is open around it, the innermost first. -/
inductive Reader where
  /-- A value, or the end of the array in which it would be the first item. -/
  | needsValue (canClose : Bool) (opened : List Opened)
  /-- A key, or the end of the object in which it would be the first one. -/
  | needsKey (canClose : Bool) (members : List (Option String × Json)) (opened : List Opened)
  /-- The colon after a key. -/
  | needsColon (members : List (Option String × Json)) (key : Option String) (opened : List Opened)
  /-- What follows a value that is complete. -/
  | hasValue (value : Json) (opened : List Opened)
deriving Repr

namespace Reader

def start : Reader :=
  .needsValue false []

/-- A token where a value has to come. -/
def stepValue (canClose : Bool) (opened : List Opened) : Token → Option Reader
  | .null => some (.hasValue .null opened)
  | .boolean value => some (.hasValue (.boolean value) opened)
  | .integer value => some (.hasValue (.integer value) opened)
  | .decimal isNegative significand exponent =>
      some (.hasValue (.decimal isNegative significand exponent) opened)
  | .string text => some (.hasValue (.string text) opened)
  | .openArray => some (.needsValue true (.array [] :: opened))
  | .openObject => some (.needsKey true [] opened)
  | .closeArray =>
      match canClose, opened with
      | true, .array [] :: outer => some (.hasValue (.array []) outer)
      | _, _ => none
  | _ => none

def stepComplete (value : Json) : List Opened → Token → Option Reader
  | .array items :: outer, .comma => some (.needsValue false (.array (value :: items) :: outer))
  | .array items :: outer, .closeArray => some (.hasValue (.array (value :: items).reverse) outer)
  | .object members key :: outer, .comma => some (.needsKey false ((key, value) :: members) outer)
  | .object members key :: outer, .closeObject =>
      some (.hasValue (.object ((key, value) :: members).reverse) outer)
  | _, _ => none

/-- The reader after one more token, if the token can come next. -/
def step : Reader → Token → Option Reader
  | .needsValue canClose opened, token => stepValue canClose opened token
  | .needsKey _ members opened, .string key => some (.needsColon members key opened)
  | .needsKey true [] opened, .closeObject => some (.hasValue (.object []) opened)
  | .needsColon members key opened, .colon => some (.needsValue false (.object members key :: opened))
  | .hasValue value opened, token => stepComplete value opened token
  | _, _ => none

/-- The value that has been read, once nothing is open. -/
def result? : Reader → Option Json
  | .hasValue value [] => some value
  | _ => none

end Reader

def ofTokens? (tokens : List Token) : Option Json :=
  (tokens.foldlM Reader.step Reader.start).bind Reader.result?

def ofText? (text : String) : Option Json :=
  (Token.all? text.toList).bind ofTokens?

end JvmDiff.Json
