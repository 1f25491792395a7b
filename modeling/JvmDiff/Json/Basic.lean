import JvmDiff.FloatingPoint.Rounding

/-!
# Data in JSON

The values that a JSON text spells.  Objects keep their members in the order of the text, with
repeated keys, so that a reader can refuse what it takes for a mistake.
-/

namespace JvmDiff

/-- A JSON value. -/
inductive Json where
  | null
  | boolean (value : Bool)
  /-- A number written as an integer that fits into 64 bits, zero without a sign. -/
  | integer (value : Int)
  /-- A number written in any other way: the leading digits that fit into 64 bits,
  times the power of ten. -/
  | decimal (isNegative : Bool) (significand : Nat) (exponent : Int)
  /-- A string; it spells no text if an escape in it is one half of a pair. -/
  | string (text : Option String)
  | array (items : List Json)
  | object (members : List (Option String × Json))
deriving Repr

namespace Json

def text (value : String) : Json :=
  .string (some value)

def natural (value : Nat) : Json :=
  .integer value

def record (members : List (String × Json)) : Json :=
  .object (members.map fun member => (some member.1, member.2))

def text? : Json → Option String
  | .string value => value
  | _ => none

def items? : Json → Option (List Json)
  | .array items => some items
  | _ => none

/-- The number below `2 ^ 64` that the value is. -/
def natural? : Json → Option Nat
  | .integer (.ofNat value) => if value < 0x10000000000000000 then some value else none
  | _ => none

/-- One of several names, alone or as the only key of an object with nothing
under it. -/
def choice? {α : Type} (ofName? : String → Option α) : Json → Option α
  | .string (some name) => ofName? name
  | .object [(some name, .null)] => ofName? name
  | _ => none

/-- The value of the member with the key, if there is exactly one. -/
def member? (members : List (Option String × Json)) (key : String) : Option Json :=
  match members.filter fun member => member.1 = some key with
  | [member] => some member.2
  | _ => none

/-- The values of the fields of a record, in the order of the keys.  An object
has each key once, and other keys do not count; an array lists the values. -/
def fields? (keys : List String) : Json → Option (List Json)
  | .array items => if items.length = keys.length then some items else none
  | .object members =>
      if members.all fun member => member.1.isSome then keys.mapM (member? members) else none
  | _ => none

/-- A decimal stands for the product of the 64-bit numbers nearest to its
significand and to its power of ten, or for their quotient; only a product can
round to infinity.  No power of ten above the 308th is in range. -/
def isFinite (significand : Nat) (exponent : Int) : Bool :=
  if significand = 0 ∨ exponent < 0 then true
  else if 308 < exponent then false
  else
    FloatingPoint.double.rounded significand *
        FloatingPoint.double.rounded (Nat.pow 10 exponent.toNat) <
      FloatingPoint.double.overflow

mutual

/-- Every string in the value spells a text, every number is finite, and arrays
and objects stand at most so deep in one another. -/
def isPlain (depth : Nat) : Json → Bool
  | .null => true
  | .boolean _ => true
  | .integer _ => true
  | .decimal _ significand exponent => isFinite significand exponent
  | .string value => value.isSome
  | .array items =>
      match depth with
      | 0 => false
      | inner + 1 => arePlainItems inner items
  | .object members =>
      match depth with
      | 0 => false
      | inner + 1 => arePlainMembers inner members

def arePlainItems (depth : Nat) : List Json → Bool
  | [] => true
  | item :: items => isPlain depth item && arePlainItems depth items

def arePlainMembers (depth : Nat) : List (Option String × Json) → Bool
  | [] => true
  | (key, value) :: members =>
      key.isSome && isPlain depth value && arePlainMembers depth members

end

end Json

end JvmDiff
