/-!
# Sixteen-bit units

A character is one unit of sixteen bits, or a pair of units if it lies above them.  The two
units of a pair come from ranges of their own, in which no character lies, so a sequence of
units spells a text as soon as the units of these ranges stand in pairs.
-/

namespace JvmDiff.Text.Utf16

/-- The unit is the first of a pair. -/
def isHigh (unit : Nat) : Bool :=
  0xD800 ≤ unit && unit < 0xDC00

/-- The unit is the second of a pair. -/
def isLow (unit : Nat) : Bool :=
  0xDC00 ≤ unit && unit < 0xE000

def unitsOf (c : Char) : List Nat :=
  if c.toNat < 0x10000 then [c.toNat]
  else
    [0xD800 + (c.toNat - 0x10000) / 0x400, 0xDC00 + (c.toNat - 0x10000) % 0x400]

/-- The character that a pair of units spells. -/
def ofPair (high low : Nat) : Char :=
  Char.ofNat (0x10000 + (high - 0xD800) * 0x400 + (low - 0xDC00))

/-- The characters that units spell; the error is the first unit of a pair that
has lost the other one. -/
def chars : List Nat → Except Nat (List Char)
  | [] => .ok []
  | [unit] =>
      if isHigh unit || isLow unit then .error unit
      else .ok [Char.ofNat unit]
  | unit :: next :: rest =>
      if isHigh unit && isLow next then
        (chars rest).map (ofPair unit next :: ·)
      else if isHigh unit || isLow unit then
        .error unit
      else
        (chars (next :: rest)).map (Char.ofNat unit :: ·)

/-- The text that units spell, if they spell one. -/
def text? (units : List Nat) : Option String :=
  match chars units with
  | .ok found => some (String.ofList found)
  | .error _ => none

end JvmDiff.Text.Utf16
