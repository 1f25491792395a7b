/-!
# Binary floating-point numbers

IEEE 754 numbers are kept as their bits, so that two numbers are equal exactly when their bits
are.  `Format.decode` reads the bits as a sign and a value `significand * 2 ^ exponent`.
-/

namespace JvmDiff

/-- A 32-bit floating-point number. -/
structure Single where
  bits : UInt32
deriving DecidableEq, Repr

/-- A 64-bit floating-point number. -/
structure Double where
  bits : UInt64
deriving DecidableEq, Repr

namespace FloatingPoint

/-- The widths of the two fields below the sign bit. -/
structure Format where
  fractionBits : Nat
  exponentBits : Nat

def single : Format :=
  ⟨23, 8⟩

def double : Format :=
  ⟨52, 11⟩

/-- What the bits of a number stand for. -/
inductive Number where
  | nan
  | infinite (negative : Bool)
  /-- The value `significand * 2 ^ exponent`. -/
  | finite (negative : Bool) (significand : Nat) (exponent : Int)
deriving DecidableEq, Repr

/-- A number with an exponent field of ones is no finite number; a zero
exponent field stands for the least exponent, without the leading one. -/
def Format.decode (format : Format) (bits : Nat) : Number :=
  let fraction := bits % Nat.pow 2 format.fractionBits
  let field := bits / Nat.pow 2 format.fractionBits % Nat.pow 2 format.exponentBits
  let negative := decide (bits / Nat.pow 2 (format.fractionBits + format.exponentBits) % 2 = 1)
  let offset : Int := (Nat.pow 2 (format.exponentBits - 1) - 1 + format.fractionBits : Nat)
  if field = Nat.pow 2 format.exponentBits - 1 then
    if fraction = 0 then .infinite negative else .nan
  else if field = 0 then
    .finite negative fraction (1 - offset)
  else
    .finite negative (Nat.pow 2 format.fractionBits + fraction) (field - offset)

end FloatingPoint

end JvmDiff
