import JvmDiff.FloatingPoint.Basic

/-!
# Rounding natural numbers to a format

A format keeps a fixed number of leading bits.  A natural number rounds to the nearer of its two
neighbours of that form, and to the one with the even significand when both are equally near.
From `Format.overflow` on, rounding leaves the format and gives infinity.
-/

namespace JvmDiff.FloatingPoint

/-- The number of bits of a significand, the leading one included. -/
def Format.precision (format : Format) : Nat :=
  format.fractionBits + 1

/-- The weight of the last bit that is kept of a natural number. -/
def Format.lastBit (format : Format) (n : Nat) : Nat :=
  Nat.pow 2 (Nat.log2 n + 1 - format.precision)

/-- The number nearest to a natural number, as if exponents had no bound. -/
def Format.rounded (format : Format) (n : Nat) : Nat :=
  let unit := format.lastBit n
  let below := n / unit
  let rest := n % unit
  if unit < 2 * rest ∨ (2 * rest = unit ∧ below % 2 = 1) then (below + 1) * unit
  else below * unit

/-- The least natural number that rounds to infinity.  It lies half a step above
the greatest finite number, whose significand is odd. -/
def Format.overflow (format : Format) : Nat :=
  let top := Nat.pow 2 (format.exponentBits - 1)
  Nat.pow 2 top - Nat.pow 2 (top - format.precision - 1)

end JvmDiff.FloatingPoint
