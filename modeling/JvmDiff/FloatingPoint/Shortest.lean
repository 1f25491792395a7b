import JvmDiff.FloatingPoint.Basic

/-!
# The shortest decimal that reads back

A finite number stands for every real that rounds to it.  Its shortest decimal is the decimal in
that interval with the fewest digits; of two with equally few, the nearer one, and the upper one
when both are equally near.  All comparisons are exact comparisons of natural numbers.
-/

namespace JvmDiff.FloatingPoint

/-- The decimal `digits * 10 ^ exponent`. -/
structure Decimal where
  digits : Nat
  exponent : Int
deriving DecidableEq, Repr

/-- A positive number with the ends of its rounding interval, each over the one
denominator, and whether the ends themselves round to it. -/
structure Interval where
  low : Nat
  value : Nat
  high : Nat
  denominator : Nat
  closed : Bool

/-- The reals that round to `significand * 2 ^ exponent`.  Below a power of two
the numbers lie twice as close, so that side is half as wide; an end belongs to
the even neighbour. -/
def roundingInterval (format : Format) (significand : Nat) (exponent : Int) : Interval :=
  let narrow := significand = Nat.pow 2 format.fractionBits
  let scale := Nat.pow 2 (exponent - 2).toNat
  ⟨(4 * significand - if narrow then 1 else 2) * scale, 4 * significand * scale,
    (4 * significand + 2) * scale, Nat.pow 2 (2 - exponent).toNat, significand % 2 = 0⟩

/-- The number of decimal digits of a natural number, none for zero. -/
def digitCount (n : Nat) : Nat :=
  if n = 0 then 0 else (Nat.toDigits 10 n).length

/-- The exponent `k` with `10 ^ (k - 1) ≤ numerator / denominator < 10 ^ k`, for a
positive fraction. -/
def magnitude (numerator denominator : Nat) : Int :=
  if denominator ≤ numerator then
    digitCount (numerator / denominator)
  else
    let count := digitCount (denominator / numerator)
    if numerator * Nat.pow 10 (count - 1) = denominator then
      2 - (count : Int)
    else
      1 - (count : Int)

/-- The decimal of the grid `10 ^ unit` that stands for the number, if one of
its two neighbours on that grid lies in the interval. -/
def onGrid (i : Interval) (unit : Int) : Option Decimal :=
  let up := Nat.pow 10 unit.toNat * i.denominator
  let down := Nat.pow 10 (-unit).toNat
  let inside (n : Nat) : Bool :=
    if i.closed then i.low * down ≤ n * up && n * up ≤ i.high * down
    else i.low * down < n * up && n * up < i.high * down
  let below := i.value * down / up
  let rest := i.value * down % up
  match inside below, inside (below + 1) with
  | true, true => some ⟨if 2 * rest < up then below else below + 1, unit⟩
  | true, false => some ⟨below, unit⟩
  | false, true => some ⟨below + 1, unit⟩
  | false, false => none

/-- The decimal without trailing zeros, given a bound on their number. -/
def Decimal.trimmed : Nat → Decimal → Decimal
  | 0, d => d
  | bound + 1, d =>
      if d.digits ≠ 0 ∧ d.digits % 10 = 0 then
        trimmed bound ⟨d.digits / 10, d.exponent + 1⟩
      else
        d

/-- The shortest decimal of a positive number.  Seventeen digits suffice for
both formats. -/
def shortest (format : Format) (significand : Nat) (exponent : Int) : Decimal :=
  let i := roundingInterval format significand exponent
  let k := magnitude i.value i.denominator
  let found := (List.range 17).findSome? fun n => onGrid i (k - (n + 1 : Nat))
  (found.getD ⟨significand, exponent⟩).trimmed 17

end JvmDiff.FloatingPoint
