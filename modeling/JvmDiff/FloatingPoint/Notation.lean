import JvmDiff.FloatingPoint.Shortest

/-!
# Writing floating-point numbers

Both written forms show the shortest decimal.  The plain form never has an exponent; the literal
form marks a whole number by `.0` and turns to an exponent for very small and very large
numbers.
-/

namespace JvmDiff

namespace FloatingPoint

/-- How a shortest decimal is laid out. -/
structure Layout where
  /-- What follows a whole number. -/
  wholeMark : String
  /-- The places of the point, counted from the first digit, between which no
  exponent is written; without bounds none is ever written. -/
  positional : Option (Int × Int)

/-- Digits and at most one point: whole numbers stand alone. -/
def Layout.plain : Layout :=
  ⟨"", none⟩

/-- Whole numbers end in `.0`, and numbers below `1e-4` or from `1e16` on have an
exponent. -/
def Layout.literal : Layout :=
  ⟨".0", some (-3, 16)⟩

/-- A positive decimal: the point stands after the first `place` digits. -/
def Layout.decimal (layout : Layout) (d : Decimal) : String :=
  let digits := Nat.toDigits 10 d.digits
  let place : Int := digits.length + d.exponent
  let isPositional := match layout.positional with
    | none => true
    | some (least, greatest) => least ≤ place && place ≤ greatest
  if isPositional then
    if place ≤ 0 then
      "0." ++ String.ofList (List.replicate (-place).toNat '0' ++ digits)
    else if place < digits.length then
      String.ofList (digits.take place.toNat ++ '.' :: digits.drop place.toNat)
    else
      String.ofList (digits ++ List.replicate d.exponent.toNat '0') ++ layout.wholeMark
  else
    let mantissa := match digits with
      | [] => []
      | [digit] => [digit]
      | digit :: more => digit :: '.' :: more
    String.ofList mantissa ++ "e" ++ toString (place - 1)

/-- A number with its sign; a number that is none has none. -/
def Layout.number (layout : Layout) (format : Format) (bits : Nat) : String :=
  match format.decode bits with
  | .nan => "NaN"
  | .infinite negative => if negative then "-inf" else "inf"
  | .finite negative significand exponent =>
      (if negative then "-" else "") ++
        if significand = 0 then "0" ++ layout.wholeMark
        else layout.decimal (shortest format significand exponent)

end FloatingPoint

/-- The plain form of a 32-bit number. -/
def Single.plain (x : Single) : String :=
  FloatingPoint.Layout.plain.number FloatingPoint.single x.bits.toNat

/-- The literal form of a 32-bit number. -/
def Single.literal (x : Single) : String :=
  FloatingPoint.Layout.literal.number FloatingPoint.single x.bits.toNat

/-- The plain form of a 64-bit number. -/
def Double.plain (x : Double) : String :=
  FloatingPoint.Layout.plain.number FloatingPoint.double x.bits.toNat

/-- The literal form of a 64-bit number. -/
def Double.literal (x : Double) : String :=
  FloatingPoint.Layout.literal.number FloatingPoint.double x.bits.toNat

end JvmDiff
