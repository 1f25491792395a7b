import JvmDiff.FloatingPoint.Basic
import Mathlib.Algebra.Order.Field.Power
import Mathlib.Algebra.Order.Field.Rat
import Mathlib.Tactic.FieldSimp
import Mathlib.Tactic.Linarith
import Mathlib.Tactic.Positivity
import Mathlib.Tactic.Ring

/-!
# Rounding intervals

Every finite number of a format stands for an interval of rationals.  The intervals of two numbers
have nothing in common: neighbours have significands of different parity, and an end belongs to
the even one.
-/

namespace JvmDiff.FloatingPoint

/-- The exponent of the numbers next to zero. -/
def Format.leastExponent (format : Format) : Int :=
  1 - (Nat.pow 2 (format.exponentBits - 1) - 1 + format.fractionBits : Nat)

/-- The significand of a number of the format with the exponent: only the least
exponent goes with significands without the leading bit. -/
structure Format.Represents (format : Format) (significand : Nat) (exponent : Int) : Prop where
  bounded : significand < 2 ^ (format.fractionBits + 1)
  least : format.leastExponent ≤ exponent
  leading : format.leastExponent < exponent → 2 ^ format.fractionBits ≤ significand

variable {format : Format}

theorem Format.Represents.exponent_of_zero {significand : Nat} {exponent : Int}
    (represents : format.Represents significand exponent) (zero : significand = 0) :
    exponent = format.leastExponent := by
  by_contra different
  have leading := represents.leading (lt_of_le_of_ne represents.least (Ne.symm different))
  have power : 0 < 2 ^ format.fractionBits := by positivity
  omega

/-- How far the interval of a number reaches below it, in units of the last bit. -/
def Format.reach (format : Format) (significand : Nat) : ℚ :=
  if significand = 2 ^ format.fractionBits then 1 / 4 else 1 / 2

theorem Format.reach_pos (significand : Nat) : 0 < format.reach significand := by
  rw [reach]
  split <;> norm_num

theorem Format.reach_le (significand : Nat) : format.reach significand ≤ 1 / 2 := by
  rw [reach]
  split <;> norm_num

/-- The rational rounds to `significand * 2 ^ exponent`. -/
structure Format.RoundsTo (format : Format) (significand : Nat) (exponent : Int) (r : ℚ) :
    Prop where
  low : (significand - format.reach significand) * 2 ^ exponent ≤ r
  high : r ≤ (significand + 1 / 2) * 2 ^ exponent
  lowOpen : significand % 2 = 1 → (significand - format.reach significand) * 2 ^ exponent < r
  highOpen : significand % 2 = 1 → r < (significand + 1 / 2) * 2 ^ exponent

theorem Format.RoundsTo.pos {significand : Nat} {exponent : Int} {r : ℚ}
    (rounds : format.RoundsTo significand exponent r) (nonzero : 0 < significand) : 0 < r := by
  have atLeastOne : (1 : ℚ) ≤ significand := by
    exact_mod_cast nonzero
  have reach := format.reach_le significand
  have weight : (0 : ℚ) < 2 ^ exponent := by positivity
  have below : 0 < (significand - format.reach significand) * (2 : ℚ) ^ exponent := by
    apply mul_pos _ weight
    linarith
  exact below.trans_le rounds.low

section Apart

variable {significand other : Nat} {exponent : Int} {r : ℚ}

/-- Two numbers with the same exponent. -/
theorem Format.RoundsTo.apart_of_lt (less : significand < other)
    (first : format.RoundsTo significand exponent r)
    (second : format.RoundsTo other exponent r) : False := by
  have weight : (0 : ℚ) < 2 ^ exponent := by positivity
  have reach := format.reach_le other
  have next : (significand : ℚ) + 1 ≤ other := by
    exact_mod_cast less
  have touching : ((significand : ℚ) + 1 / 2) * 2 ^ exponent ≤
      (other - format.reach other) * 2 ^ exponent := by
    apply mul_le_mul_of_nonneg_right _ weight.le
    linarith
  rcases Nat.mod_two_eq_zero_or_one significand with even | odd
  · rcases Nat.mod_two_eq_zero_or_one other with otherEven | otherOdd
    · -- Two even significands are not neighbours.
      have further : (significand : ℚ) + 2 ≤ other := by
        exact_mod_cast (by omega : significand + 2 ≤ other)
      have separate : ((significand : ℚ) + 1 / 2) * 2 ^ exponent <
          (other - format.reach other) * 2 ^ exponent := by
        apply mul_lt_mul_of_pos_right _ weight
        linarith
      linarith [first.high, second.low]
    · linarith [first.high, second.lowOpen otherOdd]
  · linarith [first.highOpen odd, second.low]

/-- The number with the greater exponent has the leading bit. -/
theorem Format.RoundsTo.apart_of_exponent_lt {otherExponent : Int}
    (bounded : significand < 2 ^ (format.fractionBits + 1))
    (leading : 2 ^ format.fractionBits ≤ other) (less : exponent < otherExponent)
    (first : format.RoundsTo significand exponent r)
    (second : format.RoundsTo other otherExponent r) : False := by
  have weight : (0 : ℚ) < 2 ^ exponent := by positivity
  have doubled : 2 * (2 : ℚ) ^ exponent ≤ 2 ^ otherExponent := by
    rw [← zpow_one_add₀ (by norm_num)]
    exact zpow_le_zpow_right₀ (by norm_num) (by omega)
  have topPos : (1 : ℚ) ≤ 2 ^ format.fractionBits := one_le_pow₀ (by norm_num)
  have otherLow : ((2 : ℚ) ^ format.fractionBits - 1 / 4) ≤ other - format.reach other := by
    rw [reach]
    split
    · next same => simp [same]
    · next different =>
        have further : (2 : ℚ) ^ format.fractionBits + 1 ≤ other := by
          exact_mod_cast (by omega : 2 ^ format.fractionBits + 1 ≤ other)
        linarith
  have otherReach : (2 * 2 ^ format.fractionBits - 1 / 2) * (2 : ℚ) ^ exponent ≤
      (other - format.reach other) * 2 ^ otherExponent := by
    calc (2 * 2 ^ format.fractionBits - 1 / 2) * (2 : ℚ) ^ exponent
        = (2 ^ format.fractionBits - 1 / 4) * (2 * 2 ^ exponent) := by ring
      _ ≤ (2 ^ format.fractionBits - 1 / 4) * 2 ^ otherExponent := by
          apply mul_le_mul_of_nonneg_left doubled
          linarith
      _ ≤ (other - format.reach other) * 2 ^ otherExponent := by
          apply mul_le_mul_of_nonneg_right otherLow
          positivity
  have power : 2 ^ (format.fractionBits + 1) = 2 * 2 ^ format.fractionBits := by
    rw [pow_succ, mul_comm]
  rcases Nat.mod_two_eq_zero_or_one significand with even | odd
  · have below : (significand : ℚ) + 2 ≤ 2 * 2 ^ format.fractionBits := by
      exact_mod_cast (by omega : significand + 2 ≤ 2 * 2 ^ format.fractionBits)
    have separate : ((significand : ℚ) + 1 / 2) * 2 ^ exponent <
        (2 * 2 ^ format.fractionBits - 1 / 2) * 2 ^ exponent := by
      apply mul_lt_mul_of_pos_right _ weight
      linarith
    linarith [first.high, second.low]
  · have below : (significand : ℚ) + 1 ≤ 2 * 2 ^ format.fractionBits := by
      exact_mod_cast (by omega : significand + 1 ≤ 2 * 2 ^ format.fractionBits)
    have touching : ((significand : ℚ) + 1 / 2) * 2 ^ exponent ≤
        (2 * 2 ^ format.fractionBits - 1 / 2) * 2 ^ exponent := by
      apply mul_le_mul_of_nonneg_right _ weight.le
      linarith
    linarith [first.highOpen odd, second.low]

end Apart

/-- A rational rounds to one number of a format only. -/
theorem Format.RoundsTo.unique {significand other : Nat} {exponent otherExponent : Int} {r : ℚ}
    (represents : format.Represents significand exponent)
    (otherRepresents : format.Represents other otherExponent)
    (first : format.RoundsTo significand exponent r)
    (second : format.RoundsTo other otherExponent r) :
    significand = other ∧ exponent = otherExponent := by
  rcases lt_trichotomy exponent otherExponent with less | same | more
  · have leading := otherRepresents.leading (represents.least.trans_lt less)
    exact (apart_of_exponent_lt represents.bounded leading less first second).elim
  · subst same
    rcases lt_trichotomy significand other with less | same | more
    · exact (apart_of_lt less first second).elim
    · exact ⟨same, rfl⟩
    · exact (apart_of_lt more second first).elim
  · have leading := represents.leading (otherRepresents.least.trans_lt more)
    exact (apart_of_exponent_lt otherRepresents.bounded leading more second first).elim

/-! ## Numbers and their bits -/

namespace Format

/-- The fields of the bits of a number. -/
def fraction (format : Format) (bits : Nat) : Nat :=
  bits % 2 ^ format.fractionBits

def exponentField (format : Format) (bits : Nat) : Nat :=
  bits / 2 ^ format.fractionBits % 2 ^ format.exponentBits

def isNegative (format : Format) (bits : Nat) : Bool :=
  decide (bits / 2 ^ (format.fractionBits + format.exponentBits) % 2 = 1)

/-- The bits are those of the sign and the two fields. -/
theorem eq_of_fields_eq {bits other : Nat}
    (bound : bits < 2 ^ (format.fractionBits + format.exponentBits + 1))
    (otherBound : other < 2 ^ (format.fractionBits + format.exponentBits + 1))
    (fraction : format.fraction bits = format.fraction other)
    (field : format.exponentField bits = format.exponentField other)
    (sign : format.isNegative bits = format.isNegative other) : bits = other := by
  have top : ∀ n < 2 ^ (format.fractionBits + format.exponentBits + 1),
      n / 2 ^ format.fractionBits / 2 ^ format.exponentBits < 2 := by
    intro n bound
    rw [Nat.div_div_eq_div_mul, ← pow_add]
    apply Nat.div_lt_of_lt_mul
    rwa [← pow_succ]
  have sameTop : bits / 2 ^ format.fractionBits / 2 ^ format.exponentBits =
      other / 2 ^ format.fractionBits / 2 ^ format.exponentBits := by
    have bitsTop := top bits bound
    have otherTop := top other otherBound
    rw [isNegative, isNegative, pow_add, ← Nat.div_div_eq_div_mul, ← Nat.div_div_eq_div_mul,
      Nat.mod_eq_of_lt bitsTop, Nat.mod_eq_of_lt otherTop, decide_eq_decide] at sign
    generalize bits / 2 ^ format.fractionBits / 2 ^ format.exponentBits = bit at *
    generalize other / 2 ^ format.fractionBits / 2 ^ format.exponentBits = otherBit at *
    omega
  exact Nat.ext_div_mod (Nat.ext_div_mod sameTop field) fraction

theorem decode_eq (bits : Nat) :
    format.decode bits =
      if format.exponentField bits = 2 ^ format.exponentBits - 1 then
        if format.fraction bits = 0 then .infinite (format.isNegative bits) else .nan
      else if format.exponentField bits = 0 then
        .finite (format.isNegative bits) (format.fraction bits) format.leastExponent
      else
        .finite (format.isNegative bits) (2 ^ format.fractionBits + format.fraction bits)
          (format.leastExponent + (format.exponentField bits - 1)) := by
  have exponent : ∀ field offset : Int, field - offset = 1 - offset + (field - 1) := by
    intro field offset
    omega
  rw [leastExponent, ← exponent]
  rfl

theorem fraction_lt (bits : Nat) : format.fraction bits < 2 ^ format.fractionBits :=
  Nat.mod_lt bits (by positivity)

theorem decode_infinite {bits : Nat} {negative : Bool}
    (decoded : format.decode bits = .infinite negative) :
    format.isNegative bits = negative ∧
      format.exponentField bits = 2 ^ format.exponentBits - 1 ∧ format.fraction bits = 0 := by
  rw [decode_eq] at decoded
  split at decoded
  · next full =>
      split at decoded
      · next whole =>
          cases decoded
          exact ⟨rfl, full, whole⟩
      · cases decoded
  · split at decoded <;> cases decoded

theorem decode_finite {bits significand : Nat} {negative : Bool} {exponent : Int}
    (decoded : format.decode bits = .finite negative significand exponent) :
    format.isNegative bits = negative ∧
      ((format.exponentField bits = 0 ∧ significand = format.fraction bits ∧
          exponent = format.leastExponent) ∨
        (format.exponentField bits ≠ 0 ∧
          significand = 2 ^ format.fractionBits + format.fraction bits ∧
          exponent = format.leastExponent + (format.exponentField bits - 1))) := by
  rw [decode_eq] at decoded
  split at decoded
  · split at decoded <;> cases decoded
  · split at decoded
    · next zero =>
        cases decoded
        exact ⟨rfl, Or.inl ⟨zero, rfl, rfl⟩⟩
    · next nonzero =>
        cases decoded
        exact ⟨rfl, Or.inr ⟨nonzero, rfl, rfl⟩⟩

theorem represents_of_decode {bits significand : Nat} {negative : Bool} {exponent : Int}
    (decoded : format.decode bits = .finite negative significand exponent) :
    format.Represents significand exponent := by
  have fraction := format.fraction_lt bits
  have power : 2 ^ (format.fractionBits + 1) = 2 * 2 ^ format.fractionBits := by
    rw [pow_succ, mul_comm]
  obtain ⟨_, ⟨_, rfl, rfl⟩ | ⟨nonzero, rfl, rfl⟩⟩ := decode_finite decoded
  · exact ⟨by omega, le_refl _, fun less => absurd less (lt_irrefl _)⟩
  · exact ⟨by omega, by omega, fun _ => by omega⟩

/-- A number has one representation by bits, unless it is none. -/
theorem decode_injective {bits other : Nat}
    (bound : bits < 2 ^ (format.fractionBits + format.exponentBits + 1))
    (otherBound : other < 2 ^ (format.fractionBits + format.exponentBits + 1))
    (isNumber : format.decode bits ≠ .nan) (same : format.decode bits = format.decode other) :
    bits = other := by
  cases decoded : format.decode bits with
  | nan => exact absurd decoded isNumber
  | infinite negative =>
      obtain ⟨sign, field, fraction⟩ := decode_infinite decoded
      obtain ⟨otherSign, otherField, otherFraction⟩ := decode_infinite (same ▸ decoded)
      exact eq_of_fields_eq bound otherBound (fraction.trans otherFraction.symm)
        (field.trans otherField.symm) (sign.trans otherSign.symm)
  | finite negative significand exponent =>
      have bitsFraction := format.fraction_lt bits
      have otherFraction := format.fraction_lt other
      obtain ⟨sign, fields⟩ := decode_finite decoded
      obtain ⟨otherSign, otherFields⟩ := decode_finite (same ▸ decoded)
      -- The leading bit tells the least exponent field from the others.
      have sameFields : format.fraction bits = format.fraction other ∧
          format.exponentField bits = format.exponentField other := by
        omega
      exact eq_of_fields_eq bound otherBound sameFields.1 sameFields.2
        (sign.trans otherSign.symm)

end Format

end JvmDiff.FloatingPoint
