import JvmDiff.FloatingPoint.Shortest
import JvmDiff.Proofs.FloatingPoint.Intervals
import Mathlib.Data.Nat.Cast.Order.Field

/-!
# The shortest decimal rounds back

Seventeen significant digits are enough for the formats here: among the grids that the search for
the shortest decimal goes through, the finest is finer than every rounding interval is wide, so one
of the neighbours of the number on that grid lies in its interval.
-/

namespace JvmDiff.FloatingPoint

/-! ## Powers with and without a sign -/

theorem pow_toNat {base : ℚ} (nonzero : base ≠ 0) (exponent : Int) :
    base ^ exponent.toNat = base ^ exponent * base ^ (-exponent).toNat := by
  rcases le_total 0 exponent with positive | negative
  · obtain ⟨n, rfl⟩ := Int.eq_ofNat_of_zero_le positive
    simp
  · obtain ⟨n, same⟩ := Int.exists_eq_neg_ofNat negative
    subst same
    simp [nonzero]

section Grid

variable {a n denominator : Nat} {unit : Int}

/-- Comparing a fraction with a point of a grid takes natural numbers only. -/
theorem le_grid_iff (positive : 0 < denominator) :
    a * 10 ^ (-unit).toNat ≤ n * (10 ^ unit.toNat * denominator) ↔
      (a : ℚ) / denominator ≤ n * 10 ^ unit := by
  have weight : (0 : ℚ) < 10 ^ (-unit).toNat := by positivity
  have split : (n : ℚ) * (10 ^ unit.toNat * denominator) =
      n * 10 ^ unit * denominator * 10 ^ (-unit).toNat := by
    rw [pow_toNat (by norm_num)]
    ring
  rw [div_le_iff₀ (by exact_mod_cast positive), ← mul_le_mul_iff_left₀ weight, ← split]
  exact_mod_cast Iff.rfl

theorem grid_le_iff (positive : 0 < denominator) :
    n * (10 ^ unit.toNat * denominator) ≤ a * 10 ^ (-unit).toNat ↔
      n * 10 ^ unit ≤ (a : ℚ) / denominator := by
  have weight : (0 : ℚ) < 10 ^ (-unit).toNat := by positivity
  have split : (n : ℚ) * (10 ^ unit.toNat * denominator) =
      n * 10 ^ unit * denominator * 10 ^ (-unit).toNat := by
    rw [pow_toNat (by norm_num)]
    ring
  rw [le_div_iff₀ (by exact_mod_cast positive), ← mul_le_mul_iff_left₀ weight, ← split]
  exact_mod_cast Iff.rfl

theorem lt_grid_iff (positive : 0 < denominator) :
    a * 10 ^ (-unit).toNat < n * (10 ^ unit.toNat * denominator) ↔
      (a : ℚ) / denominator < n * 10 ^ unit :=
  lt_iff_lt_of_le_iff_le (grid_le_iff positive)

theorem grid_lt_iff (positive : 0 < denominator) :
    n * (10 ^ unit.toNat * denominator) < a * 10 ^ (-unit).toNat ↔
      n * 10 ^ unit < (a : ℚ) / denominator :=
  lt_iff_lt_of_le_iff_le (le_grid_iff positive)

end Grid

/-! ## The interval of a number -/

section Ends

variable (format : Format) (significand : Nat) (exponent : Int)

theorem denominator_pos : 0 < (roundingInterval format significand exponent).denominator :=
  Nat.pow_pos (by norm_num)

/-- Numerators count quarters of the last bit. -/
theorem quarters_div (quarters : ℚ) :
    quarters * 2 ^ (exponent - 2).toNat /
        (roundingInterval format significand exponent).denominator =
      quarters / 4 * 2 ^ exponent := by
  have scale : (2 : ℚ) ^ (exponent - 2).toNat = 2 ^ (exponent - 2) * 2 ^ (2 - exponent).toNat := by
    rw [pow_toNat (by norm_num), neg_sub]
  have quarter : (2 : ℚ) ^ (exponent - 2) = 2 ^ exponent / 4 := by
    rw [zpow_sub₀ (by norm_num)]
    norm_num
  have denominator : ((roundingInterval format significand exponent).denominator : ℚ) =
      2 ^ (2 - exponent).toNat := by
    simp [roundingInterval]
  rw [denominator, scale, quarter]
  field_simp

theorem value_div_denominator :
    ((roundingInterval format significand exponent).value : ℚ) /
        (roundingInterval format significand exponent).denominator =
      significand * 2 ^ exponent := by
  have quarters := quarters_div format significand exponent (4 * significand)
  rw [mul_div_cancel_left₀ _ (by norm_num)] at quarters
  rw [← quarters]
  simp [roundingInterval]

theorem high_div_denominator :
    ((roundingInterval format significand exponent).high : ℚ) /
        (roundingInterval format significand exponent).denominator =
      (significand + 1 / 2) * 2 ^ exponent := by
  have quarters := quarters_div format significand exponent (4 * significand + 2)
  have half : ((4 : ℚ) * significand + 2) / 4 = significand + 1 / 2 := by ring
  rw [half] at quarters
  rw [← quarters]
  simp [roundingInterval]

theorem low_div_denominator (positive : 0 < significand) :
    ((roundingInterval format significand exponent).low : ℚ) /
        (roundingInterval format significand exponent).denominator =
      (significand - format.reach significand) * 2 ^ exponent := by
  have quarters := quarters_div format significand exponent
    (4 * (significand - format.reach significand))
  rw [mul_div_cancel_left₀ _ (by norm_num)] at quarters
  rw [← quarters]
  have low : (roundingInterval format significand exponent).low =
      (4 * significand - if significand = 2 ^ format.fractionBits then 1 else 2) *
        2 ^ (exponent - 2).toNat := rfl
  rw [low, Format.reach]
  by_cases narrow : significand = 2 ^ format.fractionBits
  · rw [if_pos narrow, if_pos narrow, Nat.cast_mul, Nat.cast_sub (by omega)]
    push_cast
    ring
  · rw [if_neg narrow, if_neg narrow, Nat.cast_mul, Nat.cast_sub (by omega)]
    push_cast
    ring

end Ends

/-! ## What the search tries -/

/-- The multiple of the power of ten lies in the interval. -/
def Interval.contains (i : Interval) (unit : Int) (n : Nat) : Bool :=
  let up := Nat.pow 10 unit.toNat * i.denominator
  let down := Nat.pow 10 (-unit).toNat
  if i.closed then i.low * down ≤ n * up && n * up ≤ i.high * down
  else i.low * down < n * up && n * up < i.high * down

/-- The multiple of the power of ten below the number. -/
def Interval.below (i : Interval) (unit : Int) : Nat :=
  i.value * Nat.pow 10 (-unit).toNat / (Nat.pow 10 unit.toNat * i.denominator)

/-- The nearer one of the two neighbours of the number. -/
def Interval.nearest (i : Interval) (unit : Int) : Nat :=
  let up := Nat.pow 10 unit.toNat * i.denominator
  if 2 * (i.value * Nat.pow 10 (-unit).toNat % up) < up then i.below unit else i.below unit + 1

theorem onGrid_eq (i : Interval) (unit : Int) :
    onGrid i unit =
      match i.contains unit (i.below unit), i.contains unit (i.below unit + 1) with
      | true, true => some ⟨i.nearest unit, unit⟩
      | true, false => some ⟨i.below unit, unit⟩
      | false, true => some ⟨i.below unit + 1, unit⟩
      | false, false => none :=
  rfl

/-- What is found lies in the interval. -/
theorem contains_of_onGrid {i : Interval} {unit : Int} {d : Decimal}
    (found : onGrid i unit = some d) :
    d.exponent = unit ∧ i.contains unit d.digits = true := by
  rw [onGrid_eq] at found
  cases below : i.contains unit (i.below unit) with
  | true =>
      cases above : i.contains unit (i.below unit + 1) with
      | true =>
          rw [below, above] at found
          cases found
          refine ⟨rfl, ?_⟩
          rw [Interval.nearest]
          split
          · exact below
          · exact above
      | false =>
          rw [below, above] at found
          cases found
          exact ⟨rfl, below⟩
  | false =>
      cases above : i.contains unit (i.below unit + 1) with
      | true =>
          rw [below, above] at found
          cases found
          exact ⟨rfl, above⟩
      | false =>
          rw [below, above] at found
          cases found

theorem not_contains_of_onGrid {i : Interval} {unit : Int} (nothing : onGrid i unit = none) :
    i.contains unit (i.below unit) = false ∧ i.contains unit (i.below unit + 1) = false := by
  rw [onGrid_eq] at nothing
  cases below : i.contains unit (i.below unit) <;>
    cases above : i.contains unit (i.below unit + 1) <;> simp [below, above] at nothing ⊢

section Contents

variable {format : Format} {significand : Nat} {exponent unit : Int}

theorem contains_iff (positive : 0 < significand) (n : Nat) :
    (roundingInterval format significand exponent).contains unit n = true ↔
      format.RoundsTo significand exponent (n * 10 ^ unit) := by
  have denominator := denominator_pos format significand exponent
  have closed : (roundingInterval format significand exponent).closed =
      decide (significand % 2 = 0) := rfl
  rw [Interval.contains]
  rcases Nat.mod_two_eq_zero_or_one significand with even | odd
  · simp only [closed, even, decide_true, if_true, Bool.and_eq_true, decide_eq_true_eq,
      Nat.pow_eq, le_grid_iff denominator, grid_le_iff denominator,
      low_div_denominator format significand exponent positive, high_div_denominator]
    constructor
    · rintro ⟨low, high⟩
      exact ⟨low, high, by omega, by omega⟩
    · intro rounds
      exact ⟨rounds.low, rounds.high⟩
  · simp only [closed, odd, Nat.one_ne_zero, decide_false, Bool.false_eq_true, if_false,
      Bool.and_eq_true, decide_eq_true_eq, Nat.pow_eq, lt_grid_iff denominator,
      grid_lt_iff denominator, low_div_denominator format significand exponent positive,
      high_div_denominator]
    constructor
    · rintro ⟨low, high⟩
      exact ⟨low.le, high.le, fun _ => low, fun _ => high⟩
    · intro rounds
      exact ⟨rounds.lowOpen odd, rounds.highOpen odd⟩

theorem below_le : (roundingInterval format significand exponent).below unit * (10 : ℚ) ^ unit ≤
    significand * 2 ^ exponent := by
  rw [← value_div_denominator format, ← grid_le_iff (denominator_pos format significand exponent)]
  exact Nat.div_mul_le_self _ _

theorem lt_below_succ : (significand : ℚ) * 2 ^ exponent <
    ((roundingInterval format significand exponent).below unit + 1) * 10 ^ unit := by
  have denominator := denominator_pos format significand exponent
  rw [← value_div_denominator format]
  let interval := roundingInterval format significand exponent
  have scaled : interval.value * 10 ^ (-unit).toNat <
      (interval.below unit + 1) * (10 ^ unit.toNat * interval.denominator) := by
    rw [mul_comm (interval.below unit + 1)]
    exact Nat.lt_mul_div_succ _ (Nat.mul_pos (Nat.pow_pos (by norm_num)) denominator)
  have above := (lt_grid_iff denominator).mp scaled
  push_cast at above
  exact above

end Contents

/-! ## Magnitudes -/

theorem pow_le_of_digitCount {n : Nat} (positive : 0 < n) :
    10 ^ (digitCount n - 1) ≤ n ∧ n < 10 ^ digitCount n ∧ 0 < digitCount n := by
  rw [digitCount, if_neg positive.ne']
  have digits : 0 < (Nat.toDigits 10 n).length := Nat.length_toDigits_pos
  refine ⟨?_, (Nat.length_toDigits_le_iff (by norm_num) digits).mp (le_refl _), digits⟩
  by_contra less
  rcases Nat.eq_zero_or_pos ((Nat.toDigits 10 n).length - 1) with one | more
  · rw [one, pow_zero] at less
    omega
  · have fewer := (Nat.length_toDigits_le_iff (by norm_num) more).mpr (not_le.mp less)
    omega

/-- The magnitude of a fraction is a lower bound for it. -/
theorem pow_magnitude_le {numerator denominator : Nat} (numeratorPos : 0 < numerator)
    (denominatorPos : 0 < denominator) :
    (10 : ℚ) ^ (magnitude numerator denominator - 1) ≤ numerator / denominator := by
  have denominatorCast : (0 : ℚ) < denominator := by
    exact_mod_cast denominatorPos
  rw [magnitude]
  by_cases whole : denominator ≤ numerator
  · obtain ⟨least, _, some⟩ := pow_le_of_digitCount (Nat.div_pos whole denominatorPos)
    have exponent : (digitCount (numerator / denominator) : Int) - 1 =
        ((digitCount (numerator / denominator) - 1 : Nat) : Int) := by
      omega
    rw [if_pos whole, exponent, zpow_natCast]
    calc (10 : ℚ) ^ (digitCount (numerator / denominator) - 1)
        ≤ ((numerator / denominator : Nat) : ℚ) := by exact_mod_cast least
      _ ≤ numerator / denominator := Nat.cast_div_le
  · obtain ⟨_, less, some⟩ :=
      pow_le_of_digitCount (Nat.div_pos (not_le.mp whole).le numeratorPos)
    rw [if_neg whole]
    generalize digitCount (denominator / numerator) = count at *
    simp only [Nat.pow_eq]
    by_cases exact : numerator * 10 ^ (count - 1) = denominator
    · have exponent : 2 - (count : Int) - 1 = -((count - 1 : Nat) : Int) := by
        omega
      rw [if_pos exact, exponent, zpow_neg, zpow_natCast, le_div_iff₀ denominatorCast,
        inv_mul_le_iff₀ (by positivity), mul_comm]
      exact_mod_cast exact.ge
    · have exponent : 1 - (count : Int) - 1 = -(count : Int) := by
        omega
      rw [if_neg exact, exponent, zpow_neg, zpow_natCast, le_div_iff₀ denominatorCast,
        inv_mul_le_iff₀ (by positivity)]
      have bound : denominator ≤ 10 ^ count * numerator :=
        ((Nat.div_lt_iff_lt_mul numeratorPos).mp less).le
      exact_mod_cast bound

/-! ## The search succeeds -/

/-- On the finest grid a neighbour of the number is near enough. -/
theorem onGrid_finest_ne_none {format : Format} {significand : Nat} {exponent unit : Int}
    (narrow : format.fractionBits ≤ 52) (positive : 0 < significand)
    (bounded : significand < 2 ^ (format.fractionBits + 1))
    (fine : (10 : ℚ) ^ 16 * 10 ^ unit ≤ significand * 2 ^ exponent) :
    onGrid (roundingInterval format significand exponent) unit ≠ none := by
  intro nothing
  obtain ⟨belowOut, aboveOut⟩ := not_contains_of_onGrid nothing
  rw [← Bool.not_eq_true, contains_iff positive] at belowOut aboveOut
  generalize neighbour : (roundingInterval format significand exponent).below unit = below at *
  have undershoot : (below : ℚ) * 10 ^ unit ≤ significand * 2 ^ exponent := neighbour ▸ below_le
  have overshoot : (significand : ℚ) * 2 ^ exponent < (below + 1) * 10 ^ unit :=
    neighbour ▸ lt_below_succ
  push_cast at aboveOut
  have weight : (0 : ℚ) < 2 ^ exponent := by positivity
  have reach := format.reach_pos significand
  -- Neither neighbour is inside, so the interval lies between the two.
  have lowOut :
      (below : ℚ) * 10 ^ unit ≤ (significand - format.reach significand) * 2 ^ exponent := by
    by_contra inside
    have low := not_le.mp inside
    have high : (below : ℚ) * 10 ^ unit < (significand + 1 / 2) * 2 ^ exponent := by
      linarith
    exact belowOut ⟨low.le, high.le, fun _ => low, fun _ => high⟩
  have highOut : (significand + 1 / 2) * 2 ^ exponent ≤ ((below : ℚ) + 1) * 10 ^ unit := by
    by_contra inside
    have high := not_le.mp inside
    have low : (significand - format.reach significand) * 2 ^ exponent <
        ((below : ℚ) + 1) * 10 ^ unit := by
      linarith [mul_pos reach weight]
    exact aboveOut ⟨low.le, high.le, fun _ => low, fun _ => high⟩
  have width : 10 ^ 16 * (format.reach significand + 1 / 2) * (2 : ℚ) ^ exponent ≤
      significand * 2 ^ exponent := by
    linarith
  have wide : 10 ^ 16 * (format.reach significand + 1 / 2) ≤ (significand : ℚ) :=
    le_of_mul_le_mul_right width weight
  have leading : (2 : Nat) ^ format.fractionBits ≤ 2 ^ 52 :=
    Nat.pow_le_pow_right (by norm_num) narrow
  have power : 2 ^ (format.fractionBits + 1) = 2 * 2 ^ format.fractionBits := by
    rw [pow_succ, mul_comm]
  by_cases least : significand = 2 ^ format.fractionBits
  · have top : (significand : ℚ) ≤ 2 ^ 52 := by
      exact_mod_cast least ▸ leading
    rw [Format.reach, if_pos least] at wide
    norm_num at wide top
    linarith
  · have top : (significand : ℚ) ≤ 2 ^ 53 := by
      exact_mod_cast (by omega : significand ≤ 2 ^ 53)
    rw [Format.reach, if_neg least] at wide
    norm_num at wide top
    linarith

/-- The rational that a decimal spells. -/
def Decimal.value (d : Decimal) : ℚ :=
  d.digits * 10 ^ d.exponent

theorem value_trimmed (bound : Nat) (d : Decimal) : (d.trimmed bound).value = d.value := by
  induction bound generalizing d with
  | zero => rfl
  | succ bound inductionHypothesis =>
      rw [Decimal.trimmed]
      split
      · next trailing =>
          rw [inductionHypothesis, Decimal.value, Decimal.value, zpow_add_one₀ (by norm_num)]
          have tens : (d.digits : ℚ) = (d.digits / 10 : Nat) * 10 := by
            exact_mod_cast (Nat.div_mul_cancel (Nat.dvd_of_mod_eq_zero trailing.2)).symm
          rw [tens]
          ring
      · rfl

/-- The shortest decimal of a positive number rounds to that number. -/
theorem roundsTo_shortest {format : Format} {significand : Nat} {exponent : Int}
    (narrow : format.fractionBits ≤ 52) (positive : 0 < significand)
    (bounded : significand < 2 ^ (format.fractionBits + 1)) :
    format.RoundsTo significand exponent (shortest format significand exponent).value := by
  have value := value_div_denominator format significand exponent
  have valuePos : 0 < (roundingInterval format significand exponent).value := by
    apply Nat.mul_pos (by omega)
    exact Nat.pow_pos (by norm_num)
  have lower := pow_magnitude_le valuePos (denominator_pos format significand exponent)
  rw [value] at lower
  rw [shortest, value_trimmed]
  generalize magnitude (roundingInterval format significand exponent).value
    (roundingInterval format significand exponent).denominator = k at *
  cases found : (List.range 17).findSome? fun n =>
      onGrid (roundingInterval format significand exponent) (k - (n + 1 : Nat)) with
  | none =>
      have nothing := List.findSome?_eq_none_iff.mp found 16 (by decide)
      refine absurd nothing (onGrid_finest_ne_none narrow positive bounded ?_)
      rw [← zpow_natCast, ← zpow_add₀ (by norm_num)]
      convert lower using 2
      push_cast
      ring
  | some d =>
      obtain ⟨n, _, hit⟩ := List.exists_of_findSome?_eq_some found
      obtain ⟨unit, inside⟩ := contains_of_onGrid hit
      rw [contains_iff positive, ← unit] at inside
      exact inside

end JvmDiff.FloatingPoint
