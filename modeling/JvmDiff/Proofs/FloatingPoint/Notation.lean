import Std.Data.String.ToInt
import JvmDiff.FloatingPoint.Notation
import JvmDiff.Proofs.Content.Reading
import JvmDiff.Proofs.FloatingPoint.Shortest

/-!
# Reading literals

A literal spells a rational: digits with or without a point, and possibly an exponent.  The
rational that the literal of a number spells rounds to this number, so that no two numbers have
the same literal.
-/

namespace JvmDiff.FloatingPoint

/-- The digits of a number and nothing else. -/
def AreDigits (text : List Char) : Prop :=
  ∀ c ∈ text, c.isDigit = true

theorem AreDigits.append {first second : List Char} (firstDigits : AreDigits first)
    (secondDigits : AreDigits second) : AreDigits (first ++ second) := by
  intro c member
  rcases List.mem_append.mp member with inFirst | inSecond
  · exact firstDigits c inFirst
  · exact secondDigits c inSecond

theorem areDigits_toDigits (n : Nat) : AreDigits (Nat.toDigits 10 n) :=
  fun _ member => Nat.isDigit_of_mem_toDigits (by norm_num) (by norm_num) member

theorem areDigits_zeros (count : Nat) : AreDigits (List.replicate count '0') := by
  intro c member
  rw [List.eq_of_mem_replicate member]
  decide

theorem AreDigits.notMem {text : List Char} (digits : AreDigits text) {c : Char}
    (other : c.isDigit = false) : c ∉ text := by
  intro member
  rw [digits c member] at other
  cases other

/-! ## What a literal spells -/

/-- The number that digits spell. -/
def spelled (digits : List Char) : ℚ :=
  Nat.ofDigitChars 10 digits 0

/-- A text without an exponent and the rational that it spells. -/
inductive SpellsMantissa : List Char → ℚ → Prop where
  | whole {digits : List Char} (areDigits : AreDigits digits) (some : digits ≠ []) :
      SpellsMantissa digits (spelled digits)
  | point {whole fraction : List Char} (wholeDigits : AreDigits whole) (some : whole ≠ [])
      (fractionDigits : AreDigits fraction) :
      SpellsMantissa (whole ++ '.' :: fraction)
        (spelled (whole ++ fraction) * 10 ^ (-(fraction.length : Int)))

/-- A literal and the rational that it spells. -/
inductive Spells : List Char → ℚ → Prop where
  | positional {text : List Char} {q : ℚ} (mantissa : SpellsMantissa text q) : Spells text q
  | scientific {text : List Char} {q : ℚ} (mantissa : SpellsMantissa text q) (exponent : Int) :
      Spells (text ++ 'e' :: (toString exponent).toList) (q * 10 ^ exponent)

theorem SpellsMantissa.digit_or_point {text : List Char} {q : ℚ}
    (spells : SpellsMantissa text q) : ∀ c ∈ text, c.isDigit = true ∨ c = '.' := by
  cases spells with
  | whole areDigits _ => exact fun c member => Or.inl (areDigits c member)
  | point wholeDigits _ fractionDigits =>
      intro c member
      rcases List.mem_append.mp member with inWhole | inRest
      · exact Or.inl (wholeDigits c inWhole)
      · rcases List.mem_cons.mp inRest with point | inFraction
        · exact Or.inr point
        · exact Or.inl (fractionDigits c inFraction)

theorem SpellsMantissa.no_exponent {text : List Char} {q : ℚ} (spells : SpellsMantissa text q) :
    'e' ∉ text := by
  intro member
  rcases spells.digit_or_point 'e' member with digit | point
  · exact absurd digit (by decide)
  · exact absurd point (by decide)

/-- A mark that stands in neither of two texts parts what they begin. -/
theorem append_cons_inj {mark : Char} {first second rest other : List Char}
    (firstFree : mark ∉ first) (secondFree : mark ∉ second)
    (same : first ++ mark :: rest = second ++ mark :: other) : first = second ∧ rest = other := by
  have unmarked : ∀ {text : List Char}, mark ∉ text → ∀ c ∈ text, ¬ mark = c := by
    rintro text free c member rfl
    exact free member
  obtain ⟨sameFirst, sameRest⟩ := Text.append_inj_of_unmarked (unmarked firstFree)
    (unmarked secondFree) (Text.startsWith_cons rfl rest) (Text.startsWith_cons rfl other) same
  injection sameRest with _ sameRest
  exact ⟨sameFirst, sameRest⟩

theorem SpellsMantissa.unique {text : List Char} {q r : ℚ} (first : SpellsMantissa text q)
    (second : SpellsMantissa text r) : q = r := by
  have noPoint : ∀ {digits : List Char}, AreDigits digits → '.' ∉ digits :=
    fun areDigits => areDigits.notMem (by decide)
  cases first with
  | whole areDigits _ =>
      generalize same : text = other at second
      cases second with
      | whole _ _ => rfl
      | point _ _ _ =>
          rw [same] at areDigits
          exact absurd (by simp) (noPoint areDigits)
  | @point whole fraction wholeDigits _ fractionDigits =>
      generalize same : whole ++ '.' :: fraction = other at second
      cases second with
      | whole areDigits _ =>
          rw [← same] at areDigits
          exact absurd (by simp) (noPoint areDigits)
      | point otherDigits _ _ =>
          obtain ⟨rfl, rfl⟩ := append_cons_inj (noPoint wholeDigits) (noPoint otherDigits) same
          rfl

/-- A literal spells one rational only. -/
theorem Spells.unique {text : List Char} {q r : ℚ} (first : Spells text q)
    (second : Spells text r) : q = r := by
  cases first with
  | positional mantissa =>
      generalize same : text = other at second
      cases second with
      | positional otherMantissa =>
          subst same
          exact mantissa.unique otherMantissa
      | scientific _ _ =>
          rw [same] at mantissa
          exact absurd (by simp) mantissa.no_exponent
  | @scientific significand _ mantissa exponent =>
      generalize same : significand ++ 'e' :: (toString exponent).toList = other at second
      cases second with
      | positional otherMantissa =>
          rw [← same] at otherMantissa
          exact absurd (by simp) otherMantissa.no_exponent
      | scientific otherMantissa otherExponent =>
          obtain ⟨rfl, sameText⟩ := append_cons_inj mantissa.no_exponent
            otherMantissa.no_exponent same
          have sameExponent : exponent = otherExponent := by
            have sameString := String.toList_inj.mp sameText
            rw [Int.toString_eq_repr, Int.toString_eq_repr] at sameString
            exact Int.repr_inj.mp sameString
          rw [sameExponent, mantissa.unique otherMantissa]

/-! ## What the written form of a decimal spells -/

theorem spelled_toDigits (n : Nat) : spelled (Nat.toDigits 10 n) = n := by
  rw [spelled, Nat.ofDigitChars_ten_toDigits]

theorem spelled_zeros_append (count : Nat) (digits : List Char) :
    spelled (List.replicate count '0' ++ digits) = spelled digits := by
  rw [spelled, Nat.ofDigitChars_append, Nat.ofDigitChars_replicate_zero, mul_zero, spelled]

theorem spelled_append_zeros (digits : List Char) (count : Nat) :
    spelled (digits ++ List.replicate count '0') = spelled digits * 10 ^ count := by
  rw [spelled, Nat.ofDigitChars_append, Nat.ofDigitChars_replicate_zero, spelled]
  push_cast
  ring

section Decimals

variable (d : Decimal)

/-- The place of the point, counted from the first digit. -/
def Decimal.place : Int :=
  (Nat.toDigits 10 d.digits).length + d.exponent

theorem value_eq_spelled :
    d.value = spelled (Nat.toDigits 10 d.digits) * 10 ^ d.exponent := by
  rw [Decimal.value, spelled_toDigits]

/-- The point stands before the digits. -/
theorem spells_small (small : d.place ≤ 0) :
    SpellsMantissa
      (['0'] ++ '.' :: (List.replicate (-d.place).toNat '0' ++ Nat.toDigits 10 d.digits))
      d.value := by
  have zeros : AreDigits (List.replicate (-d.place).toNat '0') := areDigits_zeros _
  have spells := SpellsMantissa.point (areDigits_zeros 1) (by simp)
    (zeros.append (areDigits_toDigits d.digits))
  have places : -(((List.replicate (-d.place).toNat '0' ++ Nat.toDigits 10 d.digits).length :
      Nat) : Int) = d.exponent := by
    rw [List.length_append, List.length_replicate]
    rw [Decimal.place] at *
    omega
  rw [spelled_zeros_append, spelled_zeros_append, places, ← value_eq_spelled] at spells
  exact spells

/-- The point stands among the digits. -/
theorem spells_middle (positive : 0 < d.place)
    (inside : d.place < (Nat.toDigits 10 d.digits).length) :
    SpellsMantissa
      ((Nat.toDigits 10 d.digits).take d.place.toNat ++
        '.' :: (Nat.toDigits 10 d.digits).drop d.place.toNat) d.value := by
  have digits := areDigits_toDigits d.digits
  have nonempty : (Nat.toDigits 10 d.digits).take d.place.toNat ≠ [] := by
    apply List.ne_nil_of_length_pos
    rw [List.length_take]
    omega
  have wholeDigits : AreDigits ((Nat.toDigits 10 d.digits).take d.place.toNat) :=
    fun c member => digits c (List.mem_of_mem_take member)
  have fractionDigits : AreDigits ((Nat.toDigits 10 d.digits).drop d.place.toNat) :=
    fun c member => digits c (List.mem_of_mem_drop member)
  have spells := SpellsMantissa.point wholeDigits nonempty fractionDigits
  have places : -((((Nat.toDigits 10 d.digits).drop d.place.toNat).length : Nat) : Int) =
      d.exponent := by
    rw [List.length_drop]
    rw [Decimal.place] at *
    omega
  rw [List.take_append_drop, places, ← value_eq_spelled] at spells
  exact spells

/-- The point stands behind the digits. -/
theorem spells_large (large : ((Nat.toDigits 10 d.digits).length : Int) ≤ d.place) :
    SpellsMantissa
      ((Nat.toDigits 10 d.digits ++ List.replicate d.exponent.toNat '0') ++ '.' :: ['0'])
      d.value := by
  have digits := areDigits_toDigits d.digits
  have spells := SpellsMantissa.point (digits.append (areDigits_zeros d.exponent.toNat))
    (by simp [Nat.toDigits_ne_nil]) (areDigits_zeros 1)
  have power : (10 : ℚ) ^ d.exponent = 10 ^ d.exponent.toNat := by
    have whole : d.exponent = (d.exponent.toNat : Int) := by
      rw [Decimal.place] at large
      omega
    rw [← zpow_natCast, ← whole]
  have value : spelled ((Nat.toDigits 10 d.digits ++ List.replicate d.exponent.toNat '0') ++
      List.replicate 1 '0') * (10 : ℚ) ^ (-((List.replicate 1 '0').length : Int)) = d.value := by
    rw [spelled_append_zeros, spelled_append_zeros, value_eq_spelled, power]
    simp
  rw [value] at spells
  exact spells

/-- The point stands behind the first digit, and an exponent follows. -/
theorem spells_scientific {first : Char} {others : List Char}
    (digits : Nat.toDigits 10 d.digits = first :: others) :
    Spells
      ((if others = [] then [first] else first :: '.' :: others) ++
        'e' :: (toString (d.place - 1)).toList) d.value := by
  have areDigits := areDigits_toDigits d.digits
  rw [digits] at areDigits
  have firstDigit : AreDigits [first] := by
    intro c member
    exact areDigits c (by simp_all)
  have value : spelled (first :: others) * (10 : ℚ) ^ (-(others.length : Int)) *
      10 ^ (d.place - 1) = d.value := by
    have exponent : -(others.length : Int) + (d.place - 1) = d.exponent := by
      rw [Decimal.place, digits, List.length_cons]
      omega
    rw [mul_assoc, ← zpow_add₀ (by norm_num), exponent, value_eq_spelled, digits]
  rw [← value]
  by_cases single : others = []
  · subst single
    have spells := Spells.scientific (SpellsMantissa.whole firstDigit (by simp)) (d.place - 1)
    simpa using spells
  · have otherDigits : AreDigits others :=
      fun c member => areDigits c (List.mem_cons_of_mem first member)
    have spells := Spells.scientific
      (SpellsMantissa.point firstDigit (by simp) otherDigits) (d.place - 1)
    simpa [single] using spells

/-- The written form of a decimal spells its value. -/
theorem spells_decimal : Spells (Layout.literal.decimal d).toList d.value := by
  have place : ((Nat.toDigits 10 d.digits).length : Int) + d.exponent = d.place := rfl
  unfold Layout.decimal
  simp only [Layout.literal, place]
  split
  · split
    · next small =>
        have spells := Spells.positional (spells_small d small)
        simpa using spells
    · next positive =>
        split
        · next inside =>
            have spells := Spells.positional (spells_middle d (not_le.mp positive) inside)
            simpa using spells
        · next outside =>
            have spells := Spells.positional (spells_large d (not_lt.mp outside))
            simpa using spells
  · cases digits : Nat.toDigits 10 d.digits with
    | nil => exact absurd digits Nat.toDigits_ne_nil
    | cons first others =>
        have spells := spells_scientific d digits
        cases others with
        | nil => simpa using spells
        | cons second others => simpa using spells

end Decimals

/-! ## Literals of numbers -/

theorem SpellsMantissa.starts_digit {text : List Char} {q : ℚ} (spells : SpellsMantissa text q) :
    ∃ c rest, text = c :: rest ∧ c.isDigit = true := by
  cases spells with
  | whole areDigits some =>
      obtain ⟨c, rest, rfl⟩ := List.exists_cons_of_ne_nil some
      exact ⟨c, rest, rfl, areDigits c List.mem_cons_self⟩
  | point wholeDigits some _ =>
      obtain ⟨c, rest, rfl⟩ := List.exists_cons_of_ne_nil some
      exact ⟨c, _, rfl, wholeDigits c List.mem_cons_self⟩

theorem Spells.starts_digit {text : List Char} {q : ℚ} (spells : Spells text q) :
    ∃ c rest, text = c :: rest ∧ c.isDigit = true := by
  cases spells with
  | positional mantissa => exact mantissa.starts_digit
  | scientific mantissa _ =>
      obtain ⟨c, rest, rfl, digit⟩ := mantissa.starts_digit
      exact ⟨c, _, rfl, digit⟩

theorem Spells.ne_infinity {text : List Char} {q : ℚ} (spells : Spells text q) :
    text ≠ "inf".toList := by
  rintro rfl
  obtain ⟨c, rest, same, digit⟩ := spells.starts_digit
  injection same with sameHead _
  rw [← sameHead] at digit
  exact absurd digit (by decide)

/-- The sign in front of a literal. -/
def signText (negative : Bool) : List Char :=
  if negative then ['-'] else []

theorem signText_inj {first second : Bool} {text other : List Char}
    (unsigned : text.head? ≠ some '-') (otherUnsigned : other.head? ≠ some '-')
    (same : signText first ++ text = signText second ++ other) :
    first = second ∧ text = other := by
  cases first with
  | true =>
      cases second with
      | true => exact ⟨rfl, List.append_cancel_left same⟩
      | false =>
          have heads : other = '-' :: text := same.symm
          rw [heads] at otherUnsigned
          exact absurd rfl otherUnsigned
  | false =>
      cases second with
      | true =>
          have heads : text = '-' :: other := same
          rw [heads] at unsigned
          exact absurd rfl unsigned
      | false => exact ⟨rfl, same⟩

theorem Spells.unsigned {text : List Char} {q : ℚ} (spells : Spells text q) :
    text.head? ≠ some '-' := by
  obtain ⟨c, rest, rfl, digit⟩ := spells.starts_digit
  intro same
  rw [List.head?_cons, Option.some.injEq] at same
  rw [same] at digit
  exact absurd digit (by decide)

section Numbers

variable {format : Format} {bits other : Nat}

theorem number_infinite {negative : Bool} (decoded : format.decode bits = .infinite negative) :
    (Layout.literal.number format bits).toList = signText negative ++ "inf".toList := by
  rw [Layout.number, decoded]
  cases negative with
  | true => exact (by decide : "-inf".toList = signText true ++ "inf".toList)
  | false => rfl

/-- What the literal of a finite number spells is zero or rounds to the number. -/
theorem number_finite (narrow : format.fractionBits ≤ 52) {negative : Bool} {significand : Nat}
    {exponent : Int} (decoded : format.decode bits = .finite negative significand exponent) :
    ∃ body q, (Layout.literal.number format bits).toList = signText negative ++ body ∧
      Spells body q ∧ (significand = 0 → q = 0) ∧
        (0 < significand → format.RoundsTo significand exponent q) := by
  have bounded := (Format.represents_of_decode decoded).bounded
  have sign : ∀ body : String, ((if negative then "-" else "") ++ body).toList =
      signText negative ++ body.toList := by
    intro body
    cases negative <;> simp [signText]
  rw [Layout.number, decoded]
  by_cases zero : significand = 0
  · have spells := Spells.positional
      (SpellsMantissa.point (areDigits_zeros 1) (by simp) (areDigits_zeros 1))
    refine ⟨_, _, ?_, spells, ?_, fun positive => absurd zero positive.ne'⟩
    · simp only [zero, if_true, sign]
      rfl
    · intro _
      rw [spelled_zeros_append, ← List.append_nil (List.replicate 1 '0'), spelled_zeros_append]
      simp [spelled, Nat.ofDigitChars]
  · have positive := Nat.pos_of_ne_zero zero
    refine ⟨_, _, ?_, spells_decimal (shortest format significand exponent),
      fun isZero => absurd isZero zero, fun _ => roundsTo_shortest narrow positive bounded⟩
    simp only [zero, if_false, sign]

/-- Numbers with the same literal are the same number. -/
theorem decode_eq_of_number_eq (narrow : format.fractionBits ≤ 52)
    (isNumber : format.decode bits ≠ .nan) (otherIsNumber : format.decode other ≠ .nan)
    (same : Layout.literal.number format bits = Layout.literal.number format other) :
    format.decode bits = format.decode other := by
  have spelled := congrArg String.toList same
  have infinity : "inf".toList.head? ≠ some '-' := by decide
  cases decoded : format.decode bits with
  | nan => exact absurd decoded isNumber
  | infinite negative =>
      rw [number_infinite decoded] at spelled
      cases otherDecoded : format.decode other with
      | nan => exact absurd otherDecoded otherIsNumber
      | infinite otherNegative =>
          rw [number_infinite otherDecoded] at spelled
          rw [(signText_inj infinity infinity spelled).1]
      | finite otherNegative significand exponent =>
          obtain ⟨body, q, shown, spells, _, _⟩ := number_finite narrow otherDecoded
          rw [shown] at spelled
          have sameBody := (signText_inj infinity spells.unsigned spelled).2
          exact absurd sameBody.symm spells.ne_infinity
  | finite negative significand exponent =>
      obtain ⟨body, q, shown, spells, isZero, rounds⟩ := number_finite narrow decoded
      rw [shown] at spelled
      cases otherDecoded : format.decode other with
      | nan => exact absurd otherDecoded otherIsNumber
      | infinite otherNegative =>
          rw [number_infinite otherDecoded] at spelled
          have sameBody := (signText_inj spells.unsigned infinity spelled).2
          exact absurd sameBody spells.ne_infinity
      | finite otherNegative otherSignificand otherExponent =>
          obtain ⟨otherBody, r, otherShown, otherSpells, otherIsZero, otherRounds⟩ :=
            number_finite narrow otherDecoded
          rw [otherShown] at spelled
          obtain ⟨sameSign, sameBody⟩ :=
            signText_inj spells.unsigned otherSpells.unsigned spelled
          subst sameBody
          have sameValue := spells.unique otherSpells
          subst sameValue
          have represents := Format.represents_of_decode decoded
          have otherRepresents := Format.represents_of_decode otherDecoded
          have sameNumber : significand = otherSignificand ∧ exponent = otherExponent := by
            rcases Nat.eq_zero_or_pos significand with zero | positive
            · rcases Nat.eq_zero_or_pos otherSignificand with otherZero | otherPositive
              · exact ⟨zero.trans otherZero.symm,
                  (represents.exponent_of_zero zero).trans
                    (otherRepresents.exponent_of_zero otherZero).symm⟩
              · exact absurd (isZero zero) ((otherRounds otherPositive).pos otherPositive).ne'
            · rcases Nat.eq_zero_or_pos otherSignificand with otherZero | otherPositive
              · exact absurd (otherIsZero otherZero) ((rounds positive).pos positive).ne'
              · exact (rounds positive).unique represents otherRepresents
                  (otherRounds otherPositive)
          rw [sameSign, sameNumber.1, sameNumber.2]

end Numbers

end JvmDiff.FloatingPoint

namespace JvmDiff

open FloatingPoint

/-- The bits stand for no number. -/
def Single.IsNaN (x : Single) : Prop :=
  single.decode x.bits.toNat = .nan

def Double.IsNaN (x : Double) : Prop :=
  double.decode x.bits.toNat = .nan

instance : DecidablePred Single.IsNaN := fun x =>
  inferInstanceAs (Decidable (single.decode x.bits.toNat = .nan))

instance : DecidablePred Double.IsNaN := fun x =>
  inferInstanceAs (Decidable (double.decode x.bits.toNat = .nan))

theorem Single.literal_inj {x y : Single} (xNumber : ¬ x.IsNaN) (yNumber : ¬ y.IsNaN)
    (same : x.literal = y.literal) : x = y := by
  have decoded := decode_eq_of_number_eq (by decide) xNumber yNumber same
  have bits := Format.decode_injective x.bits.toNat_lt y.bits.toNat_lt xNumber decoded
  cases x
  cases y
  exact congrArg Single.mk (UInt32.toNat_inj.mp bits)

theorem Double.literal_inj {x y : Double} (xNumber : ¬ x.IsNaN) (yNumber : ¬ y.IsNaN)
    (same : x.literal = y.literal) : x = y := by
  have decoded := decode_eq_of_number_eq (by decide) xNumber yNumber same
  have bits := Format.decode_injective x.bits.toNat_lt y.bits.toNat_lt xNumber decoded
  cases x
  cases y
  exact congrArg Double.mk (UInt64.toNat_inj.mp bits)

end JvmDiff
