import JvmDiff.Proofs.ClassFile.ModifiedUtf8

/-!
# Halves of pairs

Any list of sixteen-bit units is the units of a text, or begins with the units of a text and goes
on with half of a pair that stands alone.  So units spell a text as soon as no half of a pair
stands alone among them, and otherwise the first that does is where reading them ends.
-/

namespace JvmDiff.Text.Utf16

/-- The unit is half of a pair and stands alone between the units before it and
those after it: the second half does not follow the first, or the first does not
precede the second. -/
def IsLone (before : List Nat) (unit : Nat) (after : List Nat) : Prop :=
  (isHigh unit = true ∧ after.head?.any isLow = false) ∨
    (isLow unit = true ∧ before.getLast?.any isHigh = false)

instance (before : List Nat) (unit : Nat) (after : List Nat) :
    Decidable (IsLone before unit after) :=
  inferInstanceAs (Decidable (_ ∨ _))

/-- No half of a pair stands alone. -/
def InPairs (units : List Nat) : Prop :=
  ∀ before unit after, units = before ++ unit :: after → ¬ IsLone before unit after

/-- Of all halves that stand alone the unit is the first one. -/
def IsFirstLone (units : List Nat) (unit : Nat) : Prop :=
  ∃ before after, units = before ++ unit :: after ∧ IsLone before unit after ∧
    ∀ front other back, before = front ++ other :: back →
      ¬ IsLone front other (back ++ unit :: after)

/-! ## Units that spell a text -/

/-- The units need nothing of what follows them and give nothing to it. -/
structure Whole (units : List Nat) : Prop where
  isClosed : units.getLast?.any isHigh = false
  inPairs : ∀ rest before unit after, units = before ++ unit :: after →
    ¬ IsLone before unit (after ++ rest)

/-- Units that are whole make no difference to what follows them. -/
theorem Whole.isLone_append {units : List Nat} (whole : Whole units) (before : List Nat)
    (unit : Nat) (after : List Nat) :
    IsLone (units ++ before) unit after ↔ IsLone before unit after := by
  have last : (units ++ before).getLast?.any isHigh = before.getLast?.any isHigh := by
    rw [List.getLast?_append]
    cases before.getLast? with
    | none => exact whole.isClosed
    | some last => rfl
  rw [IsLone, IsLone, last]

theorem whole_nil : Whole [] where
  isClosed := rfl
  inPairs := by
    intro rest before unit after split
    simp at split

theorem Whole.append {first second : List Nat} (wholeFirst : Whole first)
    (wholeSecond : Whole second) : Whole (first ++ second) where
  isClosed := by
    rw [List.getLast?_append]
    cases known : second.getLast? with
    | none => exact wholeFirst.isClosed
    | some last =>
      have closed := wholeSecond.isClosed
      rwa [known] at closed
  inPairs := by
    intro rest before unit after split lone
    -- The unit stands in the second list, or in the first with the second behind it.
    rcases List.append_eq_append_iff.mp split with ⟨more, rfl, inSecond⟩ | ⟨more, rfl, others⟩
    · exact wholeSecond.inPairs rest more unit after inSecond
        ((wholeFirst.isLone_append more unit _).mp lone)
    · cases more with
      | nil =>
        rw [List.append_nil] at wholeFirst
        exact wholeSecond.inPairs rest [] unit after others.symm
          ((wholeFirst.isLone_append [] unit _).mp (by rwa [List.append_nil]))
      | cons head more =>
        obtain ⟨rfl, rfl⟩ := List.cons.inj others
        exact wholeFirst.inPairs (second ++ rest) before unit more rfl
          (List.append_assoc more second rest ▸ lone)

theorem not_isLone {unit : Nat} (notHalf : (isHigh unit || isLow unit) = false)
    (before after : List Nat) : ¬ IsLone before unit after := by
  obtain ⟨notHigh, notLow⟩ := Bool.or_eq_false_iff.mp notHalf
  rintro (⟨high, _⟩ | ⟨low, _⟩)
  · exact Bool.false_ne_true (notHigh.symm.trans high)
  · exact Bool.false_ne_true (notLow.symm.trans low)

/-- No unit is both halves of a pair. -/
theorem not_high_of_low {unit : Nat} (low : isLow unit = true) : isHigh unit = false := by
  simp only [isLow, isHigh, Bool.and_eq_true, decide_eq_true_eq, Bool.and_eq_false_iff,
    decide_eq_false_iff_not] at *
  omega

theorem not_low_of_high {unit : Nat} (high : isHigh unit = true) : isLow unit = false := by
  rw [Bool.eq_false_iff]
  intro low
  exact Bool.false_ne_true ((not_high_of_low low).symm.trans high)

theorem whole_singleton {unit : Nat} (notHalf : (isHigh unit || isLow unit) = false) :
    Whole [unit] where
  isClosed := (Bool.or_eq_false_iff.mp notHalf).1
  inPairs := by
    intro rest before other after split
    rcases List.append_eq_singleton_iff.mp split.symm with ⟨rfl, single⟩ | ⟨_, impossible⟩
    · obtain ⟨rfl, _⟩ := List.cons.inj single
      exact not_isLone notHalf [] _
    · cases impossible

theorem whole_pair {high low : Nat} (isFirst : isHigh high = true) (isSecond : isLow low = true) :
    Whole [high, low] where
  isClosed := not_high_of_low isSecond
  inPairs := by
    intro rest before unit after split
    match before, split with
    | [], split =>
      obtain ⟨rfl, rfl⟩ := List.cons.inj split
      rintro (⟨_, alone⟩ | ⟨isLow, _⟩)
      · exact Bool.false_ne_true (alone.symm.trans isSecond)
      · exact Bool.false_ne_true ((not_low_of_high isFirst).symm.trans isLow)
    | [first], split =>
      obtain ⟨rfl, inTail⟩ := List.cons.inj split
      obtain ⟨rfl, rfl⟩ := List.cons.inj inTail
      rintro (⟨isHigh, _⟩ | ⟨_, alone⟩)
      · exact Bool.false_ne_true ((not_high_of_low isSecond).symm.trans isHigh)
      · exact Bool.false_ne_true (alone.symm.trans isFirst)
    | _ :: _ :: _, split => simp at split

theorem whole_unitsOf (c : Char) : Whole (unitsOf c) := by
  have valid : c.toNat < 0xD800 ∨ 0xDFFF < c.toNat ∧ c.toNat < 0x110000 := c.valid
  rw [unitsOf]
  split
  case isTrue small => exact whole_singleton (not_half_of_char c)
  case isFalse large =>
    apply whole_pair
    · simp only [isHigh, Bool.and_eq_true, decide_eq_true_eq]
      omega
    · simp only [isLow, Bool.and_eq_true, decide_eq_true_eq]
      omega

theorem whole_flatMap_unitsOf (text : List Char) : Whole (text.flatMap unitsOf) := by
  induction text with
  | nil => exact whole_nil
  | cons c text inductionHypothesis =>
    rw [List.flatMap_cons]
    exact (whole_unitsOf c).append inductionHypothesis

theorem inPairs_flatMap_unitsOf (text : List Char) : InPairs (text.flatMap unitsOf) := by
  intro before unit after split
  have alone := (whole_flatMap_unitsOf text).inPairs [] before unit after split
  rwa [List.append_nil] at alone

/-! ## Characters from units -/

theorem unitsOf_ofNat {unit : Nat} (bound : unit < 0x10000)
    (notHalf : (isHigh unit || isLow unit) = false) : unitsOf (Char.ofNat unit) = [unit] := by
  have valid : unit.isValidChar := by
    simp only [isHigh, isLow, Bool.or_eq_false_iff, Bool.and_eq_false_iff,
      decide_eq_false_iff_not] at notHalf
    rw [Nat.isValidChar]
    omega
  have code : (Char.ofNat unit).toNat = unit := by
    rw [Char.ofNat, dif_pos valid]
    rfl
  rw [unitsOf, code, if_pos bound]

theorem unitsOf_ofPair {high low : Nat} (isFirst : isHigh high = true)
    (isSecond : isLow low = true) : unitsOf (ofPair high low) = [high, low] := by
  simp only [isHigh, isLow, Bool.and_eq_true, decide_eq_true_eq] at isFirst isSecond
  have valid : (0x10000 + (high - 0xD800) * 0x400 + (low - 0xDC00)).isValidChar := by
    rw [Nat.isValidChar]
    omega
  have code : (ofPair high low).toNat =
      0x10000 + (high - 0xD800) * 0x400 + (low - 0xDC00) := by
    rw [ofPair, Char.ofNat, dif_pos valid]
    rfl
  have first : 0xD800 + ((high - 0xD800) * 0x400 + (low - 0xDC00)) / 0x400 = high := by omega
  have second : 0xDC00 + ((high - 0xD800) * 0x400 + (low - 0xDC00)) % 0x400 = low := by omega
  have above : 0x10000 + (high - 0xD800) * 0x400 + (low - 0xDC00) - 0x10000 =
      (high - 0xD800) * 0x400 + (low - 0xDC00) := by omega
  rw [unitsOf, code, if_neg (by omega), above, first, second]

/-- Units are those of a text, or those of a text and then half of a pair that
stands alone. -/
theorem text_or_lone {units : List Nat} (bound : ∀ unit ∈ units, unit < 0x10000) :
    (∃ text : List Char, units = text.flatMap unitsOf) ∨
      ∃ (text : List Char) (unit : Nat) (after : List Nat),
        units = text.flatMap unitsOf ++ unit :: after ∧ IsLone [] unit after := by
  -- What holds of the rest holds of the whole, with one more character in front.
  have extend {front : List Nat} {c : Char} {rest : List Nat} (spells : unitsOf c = front)
      (spelled : (∃ text : List Char, rest = text.flatMap unitsOf) ∨
        ∃ (text : List Char) (unit : Nat) (after : List Nat),
          rest = text.flatMap unitsOf ++ unit :: after ∧ IsLone [] unit after) :
      (∃ text : List Char, front ++ rest = text.flatMap unitsOf) ∨
        ∃ (text : List Char) (unit : Nat) (after : List Nat),
          front ++ rest = text.flatMap unitsOf ++ unit :: after ∧ IsLone [] unit after := by
    rcases spelled with ⟨text, rfl⟩ | ⟨text, unit, after, rfl, lone⟩
    · exact Or.inl ⟨c :: text, by rw [List.flatMap_cons, spells]⟩
    · exact Or.inr ⟨c :: text, unit, after, by rw [List.flatMap_cons, spells, List.append_assoc],
        lone⟩
  have lone {unit : Nat} {after : List Nat} (half : (isHigh unit || isLow unit) = true)
      (noPair : (isHigh unit && after.head?.any isLow) = false) : IsLone [] unit after := by
    rcases Bool.or_eq_true_iff.mp half with high | low
    · exact Or.inl ⟨high, by simpa [high] using noPair⟩
    · exact Or.inr ⟨low, rfl⟩
  induction units using chars.induct with
  | case1 => exact Or.inl ⟨[], rfl⟩
  | case2 unit half => exact Or.inr ⟨[], unit, [], rfl, lone half (Bool.and_false _)⟩
  | case3 unit whole =>
    exact extend (unitsOf_ofNat (bound unit List.mem_cons_self) (Bool.eq_false_iff.mpr whole))
      (Or.inl ⟨[], rfl⟩)
  | case4 unit next rest pair inductionHypothesis =>
    obtain ⟨high, low⟩ := Bool.and_eq_true_iff.mp pair
    exact extend (unitsOf_ofPair high low) (inductionHypothesis fun unit member =>
      bound unit (List.mem_cons_of_mem _ (List.mem_cons_of_mem _ member)))
  | case5 unit next rest pair half =>
    exact Or.inr ⟨[], unit, next :: rest, rfl, lone half (Bool.eq_false_iff.mpr pair)⟩
  | case6 unit next rest pair whole inductionHypothesis =>
    exact extend (unitsOf_ofNat (bound unit List.mem_cons_self) (Bool.eq_false_iff.mpr whole))
      (inductionHypothesis fun unit member => bound unit (List.mem_cons_of_mem _ member))

theorem chars_lone {unit : Nat} {after : List Nat} (lone : IsLone [] unit after) :
    chars (unit :: after) = .error unit := by
  have half : (isHigh unit || isLow unit) = true := by
    rcases lone with ⟨high, _⟩ | ⟨low, _⟩
    · rw [high, Bool.true_or]
    · rw [low, Bool.or_true]
  cases after with
  | nil => rw [chars, if_pos half]
  | cons next rest =>
    have noPair : ¬ (isHigh unit && isLow next) = true := by
      intro pair
      obtain ⟨high, low⟩ := Bool.and_eq_true_iff.mp pair
      rcases lone with ⟨_, alone⟩ | ⟨isLow, _⟩
      · exact Bool.false_ne_true (alone.symm.trans low)
      · exact Bool.false_ne_true ((not_low_of_high high).symm.trans isLow)
    rw [chars, if_neg noPair, if_pos half]

theorem chars_text_lone (text : List Char) {unit : Nat} {after : List Nat}
    (lone : IsLone [] unit after) :
    chars (text.flatMap unitsOf ++ unit :: after) = .error unit := by
  induction text with
  | nil => exact chars_lone lone
  | cons c text inductionHypothesis =>
    rw [List.flatMap_cons, List.append_assoc, chars_unitsOf, inductionHypothesis]
    rfl

/-- A half that stands alone behind a text is the first one that does. -/
theorem isFirstLone_text_lone (text : List Char) {unit : Nat} {after : List Nat}
    (lone : IsLone [] unit after) :
    IsFirstLone (text.flatMap unitsOf ++ unit :: after) unit := by
  have whole := whole_flatMap_unitsOf text
  refine ⟨_, after, rfl, ?_, ?_⟩
  · rw [← List.append_nil (text.flatMap unitsOf)]
    exact (whole.isLone_append [] unit after).mpr lone
  · intro front other back split
    exact whole.inPairs (unit :: after) front other back split

theorem IsFirstLone.unique {units : List Nat} {unit other : Nat} (first : IsFirstLone units unit)
    (second : IsFirstLone units other) : unit = other := by
  obtain ⟨before, after, rfl, lone, none⟩ := first
  obtain ⟨front, back, split, otherLone, noneBefore⟩ := second
  -- If one of the two stood before the other, the other would not be the first.
  rcases List.append_eq_append_iff.mp split with ⟨more, rfl, rest⟩ | ⟨more, rfl, rest⟩
  · cases more with
    | nil => exact (List.cons.inj rest).1
    | cons head more =>
      obtain ⟨rfl, rfl⟩ := List.cons.inj rest
      exact absurd lone (noneBefore before _ more rfl)
  · cases more with
    | nil => exact (List.cons.inj rest).1.symm
    | cons head more =>
      obtain ⟨rfl, rfl⟩ := List.cons.inj rest
      exact absurd otherLone (none front _ more rfl)

theorem IsFirstLone.not_inPairs {units : List Nat} {unit : Nat}
    (first : IsFirstLone units unit) : ¬ InPairs units := by
  obtain ⟨before, after, split, lone, _⟩ := first
  exact fun inPairs => inPairs before unit after split lone

section Bounded

variable {units : List Nat} (bound : ∀ unit ∈ units, unit < 0x10000)
include bound

/-- Characters are found exactly for their units. -/
theorem chars_eq_ok_iff {text : List Char} :
    chars units = .ok text ↔ text.flatMap unitsOf = units := by
  constructor
  · intro found
    rcases text_or_lone bound with ⟨spelled, rfl⟩ | ⟨spelled, unit, after, rfl, lone⟩
    · rw [chars_flatMap_unitsOf] at found
      cases found
      rfl
    · rw [chars_text_lone spelled lone] at found
      cases found
  · rintro rfl
    exact chars_flatMap_unitsOf text

theorem chars_eq_error_iff {unit : Nat} : chars units = .error unit ↔ IsFirstLone units unit := by
  rcases text_or_lone bound with ⟨text, rfl⟩ | ⟨text, first, after, rfl, lone⟩
  · rw [chars_flatMap_unitsOf]
    exact ⟨nofun, fun first => absurd (inPairs_flatMap_unitsOf text) first.not_inPairs⟩
  · rw [chars_text_lone text lone]
    have isFirst := isFirstLone_text_lone text lone
    refine ⟨?_, fun other => congrArg Except.error (isFirst.unique other)⟩
    intro same
    cases same
    exact isFirst

theorem exists_text_iff_inPairs :
    (∃ text : List Char, text.flatMap unitsOf = units) ↔ InPairs units := by
  constructor
  · rintro ⟨text, rfl⟩
    exact inPairs_flatMap_unitsOf text
  · intro inPairs
    rcases text_or_lone bound with ⟨text, rfl⟩ | ⟨text, first, after, rfl, lone⟩
    · exact ⟨text, rfl⟩
    · exact absurd inPairs (isFirstLone_text_lone text lone).not_inPairs

end Bounded

end JvmDiff.Text.Utf16
