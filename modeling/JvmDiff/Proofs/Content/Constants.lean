import JvmDiff.Field
import JvmDiff.Proofs.FloatingPoint.Notation

/-!
# Constants as contents show them

The text of a constant says which constant it is, once the type of its field is known.  Numbers
are plain; a string may hold anything.
-/

namespace JvmDiff

open Text FloatingPoint

theorem isPlain_integer (n : Int) : IsPlain (toString n) := by
  rw [Int.toString_eq_repr, Int.repr_eq_if]
  split
  · exact isPlain_natural n.toNat
  · exact isPlain_append (by decide) (isPlain_natural (-n).toNat)

namespace FloatingPoint

theorem not_isMark_of_isDigit {c : Char} (digit : c.isDigit = true) : ¬ IsMark c := by
  rintro (rfl | rfl)
  · exact absurd digit (by decide)
  · exact absurd digit (by decide)

theorem SpellsMantissa.plain {text : List Char} {q : ℚ} (spells : SpellsMantissa text q) :
    ∀ c ∈ text, ¬ IsMark c := by
  intro c member
  rcases spells.digit_or_point c member with digit | rfl
  · exact not_isMark_of_isDigit digit
  · decide

theorem Spells.plain {text : List Char} {q : ℚ} (spells : Spells text q) :
    ∀ c ∈ text, ¬ IsMark c := by
  cases spells with
  | positional mantissa => exact mantissa.plain
  | scientific mantissa exponent =>
      intro c member
      rcases List.mem_append.mp member with inMantissa | inRest
      · exact mantissa.plain c inMantissa
      · rcases List.mem_cons.mp inRest with rfl | inExponent
        · decide
        · exact isPlain_integer exponent c inExponent

theorem isPlain_number {format : Format} (narrow : format.fractionBits ≤ 52) (bits : Nat) :
    IsPlain (Layout.literal.number format bits) := by
  have sign : ∀ negative, ∀ c ∈ signText negative, ¬ IsMark c := by
    intro negative
    cases negative <;> simp [signText, IsMark]
  intro c member
  cases decoded : format.decode bits with
  | nan =>
      rw [Layout.number, decoded] at member
      exact (by decide : IsPlain "NaN") c member
  | infinite negative =>
      rw [number_infinite decoded] at member
      rcases List.mem_append.mp member with inSign | inName
      · exact sign negative c inSign
      · exact (by decide : IsPlain "inf") c inName
  | finite negative significand exponent =>
      obtain ⟨body, q, shown, spells, _, _⟩ := number_finite narrow decoded
      rw [shown] at member
      rcases List.mem_append.mp member with inSign | inBody
      · exact sign negative c inSign
      · exact spells.plain c inBody

end FloatingPoint

namespace Constant

/-- The constant is one that a field of the type may have. -/
def Suits (type : String) : Constant → Prop
  | .int _ => type ∈ ["boolean", "byte", "char", "short", "int"]
  | .long _ => type = "long"
  | .float value => type = "float" ∧ ¬ value.IsNaN
  | .double value => type = "double" ∧ ¬ value.IsNaN
  | .string _ => type = "java.lang.String"

instance (type : String) : DecidablePred (Suits type) := fun constant =>
  match constant with
  | .int _ => inferInstanceAs (Decidable (type ∈ ["boolean", "byte", "char", "short", "int"]))
  | .long _ => inferInstanceAs (Decidable (type = "long"))
  | .float value => inferInstanceAs (Decidable (type = "float" ∧ ¬ value.IsNaN))
  | .double value => inferInstanceAs (Decidable (type = "double" ∧ ¬ value.IsNaN))
  | .string _ => inferInstanceAs (Decidable (type = "java.lang.String"))

/-- Constants of numbers are plain. -/
theorem text_plain {type : String} {constant : Constant} (suits : constant.Suits type)
    (notString : type ≠ "java.lang.String") : IsPlain constant.text := by
  cases constant with
  | int value => exact isPlain_integer value.toInt
  | long value => exact isPlain_integer value.toInt
  | float value => exact isPlain_number (by decide) value.bits.toNat
  | double value => exact isPlain_number (by decide) value.bits.toNat
  | string value => exact absurd suits notString

theorem eq_string_of_suits {constant : Constant} (suits : constant.Suits "java.lang.String") :
    ∃ value, constant = .string value := by
  cases constant with
  | string value => exact ⟨value, rfl⟩
  | int _ => exact absurd suits (by decide : "java.lang.String" ∉ _)
  | long _ => exact absurd suits (by decide : "java.lang.String" ≠ _)
  | float _ => exact absurd suits.1 (by decide)
  | double _ => exact absurd suits.1 (by decide)

/-- Constants for fields of one type are the same if their texts are. -/
theorem text_inj {type : String} {first second : Constant} (firstSuits : first.Suits type)
    (secondSuits : second.Suits type) (same : first.text = second.text) : first = second := by
  have integers : ∀ {n m : Int}, toString n = toString m → n = m := by
    intro n m sameText
    rw [Int.toString_eq_repr, Int.toString_eq_repr] at sameText
    exact Int.repr_inj.mp sameText
  cases first <;> cases second
  case int.int value other => exact congrArg int (Int32.toInt_inj.mp (integers same))
  case long.long value other => exact congrArg long (Int64.toInt_inj.mp (integers same))
  case float.float value other =>
    exact congrArg float (Single.literal_inj firstSuits.2 secondSuits.2 same)
  case double.double value other =>
    exact congrArg double (Double.literal_inj firstSuits.2 secondSuits.2 same)
  case string.string value other => exact congrArg string same
  -- A type has constants of one kind only.
  all_goals
    simp only [Suits, List.mem_cons, List.not_mem_nil, or_false] at firstSuits secondSuits
    simp_all

end Constant

end JvmDiff
