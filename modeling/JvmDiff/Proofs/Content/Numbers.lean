import JvmDiff.Proofs.Content.Constants
import JvmDiff.Proofs.Content.Values

/-!
# What contents show of numbers

The content of a leaf shows the value of a whole number and the literal of a floating-point number,
but not the type, and not the bits of a number that is none.  All else it shows, so that a content
says everything about an element value but this.
-/

namespace JvmDiff

open Text FloatingPoint

/-- What the content of a leaf shows of it. -/
inductive ShownLeaf where
  | integer (value : Int)
  | literal (text : String)
  | char (value : Char)
  | boolean (value : Bool)
  | string (value : String)
  | enumConstant (type constant : String)
  | classLiteral (name : String)
deriving DecidableEq, Repr

/-- The content of every leaf that shows this. -/
def ShownLeaf.content : ShownLeaf → String
  | .integer value => toString value
  | .literal text => text
  | .char value => Text.quotedChar value
  | .boolean value => if value then "true" else "false"
  | .string value => Text.quoted value
  | .enumConstant type constant => type ++ "." ++ constant
  | .classLiteral name => name ++ ".class"

namespace ElementLeaf

/-- The leaf without the type of its number; of a floating-point number the
literal. -/
def shown : ElementLeaf → ShownLeaf
  | .byte value => .integer value.toInt
  | .short value => .integer value.toInt
  | .int value => .integer value.toInt
  | .long value => .integer value.toInt
  | .float value => .literal value.literal
  | .double value => .literal value.literal
  | .char value => .char value
  | .boolean value => .boolean value
  | .string value => .string value
  | .enumConstant type constant => .enumConstant type constant
  | .classLiteral name => .classLiteral name

theorem content_eq (leaf : ElementLeaf) : leaf.content = leaf.shown.content := by
  cases leaf <;> rfl

end ElementLeaf

/-! ## Numerals -/

namespace Text

/-- A character of the content of a number. -/
def IsNumeralChar (c : Char) : Prop :=
  c.isDigit = true ∨ c ∈ ['-', '.', 'e', 'N', 'a', 'i', 'n', 'f']

instance : DecidablePred IsNumeralChar := fun c =>
  inferInstanceAs (Decidable (c.isDigit = true ∨ c ∈ ['-', '.', 'e', 'N', 'a', 'i', 'n', 'f']))

/-- A text that may be the content of a number. -/
structure IsNumeral (text : List Char) : Prop where
  chars : ∀ c ∈ text, IsNumeralChar c
  begins : text = "NaN".toList ∨ text = "inf".toList ∨
    StartsWith (fun c => c.isDigit = true ∨ c = '-') text

theorem isNumeral_integer (n : Int) : IsNumeral (toString n).toList where
  chars c member := (integer_chars n c member).imp_right (by rintro rfl; decide)
  begins := by
    obtain ⟨c, tail, begins⟩ := List.exists_cons_of_ne_nil (integer_nonempty n)
    refine Or.inr (Or.inr ⟨c, tail, begins, integer_chars n c ?_⟩)
    rw [begins]
    exact List.mem_cons_self

theorem IsNumeral.noDelimiter {text : List Char} (numeral : IsNumeral text) :
    ∀ c ∈ text, ¬ IsDelimiter c := by
  intro c member isDelimiter
  rcases numeral.chars c member with digit | letter
  · exact isDelimiter.not_isDigit digit
  · revert isDelimiter
    simp only [List.mem_cons, List.not_mem_nil, or_false] at letter
    rcases letter with rfl | rfl | rfl | rfl | rfl | rfl | rfl | rfl <;> decide

end Text

namespace FloatingPoint

theorem Spells.chars {text : List Char} {q : ℚ} (spells : Spells text q) :
    ∀ c ∈ text, IsNumeralChar c := by
  cases spells with
  | positional mantissa =>
    intro c member
    exact (mantissa.digit_or_point c member).imp_right (by rintro rfl; decide)
  | scientific mantissa exponent =>
    intro c member
    rcases List.mem_append.mp member with inMantissa | inRest
    · exact (mantissa.digit_or_point c inMantissa).imp_right (by rintro rfl; decide)
    · rcases List.mem_cons.mp inRest with rfl | inExponent
      · exact Or.inr (by decide)
      · exact (integer_chars exponent c inExponent).imp_right (by rintro rfl; decide)

/-- The literal of a decimal has a point or an exponent. -/
theorem decimal_marked (d : Decimal) :
    '.' ∈ (Layout.literal.decimal d).toList ∨ 'e' ∈ (Layout.literal.decimal d).toList := by
  have place : ((Nat.toDigits 10 d.digits).length : Int) + d.exponent = d.place := rfl
  unfold Layout.decimal
  simp only [Layout.literal, place]
  -- The four layouts: the point before, among or behind the digits, or an exponent.
  split_ifs
  · simp
  · simp
  · simp
  · simp

theorem number_nan {format : Format} {bits : Nat} (decoded : format.decode bits = .nan) :
    Layout.literal.number format bits = "NaN" := by
  rw [Layout.number, decoded]

theorem isNumeral_number {format : Format} (narrow : format.fractionBits ≤ 52) (bits : Nat) :
    IsNumeral (Layout.literal.number format bits).toList := by
  cases decoded : format.decode bits with
  | nan =>
    rw [number_nan decoded]
    exact ⟨by simp [IsNumeralChar], Or.inl rfl⟩
  | infinite negative =>
    rw [number_infinite decoded]
    cases negative with
    | true =>
      exact ⟨by simp [IsNumeralChar, signText], Or.inr (Or.inr (startsWith_cons (Or.inr rfl) _))⟩
    | false => exact ⟨by simp [IsNumeralChar, signText], Or.inr (Or.inl rfl)⟩
  | finite negative significand exponent =>
    obtain ⟨body, q, shown, spells, _, _⟩ := number_finite narrow decoded
    rw [shown]
    have inBody := spells.chars
    obtain ⟨c, rest, rfl, digit⟩ := spells.starts_digit
    cases negative with
    | true =>
      refine ⟨fun c member => ?_, Or.inr (Or.inr (startsWith_cons (Or.inr rfl) _))⟩
      rcases List.mem_cons.mp member with rfl | later
      · exact Or.inr (by decide)
      · exact inBody c later
    | false => exact ⟨inBody, Or.inr (Or.inr (startsWith_cons (Or.inl digit) _))⟩

/-- No literal looks like a whole number. -/
theorem number_marked (format : Format) (bits : Nat) :
    ∃ c ∈ (Layout.literal.number format bits).toList, ¬ (c.isDigit = true ∨ c = '-') := by
  cases decoded : format.decode bits with
  | nan =>
    rw [number_nan decoded]
    exact ⟨'N', by decide, by decide⟩
  | infinite negative =>
    rw [number_infinite decoded]
    exact ⟨'i', List.mem_append_right _ (by decide), by decide⟩
  | finite negative significand exponent =>
    have marked : '.' ∈ (Layout.literal.number format bits).toList ∨
        'e' ∈ (Layout.literal.number format bits).toList := by
      rw [Layout.number, decoded]
      by_cases zero : significand = 0
      · left
        simp [zero, Layout.literal]
      · simp only [zero, if_false, String.toList_append]
        exact (decimal_marked (shortest format significand exponent)).imp
          (List.mem_append_right _) (List.mem_append_right _)
    rcases marked with point | exponentMark
    · exact ⟨'.', point, by decide⟩
    · exact ⟨'e', exponentMark, by decide⟩

end FloatingPoint

/-! ## Leaves without quotes -/

namespace Text

/-- A text that begins like the numeral of a finite number. -/
abbrev StartsNumeral : List Char → Prop :=
  StartsWith fun c => c.isDigit = true ∨ c = '-'

theorem IsNumeral.ne_boolean {text : List Char} (numeral : IsNumeral text) (value : Bool) :
    text ≠ (if value then "true" else "false").toList := by
  rintro rfl
  rcases numeral.begins with isNaN | isInfinity | ⟨c, tail, begins, isStart⟩
  · cases value <;> exact absurd isNaN (by decide)
  · cases value <;> exact absurd isInfinity (by decide)
  · cases value
    · rw [← (List.cons.inj begins).1] at isStart
      exact absurd isStart (by decide)
    · rw [← (List.cons.inj begins).1] at isStart
      exact absurd isStart (by decide)

/-- No numeral is a name behind a type, nor the literal of a class. -/
theorem IsNumeral.ne_dotted {text : List Char} (numeral : IsNumeral text) {type last : String}
    (noNumeral : last = "class" ∨ ¬ StartsNumeral type.toList) :
    text ≠ (type ++ "." ++ last).toList := by
  rintro rfl
  rcases noNumeral with rfl | noStart
  · exact absurd (numeral.chars 'l' (by simp)) (by decide)
  · have point : '.' ∈ (type ++ "." ++ last).toList := by simp
    rcases numeral.begins with isNaN | isInfinity | ⟨c, tail, begins, isStart⟩
    · exact absurd (isNaN ▸ point) (by decide)
    · exact absurd (isInfinity ▸ point) (by decide)
    · refine noStart ?_
      rw [String.toList_append, String.toList_append] at begins
      cases spelled : type.toList with
      | nil =>
        rw [spelled] at begins
        rw [← (List.cons.inj begins).1] at isStart
        exact absurd isStart (by decide)
      | cons d front =>
        rw [spelled] at begins
        rw [← (List.cons.inj begins).1] at isStart
        exact startsWith_cons isStart front

end Text

namespace ShownLeaf

/-- What is written with a dot before its last part. -/
def dotted (type last : String) : ShownLeaf :=
  if last = "class" then .classLiteral type else .enumConstant type last

theorem content_dotted (type last : String) :
    (dotted type last).content = type ++ "." ++ last := by
  rw [dotted]
  split
  case isTrue isClass =>
    rw [isClass, content, String.append_assoc]
    rfl
  case isFalse => rfl

/-- What a leaf without quotes shows, if its names are names. -/
inductive IsWritten : ShownLeaf → Prop
  | boolean (value : Bool) : IsWritten (.boolean value)
  | integer (n : Int) : IsWritten (.integer n)
  | literal {text : String} (numeral : IsNumeral text.toList)
      (marked : ∃ c ∈ text.toList, ¬ (c.isDigit = true ∨ c = '-')) : IsWritten (.literal text)
  | dotted {type last : String} (noDot : '.' ∉ last.toList)
      (noNumeral : last = "class" ∨ ¬ StartsNumeral type.toList) : IsWritten (dotted type last)

theorem integer_ne_literal {text : String} (n : Int)
    (marked : ∃ c ∈ text.toList, ¬ (c.isDigit = true ∨ c = '-')) : toString n ≠ text := by
  rintro rfl
  obtain ⟨c, member, isOther⟩ := marked
  exact isOther (integer_chars n c member)

theorem boolean_ne_dotted (value : Bool) (type last : String) :
    (if value then "true" else "false") ≠ type ++ "." ++ last :=
  ElementLeaf.boolean_content_ne_dotted value type last

theorem IsWritten.content_inj {first second : ShownLeaf} (firstWritten : first.IsWritten)
    (secondWritten : second.IsWritten) (same : first.content = second.content) :
    first = second := by
  have spelled := congrArg String.toList same
  cases firstWritten with
  | boolean value =>
    cases secondWritten with
    | boolean other =>
      have values : ∀ one other, (ShownLeaf.boolean one).content =
          (ShownLeaf.boolean other).content → one = other := by decide
      rw [values value other same]
    | integer n => exact absurd spelled.symm ((isNumeral_integer n).ne_boolean value)
    | literal numeral _ => exact absurd spelled.symm (numeral.ne_boolean value)
    | dotted _ _ =>
      rw [content_dotted] at same
      exact absurd same (boolean_ne_dotted value _ _)
  | integer n =>
    cases secondWritten with
    | boolean other => exact absurd spelled ((isNumeral_integer n).ne_boolean other)
    | integer m =>
      have sameText : toString n = toString m := same
      rw [Int.toString_eq_repr, Int.toString_eq_repr] at sameText
      rw [Int.repr_inj.mp sameText]
    | literal _ marked => exact absurd same (integer_ne_literal n marked)
    | dotted _ noNumeral =>
      rw [content_dotted] at spelled
      exact absurd spelled ((isNumeral_integer n).ne_dotted noNumeral)
  | literal numeral marked =>
    cases secondWritten with
    | boolean other => exact absurd spelled (numeral.ne_boolean other)
    | integer m => exact absurd same.symm (integer_ne_literal m marked)
    | literal _ _ => exact congrArg ShownLeaf.literal same
    | dotted _ noNumeral =>
      rw [content_dotted] at spelled
      exact absurd spelled (numeral.ne_dotted noNumeral)
  | @dotted type last noDot noNumeral =>
    rw [content_dotted] at same spelled
    cases secondWritten with
    | boolean other => exact absurd same.symm (boolean_ne_dotted other _ _)
    | integer m => exact absurd spelled.symm ((isNumeral_integer m).ne_dotted noNumeral)
    | literal numeral _ => exact absurd spelled.symm (numeral.ne_dotted noNumeral)
    | @dotted otherType otherLast otherNoDot _ =>
      rw [content_dotted] at spelled
      simp only [String.toList_append, List.append_assoc] at spelled
      obtain ⟨sameType, sameLast⟩ := append_inj_of_last noDot otherNoDot spelled
      rw [String.toList_inj.mp sameType, String.toList_inj.mp sameLast]

end ShownLeaf

namespace ElementLeaf

/-- A constant that its type and its name tell from all others, and from
numbers. -/
structure IsConstantName (type constant : String) : Prop where
  typeName : IsName type
  constantName : IsName constant
  simple : '.' ∉ constant.toList
  noClass : constant ≠ "class"
  noNumeral : ¬ StartsNumeral type.toList

/-- A leaf whose names are names; the name of a class may be that of an array
type. -/
def IsNamed : ElementLeaf → Prop
  | .enumConstant type constant => IsConstantName type constant
  | .classLiteral name => Bare name.toList ∧ StartsWith (fun c => ¬ IsDelimiter c) name.toList
  | _ => True

theorem IsNamed.isWritten {leaf : ElementLeaf} (named : leaf.IsNamed)
    (unquoted : ¬ leaf.IsQuoted) : leaf.shown.IsWritten := by
  cases leaf with
  | string | char => exact absurd trivial unquoted
  | boolean value => exact .boolean value
  | byte | short | int | long => exact .integer _
  | float value =>
    exact .literal (isNumeral_number (by decide) value.bits.toNat) (number_marked _ _)
  | double value =>
    exact .literal (isNumeral_number (by decide) value.bits.toNat) (number_marked _ _)
  | enumConstant type constant =>
    have written := ShownLeaf.IsWritten.dotted named.simple (Or.inr named.noNumeral)
    rwa [ShownLeaf.dotted, if_neg named.noClass] at written
  | classLiteral name =>
    have written : (ShownLeaf.dotted name "class").IsWritten := .dotted (by decide) (Or.inl rfl)
    exact written

theorem IsNamed.isSpelled {leaf : ElementLeaf} (named : leaf.IsNamed) : leaf.IsSpelled := by
  have numeral : ∀ {leaf : ElementLeaf}, IsNumeral leaf.content.toList → leaf.IsSpelled := by
    intro leaf isNumeral
    refine isSpelled_of_isName isNumeral.noDelimiter fun empty => ?_
    have begins := isNumeral.begins
    rw [empty] at begins
    exact absurd begins (by simp [StartsWith])
  cases leaf with
  | string | char => exact Or.inl trivial
  | boolean value =>
    cases value with
    | false => exact isSpelled_of_isName (by decide) (by decide)
    | true => exact isSpelled_of_isName (by decide) (by decide)
  | byte | short | int | long => exact numeral (isNumeral_integer _)
  | float value => exact numeral (isNumeral_number (by decide) value.bits.toNat)
  | double value => exact numeral (isNumeral_number (by decide) value.bits.toNat)
  | enumConstant type constant =>
    refine isSpelled_of_isName
      (isName_append (isName_append named.typeName (by decide)) named.constantName) ?_
    simp [content, text]
  | classLiteral name =>
    obtain ⟨bare, c, tail, begins, noDelimiter⟩ := named
    refine Or.inr ?_
    have spelled : (content (.classLiteral name)).toList = name.toList ++ ".class".toList :=
      String.toList_append
    rw [spelled]
    have ending : IsName ".class" := by decide
    refine ⟨bare.append ending.bare, ?_⟩
    rw [begins]
    exact startsWith_cons noDelimiter _

/-- Leaves with names that are names have the same content exactly if they show
the same. -/
theorem content_eq_iff {first second : ElementLeaf} (firstNamed : first.IsNamed)
    (secondNamed : second.IsNamed) :
    first.content = second.content ↔ first.shown = second.shown := by
  constructor
  · intro same
    refine ElementValue.leaf_eq_of_content_eq firstNamed.isSpelled secondNamed.isSpelled ?_ same
    intro unquoted otherUnquoted sameContent
    rw [content_eq, content_eq] at sameContent
    exact (firstNamed.isWritten unquoted).content_inj (secondNamed.isWritten otherUnquoted)
      sameContent
  · intro sameShown
    rw [content_eq, content_eq, sameShown]

end ElementLeaf

namespace ElementValue

/-- A value whose names are names. -/
abbrev Named : ElementValue → Prop :=
  Legible ElementLeaf.IsNamed

theorem Named.spelled {value : ElementValue} (named : value.Named) : value.Spelled :=
  named.mono fun _ => ElementLeaf.IsNamed.isSpelled

/-- Values with names that are names have the same content exactly if they show
the same. -/
theorem Named.content_eq_iff {first second : ElementValue} (firstNamed : first.Named)
    (secondNamed : second.Named) :
    first.content = second.content ↔
      first.outline ElementLeaf.shown = second.outline ElementLeaf.shown := by
  rw [Spelled.content_eq_iff firstNamed.spelled secondNamed.spelled]
  constructor
  · exact firstNamed.outline_eq (fun _ _ firstLeaf secondLeaf =>
      (ElementLeaf.content_eq_iff firstLeaf secondLeaf).mp) secondNamed
  · exact firstNamed.outline_eq (fun _ _ firstLeaf secondLeaf =>
      (ElementLeaf.content_eq_iff firstLeaf secondLeaf).mpr) secondNamed

end ElementValue

/-! ## Annotations -/

namespace AnnotationUse

/-- An annotation whose keys and values have names that are names; its own name
may be any text. -/
structure Named (usage : AnnotationUse) : Prop where
  keys : ∀ element ∈ usage.elements, IsName element.1
  values : ∀ element ∈ usage.elements, element.2.Named

/-- What the content of the annotation shows of its elements. -/
def shown (usage : AnnotationUse) : List (String × ElementValue.Outline ShownLeaf) :=
  ElementValue.elementOutlines ElementLeaf.shown usage.elements

/-- Annotations of one name have the same content exactly if they have the same
elements up to the types of numbers. -/
theorem Named.content_eq_iff {first second : AnnotationUse} (firstNamed : first.Named)
    (secondNamed : second.Named) (sameName : first.name = second.name) :
    Entity.content first = Entity.content second ↔ first.shown = second.shown := by
  -- The name is not in doubt, so that a plain one may stand for it.
  have renamed : Entity.content first = Entity.content second ↔
      (ElementValue.nested "" first.elements).content =
        (ElementValue.nested "" second.elements).content := by
    have spelled : ∀ name elements, (ElementValue.nested name elements).content.toList =
        "A\x7bN=".toList ++ (name.toList ++ ElementValue.afterName elements []) := by
      intro name elements
      rw [← ElementValue.toList_content_nested, List.append_nil]
    change first.toValue.content = second.toValue.content ↔ _
    rw [toValue, toValue, sameName, ← String.toList_inj, ← String.toList_inj, spelled, spelled,
      spelled, spelled]
    simp
  have legible : ∀ {usage : AnnotationUse}, usage.Named →
      (ElementValue.nested "" usage.elements).Named :=
    fun named => .nested (by decide) named.keys named.values
  rw [renamed, (legible firstNamed).content_eq_iff (legible secondNamed)]
  simp [ElementValue.outline, shown]

end AnnotationUse

end JvmDiff
