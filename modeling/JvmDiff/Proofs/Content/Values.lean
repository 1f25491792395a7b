import Std.Data.String.ToInt
import JvmDiff.Proofs.Content.Members
import JvmDiff.Proofs.Content.Outline

/-!
# Element values read back

The content of an element value says which value it is, where names hold nothing that structures a
content and the numbers are of one type.  Texts and characters may hold anything, since they are
quoted.
-/

namespace JvmDiff

namespace Text

theorem integer_chars (n : Int) : ∀ c ∈ (toString n).toList, c.isDigit = true ∨ c = '-' := by
  intro c member
  rw [Int.toString_eq_repr, Int.repr_eq_if] at member
  split at member
  · exact Or.inl (isDigit_of_mem_natural member)
  · rw [String.toList_append, List.mem_append] at member
    rcases member with sign | digit
    · exact Or.inr (by simpa using sign)
    · exact Or.inl (isDigit_of_mem_natural digit)

theorem integer_nonempty (n : Int) : (toString n).toList ≠ [] := by
  have natural : ∀ n : Nat, n.repr.toList ≠ [] := by
    intro n
    rw [Nat.repr_eq_ofList_toDigits, String.toList_ofList]
    exact Nat.toDigits_ne_nil
  rw [Int.toString_eq_repr, Int.repr_eq_if]
  split
  · exact natural _
  · simp

end Text

open Text

/-! ## Leaves -/

namespace ElementLeaf

/-- A leaf that its content tells from all others: numbers must be of one type,
names be names, and no constant be named like the literal of a class. -/
def IsReadable : ElementLeaf → Prop
  | .string _ => True
  | .char _ => True
  | .boolean _ => True
  | .int _ => True
  | .classLiteral name => IsName name
  | .enumConstant type constant =>
      IsName type ∧ IsName constant ∧ '.' ∉ constant.toList ∧ constant ≠ "class"
  | _ => False

theorem isName_content {leaf : ElementLeaf} (readable : leaf.IsReadable)
    (unquoted : ¬ leaf.IsQuoted) : IsName leaf.content := by
  cases leaf with
  | string | char => exact absurd trivial unquoted
  | boolean value => cases value <;> decide
  | int value =>
    intro c member
    rcases integer_chars value.toInt c member with digit | rfl
    · exact fun isDelimiter => isDelimiter.not_isDigit digit
    · decide
  | classLiteral name => exact isName_append readable (by decide)
  | enumConstant type constant =>
    exact isName_append (isName_append readable.1 (by decide)) readable.2.1
  | _ => exact absurd readable id

/-- What stands after the last dot, if there is one. -/
theorem content_parts {leaf : ElementLeaf} (readable : leaf.IsReadable)
    (unquoted : ¬ leaf.IsQuoted) :
    (∃ value, leaf = .boolean value) ∨ (∃ value, leaf = .int value) ∨
      ∃ type last, '.' ∉ last.toList ∧ leaf.content = type ++ "." ++ last ∧
        leaf = if last = "class" then .classLiteral type else .enumConstant type last := by
  cases leaf with
  | string | char => exact absurd trivial unquoted
  | boolean value => exact Or.inl ⟨value, rfl⟩
  | int value => exact Or.inr (Or.inl ⟨value, rfl⟩)
  | classLiteral name =>
    refine Or.inr (Or.inr ⟨name, "class", by decide, ?_, rfl⟩)
    rw [String.append_assoc]
    rfl
  | enumConstant type constant =>
    exact Or.inr (Or.inr ⟨type, constant, readable.2.2.1, rfl, (if_neg readable.2.2.2).symm⟩)
  | _ => exact absurd readable id

theorem content_nonempty {leaf : ElementLeaf} (readable : leaf.IsReadable)
    (unquoted : ¬ leaf.IsQuoted) : leaf.content.toList ≠ [] := by
  rcases content_parts readable unquoted with
    ⟨value, rfl⟩ | ⟨number, rfl⟩ | ⟨type, last, _, parts, _⟩
  · cases value <;> decide
  · exact integer_nonempty number.toInt
  · simp [parts]

theorem IsReadable.isSpelled {leaf : ElementLeaf} (readable : leaf.IsReadable) :
    leaf.IsSpelled := by
  by_cases quoted : leaf.IsQuoted
  · exact Or.inl quoted
  · exact isSpelled_of_isName (isName_content readable quoted)
      (content_nonempty readable quoted)

theorem boolean_content_ne_int (value : Bool) (number : Int32) :
    (boolean value).content ≠ (int number).content := by
  intro same
  obtain ⟨c, member, isOther⟩ : ∃ c ∈ (boolean value).content.toList,
      ¬ (c.isDigit = true ∨ c = '-') := by
    cases value with
    | false => exact ⟨'f', by decide, by decide⟩
    | true => exact ⟨'t', by decide, by decide⟩
  rw [same] at member
  exact isOther (integer_chars number.toInt c member)

theorem boolean_content_ne_dotted (value : Bool) (type last : String) :
    (boolean value).content ≠ type ++ "." ++ last := by
  intro same
  have noDot : '.' ∉ (boolean value).content.toList := by
    cases value <;> decide
  rw [same] at noDot
  exact noDot (by simp)

theorem int_content_ne_dotted (number : Int32) (type last : String) :
    (int number).content ≠ type ++ "." ++ last := by
  intro same
  have member : '.' ∈ (int number).content.toList := by simp [same]
  exact absurd (integer_chars number.toInt '.' member) (by decide)

theorem content_inj {first second : ElementLeaf} (firstReadable : first.IsReadable)
    (secondReadable : second.IsReadable) (firstUnquoted : ¬ first.IsQuoted)
    (secondUnquoted : ¬ second.IsQuoted) (same : first.content = second.content) :
    first = second := by
  -- Only names have a dot, and only numbers have nothing but digits and a sign.
  rcases content_parts firstReadable firstUnquoted with
    ⟨value, rfl⟩ | ⟨number, rfl⟩ | ⟨type, last, noDot, parts, isFirst⟩
  · rcases content_parts secondReadable secondUnquoted with
      ⟨otherValue, rfl⟩ | ⟨otherNumber, rfl⟩ | ⟨otherType, otherLast, _, otherParts, _⟩
    · have values : ∀ one other, (boolean one).content = (boolean other).content →
          one = other := by decide
      rw [values value otherValue same]
    · exact absurd same (boolean_content_ne_int value otherNumber)
    · exact absurd (same.trans otherParts) (boolean_content_ne_dotted value _ _)
  · rcases content_parts secondReadable secondUnquoted with
      ⟨otherValue, rfl⟩ | ⟨otherNumber, rfl⟩ | ⟨otherType, otherLast, _, otherParts, _⟩
    · exact absurd same.symm (boolean_content_ne_int otherValue number)
    · have sameNumber : toString number.toInt = toString otherNumber.toInt := same
      rw [Int.toString_eq_repr, Int.toString_eq_repr] at sameNumber
      rw [Int32.toInt_inj.mp (Int.repr_inj.mp sameNumber)]
    · exact absurd (same.trans otherParts) (int_content_ne_dotted number _ _)
  · rcases content_parts secondReadable secondUnquoted with
      ⟨otherValue, rfl⟩ | ⟨otherNumber, rfl⟩ |
        ⟨otherType, otherLast, otherNoDot, otherParts, isSecond⟩
    · exact absurd (same.symm.trans parts) (boolean_content_ne_dotted otherValue _ _)
    · exact absurd (same.symm.trans parts) (int_content_ne_dotted otherNumber _ _)
    · have spelled := congrArg String.toList (parts.symm.trans (same.trans otherParts))
      simp only [String.toList_append, List.append_assoc] at spelled
      obtain ⟨sameType, sameLast⟩ := append_inj_of_last noDot otherNoDot spelled
      rw [isFirst, isSecond, String.toList_inj.mp sameType, String.toList_inj.mp sameLast]

end ElementLeaf

namespace ElementValue

/-! ## Values -/

/-- A value that its content tells from all others: its leaves and its names
can be read. -/
inductive Readable : ElementValue → Prop
  | leaf {value : ElementLeaf} (readable : value.IsReadable) : Readable (.leaf value)
  | array {items : List ElementValue} (each : ∀ item ∈ items, Readable item) :
      Readable (.array items)
  | nested {name : String} {elements : List (String × ElementValue)} (isName : IsName name)
      (keys : ∀ element ∈ elements, IsName element.1)
      (each : ∀ element ∈ elements, Readable element.2) : Readable (.nested name elements)

theorem Readable.legible {value : ElementValue} (readable : value.Readable) :
    value.Legible ElementLeaf.IsReadable := by
  induction readable with
  | leaf leafReadable => exact .leaf leafReadable
  | array _ inductionHypothesis => exact .array inductionHypothesis
  | nested isName keys _ inductionHypothesis =>
    exact .nested isName.isPlain keys inductionHypothesis

theorem Readable.spelled {value : ElementValue} (readable : value.Readable) : value.Spelled :=
  readable.legible.mono fun _ => ElementLeaf.IsReadable.isSpelled

/-- The value is told from any other, whatever follows it. -/
def IsTold (value : ElementValue) : Prop :=
  ∀ {second : ElementValue}, second.Readable → ∀ {rest other : List Char}, Closes rest →
    Closes other → value.content.toList ++ rest = second.content.toList ++ other →
      value = second ∧ rest = other

/-- Values that can be read are told from each other by their contents, at any
depth. -/
theorem Readable.isTold {value : ElementValue} (readable : value.Readable) : value.IsTold := by
  intro second secondReadable rest other restCloses otherCloses same
  obtain ⟨sameOutline, sameRest⟩ :=
    readable.spelled.showsOutline secondReadable.spelled restCloses otherCloses same
  have sameLeaves : value.outline id = second.outline id :=
    readable.legible.outline_eq
      (fun _ _ firstReadable otherReadable =>
        leaf_eq_of_content_eq firstReadable.isSpelled otherReadable.isSpelled
          (ElementLeaf.content_inj firstReadable otherReadable))
      secondReadable.legible sameOutline
  exact ⟨(outline_id_inj _ _).mp sameLeaves, sameRest⟩

end ElementValue

/-! ## Annotations -/

namespace AnnotationUse

/-- An annotation that is readable as a value. -/
def Readable (usage : AnnotationUse) : Prop :=
  usage.toValue.Readable

theorem toValue_injective : Function.Injective toValue := by
  intro first second same
  cases first
  cases second
  injection same with sameName sameElements
  subst sameName
  subst sameElements
  rfl

theorem Readable.content_inj {first second : AnnotationUse} (firstReadable : first.Readable)
    (secondReadable : second.Readable) {rest other : List Char} (restCloses : Closes rest)
    (otherCloses : Closes other)
    (same : (Entity.content first).toList ++ rest = (Entity.content second).toList ++ other) :
    first = second ∧ rest = other := by
  obtain ⟨sameValue, sameRest⟩ := ElementValue.Readable.isTold firstReadable secondReadable
    restCloses otherCloses same
  exact ⟨toValue_injective sameValue, sameRest⟩

/-- A list of annotations in a content says which annotations it has. -/
theorem contentList_inj {first second : List AnnotationUse}
    (firstReadable : ∀ usage ∈ first, usage.Readable)
    (secondReadable : ∀ usage ∈ second, usage.Readable) {rest other : List Char}
    (same : (Entity.contentList first).toList ++ rest =
      (Entity.contentList second).toList ++ other) : first = second ∧ rest = other := by
  rw [toList_contentList, toList_contentList] at same
  exact closed_list_inj rfl (by decide) (by decide)
    (fun usage member next nextMember {_ _} =>
      (firstReadable usage member).content_inj (secondReadable next nextMember))
    (fun usage member => ElementValue.Spelled.not_closes (firstReadable usage member).spelled)
    (fun usage member => ElementValue.Spelled.not_closes (secondReadable usage member).spelled)
    (List.cons.inj same).2

end AnnotationUse

end JvmDiff
