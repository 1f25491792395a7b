import JvmDiff.Proofs.Content.Reading
import JvmDiff.Proofs.Signature.Rendered

/-!
# Brackets in source forms

The brackets around the type arguments of a source form match.  Where one type ends can therefore
be seen from the brackets: at the first comma that stands outside of them.
-/

namespace JvmDiff.Signature

/-! ## Matching brackets -/

/-- Texts before a mark, if none of their kind goes on over the mark. -/
theorem append_inj_of_noOverrun {mark : Char} {isWhole : List Char → Prop}
    (noOverrun : ∀ text between, isWhole text → ¬ isWhole (text ++ mark :: between))
    {first second rest other : List Char} (firstWhole : isWhole first)
    (secondWhole : isWhole second) (same : first ++ mark :: rest = second ++ mark :: other) :
    first = second ∧ rest = other := by
  rcases List.append_eq_append_iff.mp same with ⟨between, rfl, isRest⟩ | ⟨between, rfl, isOther⟩
  · cases between with
    | nil => exact ⟨(List.append_nil _).symm, (List.cons.inj isRest).2⟩
    | cons c between =>
      rw [← (List.cons.inj isRest).1] at secondWhole
      exact absurd secondWhole (noOverrun _ _ firstWhole)
  · cases between with
    | nil => exact ⟨List.append_nil _, (List.cons.inj isOther).2.symm⟩
    | cons c between =>
      rw [← (List.cons.inj isOther).1] at firstWhole
      exact absurd firstWhole (noOverrun _ _ secondWhole)

/-- Brackets are closed after they were opened, and all of them. -/
structure Nested (text : List Char) : Prop where
  even : text.count '<' = text.count '>'
  opened : ∀ before after, text = before ++ after → before.count '>' ≤ before.count '<'

namespace Nested

theorem of_plain {text : List Char} (noOpening : '<' ∉ text) (noClosing : '>' ∉ text) :
    Nested text where
  even := by rw [List.count_eq_zero_of_not_mem noOpening, List.count_eq_zero_of_not_mem noClosing]
  opened := by
    rintro before after rfl
    rw [List.count_eq_zero_of_not_mem fun member => noClosing (List.mem_append_left _ member)]
    exact Nat.zero_le _

theorem append {first second : List Char} (firstNested : Nested first)
    (secondNested : Nested second) : Nested (first ++ second) where
  even := by rw [List.count_append, List.count_append, firstNested.even, secondNested.even]
  opened := by
    intro before after parted
    rcases List.append_eq_append_iff.mp parted with
      ⟨between, rfl, isSecond⟩ | ⟨between, isFirst, _⟩
    · have even := firstNested.even
      have opened := secondNested.opened between after isSecond
      rw [List.count_append, List.count_append]
      omega
    · exact firstNested.opened before between isFirst

theorem brackets {text : List Char} (nested : Nested text) : Nested ('<' :: (text ++ ['>'])) where
  even := by simp [nested.even]
  opened := by
    intro before after parted
    cases before with
    | nil => exact Nat.le_refl _
    | cons c before =>
      rw [List.cons_append] at parted
      injection parted with isOpening partedText
      subst isOpening
      rcases List.append_eq_append_iff.mp partedText with
        ⟨between, rfl, isEnd⟩ | ⟨between, isText, _⟩
      · have even := nested.even
        have short : between.count '>' ≤ 1 := by
          have counted := congrArg (List.count '>') isEnd
          rw [List.count_append] at counted
          simp at counted
          omega
        simp only [List.count_cons, List.count_append, beq_self_eq_true, if_true]
        simp only [beq_iff_eq, Char.reduceEq, if_false]
        omega
      · have opened := nested.opened before between isText
        simp only [List.count_cons, beq_self_eq_true, if_true]
        simp only [beq_iff_eq, Char.reduceEq, if_false]
        omega

/-- A bracket that closes none before it ends the text inside. -/
theorem closing_inj {first second rest other : List Char} (firstNested : Nested first)
    (secondNested : Nested second) (same : first ++ '>' :: rest = second ++ '>' :: other) :
    first = second ∧ rest = other := by
  refine append_inj_of_noOverrun ?_ firstNested secondNested same
  -- A longer text would hold the bracket that closes the shorter one.
  intro text between textNested longerNested
  have opened := longerNested.opened (text ++ ['>']) between (by simp)
  have even := textNested.even
  have closes : ['>'].count '>' = 1 ∧ ['>'].count '<' = 0 := by decide
  rw [List.count_append, List.count_append, closes.1, closes.2] at opened
  omega

theorem commaSeparated {texts : List (List Char)} (nested : ∀ text ∈ texts, Nested text) :
    Nested (commaSeparated texts) := by
  cases texts with
  | nil => exact of_plain (by decide) (by decide)
  | cons text texts =>
    obtain ⟨textNested, textsNested⟩ := List.forall_mem_cons.mp nested
    rw [Signature.commaSeparated, intercalate_cons]
    refine textNested.append ?_
    induction texts with
    | nil => exact of_plain (by decide) (by decide)
    | cons next texts inductionHypothesis =>
      obtain ⟨nextNested, laterNested⟩ := List.forall_mem_cons.mp textsNested
      have separator : Nested [',', ' '] := of_plain (by decide) (by decide)
      rw [List.flatMap_cons]
      exact (separator.append nextNested).append
        (inductionHypothesis (List.forall_mem_cons.mpr ⟨textNested, laterNested⟩) laterNested)

end Nested

theorem Identifier.nested (name : Identifier) : Nested name.chars :=
  Nested.of_plain (name.not_mem '<' (by decide)) (name.not_mem '>' (by decide))

theorem nested_pathShown (package : List Identifier) : Nested (pathShown package) := by
  induction package with
  | nil => exact Nested.of_plain (by decide) (by decide)
  | cons name package inductionHypothesis =>
    have dot : Nested ['.'] := Nested.of_plain (by decide) (by decide)
    exact (name.nested.append dot).append inductionHypothesis

theorem nested_listShown {texts : List (List Char)} (nested : ∀ text ∈ texts, Nested text) :
    Nested (listShown texts) := by
  rw [listShown]
  split
  · exact Nested.of_plain (by decide) (by decide)
  · exact (Nested.commaSeparated nested).brackets

mutual

theorem JavaType.nested_shown : ∀ type : JavaType, Nested type.shown
  | .base type => by cases type <;> exact Nested.of_plain (by decide) (by decide)
  | .reference type => type.nested_shown

theorem ReferenceType.nested_shown : ∀ type : ReferenceType, Nested type.shown
  | .variable name => name.nested
  | .array element => by
      have brackets : Nested ['[', ']'] := Nested.of_plain (by decide) (by decide)
      exact element.nested_shown.append brackets
  | .ofClass type => type.nested_shown

theorem ClassType.nested_shown : ∀ type : ClassType, Nested type.shown
  | .mk package outer members =>
      ((nested_pathShown package).append outer.nested_shown).append (nested_membersShown members)

theorem Segment.nested_shown : ∀ segment : Segment, Nested segment.shown
  | .mk name arguments => name.nested.append (nested_listShown (nested_argumentsShown arguments))

theorem nested_membersShown : ∀ members : List Segment, Nested (membersShown members)
  | [] => Nested.of_plain (by decide) (by decide)
  | member :: members => by
      have dot : Nested ['.'] := Nested.of_plain (by decide) (by decide)
      exact dot.append (member.nested_shown.append (nested_membersShown members))

theorem TypeArgument.nested_shown : ∀ argument : TypeArgument, Nested argument.shown
  | .any => Nested.of_plain (by decide) (by decide)
  | .bounded bound type => by
      have words : Nested (boundShown bound) := by
        cases bound <;> exact Nested.of_plain (by decide) (by decide)
      exact words.append type.nested_shown

theorem nested_argumentsShown :
    ∀ arguments : List TypeArgument, ∀ text ∈ argumentsShown arguments, Nested text
  | [] => fun _ member => nomatch member
  | argument :: arguments =>
      List.forall_mem_cons.mpr ⟨argument.nested_shown, nested_argumentsShown arguments⟩

end

/-! ## Lists of types -/

/-- The text of one type: its commas stand between brackets. -/
structure IsOneType (text : List Char) : Prop where
  nested : Nested text
  deep : ∀ before after, text = before ++ ',' :: after → before.count '>' < before.count '<'

namespace IsOneType

theorem of_plain {text : List Char} (nested : Nested text) (noComma : ',' ∉ text) :
    IsOneType text where
  nested := nested
  deep := by
    rintro before after rfl
    exact absurd (List.mem_append_right before List.mem_cons_self) noComma

theorem append {first second : List Char} (firstOne : IsOneType first)
    (secondOne : IsOneType second) : IsOneType (first ++ second) where
  nested := firstOne.nested.append secondOne.nested
  deep := by
    have beyond : ∀ {between after}, second = between ++ ',' :: after →
        (first ++ between).count '>' < (first ++ between).count '<' := by
      intro between after isSecond
      have deep := secondOne.deep between after isSecond
      have even := firstOne.nested.even
      rw [List.count_append, List.count_append]
      omega
    intro before after parted
    rcases List.append_eq_append_iff.mp parted with
      ⟨between, rfl, isSecond⟩ | ⟨between, isFirst, isRest⟩
    · exact beyond isSecond
    · cases between with
      | nil =>
        rw [List.append_nil] at isFirst
        rw [← isFirst, ← List.append_nil first]
        exact beyond isRest.symm
      | cons c between =>
        rw [← (List.cons.inj isRest).1] at isFirst
        exact firstOne.deep before between isFirst

theorem brackets {text : List Char} (nested : Nested text) :
    IsOneType ('<' :: (text ++ ['>'])) where
  nested := nested.brackets
  deep := by
    intro before after parted
    cases before with
    | nil => cases parted
    | cons c before =>
      rw [List.cons_append] at parted
      injection parted with isOpening partedText
      subst isOpening
      -- The comma is not the bracket at the end, so what is before it begins the text.
      rcases List.append_eq_append_iff.mp partedText with
        ⟨between, rfl, isEnd⟩ | ⟨between, isText, _⟩
      · cases between with
        | nil => cases isEnd
        | cons d between =>
          have lengths := congrArg List.length isEnd
          simp at lengths
      · have opened := nested.opened before between isText
        simp only [List.count_cons, beq_self_eq_true, if_true]
        simp only [beq_iff_eq, Char.reduceEq, if_false]
        omega

/-- The comma after a type ends it. -/
theorem append_inj {first second rest other : List Char} (firstOne : IsOneType first)
    (secondOne : IsOneType second) (same : first ++ ',' :: rest = second ++ ',' :: other) :
    first = second ∧ rest = other := by
  refine append_inj_of_noOverrun ?_ firstOne secondOne same
  intro text between textOne longerOne
  have deep := longerOne.deep text between rfl
  rw [textOne.nested.even] at deep
  exact Nat.lt_irrefl _ deep

end IsOneType

/-- The types of a list are those between the commas outside of brackets. -/
theorem commaSeparated_inj {first second : List (List Char)}
    (firstTypes : ∀ text ∈ first, IsOneType text ∧ text ≠ [])
    (secondTypes : ∀ text ∈ second, IsOneType text ∧ text ≠ [])
    (same : commaSeparated first = commaSeparated second) : first = second := by
  have begins : ∀ {text : List Char}, IsOneType text ∧ text ≠ [] → ∀ after,
      id text ++ after ≠ [','] := by
    rintro text ⟨oneType, nonempty⟩ after isComma
    obtain ⟨c, rest, rfl⟩ := List.exists_cons_of_ne_nil nonempty
    rw [id, List.cons_append] at isComma
    injection isComma with comma _
    subst comma
    exact absurd (oneType.deep [] rest rfl) (Nat.lt_irrefl _)
  have ends : ∀ items : List (List Char),
      Text.StartsWith (Eq ',') (Text.behind [',', ' '] id [','] items) := by
    intro items
    cases items with
    | nil => exact Text.startsWith_cons rfl []
    | cons item items => exact Text.startsWith_cons rfl _
  refine (Text.intercalate_inj (Text.StartsWith (Eq ',')) ?_
    (fun text member => begins (firstTypes text member))
    (fun text member => begins (secondTypes text member)) ends ends (by simp) (by simp) ?_).1
  · rintro text member next nextMember _ _ ⟨_, rest, rfl, rfl⟩ ⟨_, other, rfl, rfl⟩ sameText
    obtain ⟨sameType, sameRest⟩ :=
      (firstTypes text member).1.append_inj (secondTypes next nextMember).1 sameText
    exact ⟨sameType, congrArg _ sameRest⟩
  · rw [List.map_id, List.map_id]
    exact congrArg (· ++ [',']) same

end JvmDiff.Signature
