import Std.Data.String.ToNat
import JvmDiff.Proofs.Content.Reading

/-!
# Reading contents from their ends

The arguments of a method or constructor stand behind its annotations, whose values may hold any
text.  Read from its end, the content of a member gives its arguments away nevertheless: no plain
part follows a number sign inside an annotation, since the list of annotations ends in a brace.
-/

namespace JvmDiff

namespace Text

/-- Where a character stands for the last time is seen from the end. -/
theorem append_inj_of_last {mark : Char} {first second firstPart secondPart : List Char}
    (firstFree : mark ∉ firstPart) (secondFree : mark ∉ secondPart)
    (same : first ++ mark :: firstPart = second ++ mark :: secondPart) :
    first = second ∧ firstPart = secondPart := by
  rcases List.append_eq_append_iff.mp same with ⟨middle, rfl, rest⟩ | ⟨middle, rfl, rest⟩
  · cases middle with
    | nil =>
        injection rest with _ sameParts
        exact ⟨(List.append_nil first).symm, sameParts⟩
    | cons head tail =>
        injection rest with _ sameParts
        exact absurd (sameParts ▸ List.mem_append_right tail List.mem_cons_self) firstFree
  · cases middle with
    | nil =>
        injection rest with _ sameParts
        exact ⟨List.append_nil second, sameParts.symm⟩
    | cons head tail =>
        injection rest with _ sameParts
        exact absurd (sameParts ▸ List.mem_append_right tail List.mem_cons_self) secondFree

/-- A part of a content from its label on, without the number sign. -/
def IsPart (label : Char) (part : List Char) : Prop :=
  part.head? = some label ∧ ∀ c ∈ part, ¬ IsMark c

/-- The characters do not end in a part with the label. -/
def NotLast (label : Char) (chars : List Char) : Prop :=
  ∀ before part, chars = before ++ '#' :: part → ¬ IsPart label part

theorem IsPart.noLabel {label : Char} {part : List Char} (isPart : IsPart label part) :
    '#' ∉ part := by
  intro member
  exact isPart.2 '#' member (Or.inl rfl)

theorem notLast_of_noLabel {chars : List Char} (label : Char) (free : '#' ∉ chars) :
    NotLast label chars := by
  rintro before part rfl _
  exact free (List.mem_append_right before List.mem_cons_self)

/-- A list of entities ends in a brace. -/
theorem notLast_of_braced (label : Char) (front : List Char) :
    NotLast label (front ++ ['\x7d', ']']) := by
  rintro before part same ⟨_, unmarked⟩
  -- Read from the end, the bracket is followed by a brace, which no part holds.
  have reversed := congrArg List.reverse same
  simp only [List.reverse_append, List.reverse_cons, List.reverse_nil, List.nil_append,
    List.append_assoc, List.cons_append] at reversed
  have unmarkedReverse : ∀ c ∈ part.reverse, ¬ IsMark c := by
    intro c member
    exact unmarked c (List.mem_reverse.mp member)
  cases reading : part.reverse with
  | nil =>
      rw [reading] at reversed
      simp at reversed
  | cons last others =>
      rw [reading] at reversed unmarkedReverse
      cases others with
      | nil => simp at reversed
      | cons second others =>
          have brace : '\x7d' = second := by
            simpa using (List.cons.inj (List.cons.inj reversed).2).1
          apply unmarkedReverse second
          · exact List.mem_cons_of_mem last List.mem_cons_self
          · exact Or.inr brace.symm

theorem notLast_of_part {label other : Char} (different : other ≠ label) (front : List Char)
    {part : List Char} (isPart : IsPart other part) : NotLast label (front ++ '#' :: part) := by
  intro before otherPart same otherIsPart
  have parts := (append_inj_of_last isPart.noLabel otherIsPart.noLabel same).2
  have labels : some other = some label := by
    rw [← isPart.1, parts, otherIsPart.1]
  exact different (Option.some.inj labels)

/-- A part that may be missing. -/
def optionalPart : Option (List Char) → List Char
  | none => []
  | some part => '#' :: part

theorem notLast_optionalPart {label other : Char} (different : other ≠ label)
    {front : List Char} (frontOther : NotLast label front) {part : Option (List Char)}
    (isPart : ∀ chars ∈ part, IsPart other chars) :
    NotLast label (front ++ optionalPart part) := by
  cases part with
  | none => simpa [optionalPart] using frontOther
  | some chars => exact notLast_of_part different front (isPart chars rfl)

/-- A part at the end that may be missing is there or not, whatever stands
before it. -/
theorem optionalPart_inj {label : Char} {first second : List Char}
    {firstPart secondPart : Option (List Char)} (firstOther : NotLast label first)
    (secondOther : NotLast label second) (firstIsPart : ∀ part ∈ firstPart, IsPart label part)
    (secondIsPart : ∀ part ∈ secondPart, IsPart label part)
    (same : first ++ optionalPart firstPart = second ++ optionalPart secondPart) :
    first = second ∧ firstPart = secondPart := by
  cases firstPart with
  | none =>
      cases secondPart with
      | none => exact ⟨by simpa [optionalPart] using same, rfl⟩
      | some part =>
          have ends : first = second ++ '#' :: part := by
            simpa [optionalPart] using same
          exact absurd (secondIsPart part rfl) (firstOther second part ends)
  | some part =>
      cases secondPart with
      | none =>
          have ends : second = first ++ '#' :: part := by
            simpa [optionalPart] using same.symm
          exact absurd (firstIsPart part rfl) (secondOther first part ends)
      | some otherPart =>
          obtain ⟨sameFirst, sameParts⟩ := append_inj_of_last (firstIsPart part rfl).noLabel
            (secondIsPart otherPart rfl).noLabel same
          exact ⟨sameFirst, congrArg some sameParts⟩

end Text

open Text

/-! ## Annotations before the arguments -/

theorem AnnotationUse.ends_content (usage : AnnotationUse) :
    ∃ front, (Entity.content usage).toList = front ++ ['\x7d'] := by
  rw [toList_content, contentRest, ← List.append_assoc, ← List.append_assoc]
  exact ⟨_, rfl⟩

theorem AnnotationUse.ends_intercalate (first : AnnotationUse) (others : List AnnotationUse) :
    ∃ front, (",".intercalate ((first :: others).map Entity.content)).toList =
      front ++ ['\x7d'] := by
  induction others generalizing first with
  | nil => simpa using first.ends_content
  | cons second others inductionHypothesis =>
      obtain ⟨front, ends⟩ := inductionHypothesis second
      refine ⟨((Entity.content first ++ ",").toList ++ front), ?_⟩
      rw [List.map_cons, List.map_cons, String.intercalate_cons_cons, String.toList_append,
        ← List.map_cons, ends, List.append_assoc]

namespace Member

/-- With or without annotations, no plain part ends what stands before the
arguments. -/
theorem notLast_annotations {label : Char} {head : List Char} (headOther : NotLast label head)
    (annotations : List AnnotationUse) :
    NotLast label (head ++ (contentPart "A" Entity.contentList annotations).toList) := by
  cases annotations with
  | nil => simpa [contentPart] using headOther
  | cons first others =>
      obtain ⟨front, ends⟩ := AnnotationUse.ends_intercalate first others
      have braced : head ++ (contentPart "A" Entity.contentList (first :: others)).toList =
          (head ++ "#A=[".toList ++ front) ++ ['\x7d', ']'] := by
        simp only [contentPart, Entity.contentList, bracketed, String.toList_append, ends]
        simp
      rw [braced]
      exact notLast_of_braced label _

/-- The part for the arguments of a member. -/
def argumentsPart (arguments : String) : Option (List Char) :=
  if arguments = "" then none else some ("R=" ++ arguments).toList

/-- The part for the exceptions of a member. -/
def exceptionsPart : List String → Option (List Char)
  | [] => none
  | exceptions => some ("E=" ++ bracketed exceptions).toList

theorem isPart_arguments {arguments : String} (plain : IsPlain arguments) :
    ∀ part ∈ argumentsPart arguments, IsPart 'R' part := by
  intro part member
  rw [argumentsPart] at member
  split at member
  · cases member
  · cases member
    exact ⟨by simp, isPlain_append (by decide) plain⟩

theorem isPart_exceptions {exceptions : List String}
    (plain : ∀ exception ∈ exceptions, IsPlain exception) :
    ∀ part ∈ exceptionsPart exceptions, IsPart 'E' part := by
  intro part member
  cases exceptions with
  | nil => cases member
  | cons first others =>
      cases member
      exact ⟨by simp, isPlain_append (by decide) (isPlain_bracketed plain)⟩

theorem argumentsPart_injective {first second : String}
    (same : argumentsPart first = argumentsPart second) : first = second := by
  rw [argumentsPart, argumentsPart] at same
  by_cases firstEmpty : first = ""
  · by_cases secondEmpty : second = ""
    · rw [firstEmpty, secondEmpty]
    · simp [firstEmpty, secondEmpty] at same
  · by_cases secondEmpty : second = ""
    · simp [firstEmpty, secondEmpty] at same
    · simp only [firstEmpty, secondEmpty, if_false, String.toList_append,
        Option.some.injEq] at same
      exact String.toList_inj.mp (List.append_cancel_left same)

/-- The content of a member: its head, its annotations, its arguments, its
exceptions. -/
theorem toList_contentTail (annotations : List AnnotationUse) (arguments : String)
    (exceptions : List String) :
    (contentTail annotations arguments exceptions).toList =
      (contentPart "A" Entity.contentList annotations).toList ++
        optionalPart (argumentsPart arguments) ++ optionalPart (exceptionsPart exceptions) ++
          ['\x7d'] := by
  have argumentsShown :
      (contentText "R" arguments).toList = optionalPart (argumentsPart arguments) := by
    by_cases empty : arguments = ""
    · simp [contentText, argumentsPart, empty, optionalPart]
    · simp [contentText, argumentsPart, empty, optionalPart]
  have exceptionsShown :
      (contentPart "E" bracketed exceptions).toList =
        optionalPart (exceptionsPart exceptions) := by
    cases exceptions with
    | nil => rfl
    | cons first others => simp [contentPart, exceptionsPart, optionalPart]
  simp only [contentTail, String.toList_append, argumentsShown, exceptionsShown]
  rfl

/-- The arguments and the exceptions can be told from what stands before them,
unless that ends in such a part itself. -/
theorem contentTail_inj {firstHead secondHead : List Char}
    (firstOther : ∀ label ∈ ['R', 'E'], NotLast label firstHead)
    (secondOther : ∀ label ∈ ['R', 'E'], NotLast label secondHead)
    {firstUses secondUses : List AnnotationUse} {firstArguments secondArguments : String}
    {firstExceptions secondExceptions : List String} (firstPlain : IsPlain firstArguments)
    (secondPlain : IsPlain secondArguments)
    (firstExceptionsPlain : ∀ exception ∈ firstExceptions, IsPlain exception)
    (secondExceptionsPlain : ∀ exception ∈ secondExceptions, IsPlain exception)
    (same : firstHead ++ (contentTail firstUses firstArguments firstExceptions).toList =
      secondHead ++ (contentTail secondUses secondArguments secondExceptions).toList) :
    firstHead ++ (contentPart "A" Entity.contentList firstUses).toList =
        secondHead ++ (contentPart "A" Entity.contentList secondUses).toList ∧
      firstArguments = secondArguments ∧
      exceptionsPart firstExceptions = exceptionsPart secondExceptions := by
  rw [toList_contentTail, toList_contentTail] at same
  simp only [← List.append_assoc] at same
  have unclosed := List.append_cancel_right same
  have firstUsesOther : ∀ label ∈ ['R', 'E'], NotLast label
      (firstHead ++ (contentPart "A" Entity.contentList firstUses).toList) := by
    intro label member
    exact notLast_annotations (firstOther label member) firstUses
  have secondUsesOther : ∀ label ∈ ['R', 'E'], NotLast label
      (secondHead ++ (contentPart "A" Entity.contentList secondUses).toList) := by
    intro label member
    exact notLast_annotations (secondOther label member) secondUses
  obtain ⟨toArguments, sameExceptions⟩ := optionalPart_inj
    (notLast_optionalPart (by decide) (firstUsesOther 'E' (by decide))
      (isPart_arguments firstPlain))
    (notLast_optionalPart (by decide) (secondUsesOther 'E' (by decide))
      (isPart_arguments secondPlain))
    (isPart_exceptions firstExceptionsPlain) (isPart_exceptions secondExceptionsPlain) unclosed
  obtain ⟨toUses, sameArguments⟩ := optionalPart_inj (firstUsesOther 'R' (by decide))
    (secondUsesOther 'R' (by decide)) (isPart_arguments firstPlain)
    (isPart_arguments secondPlain) toArguments
  exact ⟨toUses, argumentsPart_injective sameArguments, sameExceptions⟩

end Member

/-! ## Constructors and methods -/

/-- What stands before the annotations of a constructor. -/
def Constructor.contentHead (constructor : Constructor) : String :=
  "CT\x7bD=" ++ toString constructor.access.raw

/-- What stands before the annotations of a method. -/
def Method.contentHead (method : Method) : String :=
  "M\x7bN=" ++ method.simpleName ++ contentText "G" method.genericTypes ++
    "#T=" ++ method.returnType ++ "#D=" ++ toString method.access.raw

theorem Constructor.notLast_contentHead (constructor : Constructor) (label : Char) :
    NotLast label constructor.contentHead.toList := by
  apply notLast_of_noLabel
  intro member
  exact isPlain_append (by decide) (isPlain_natural constructor.access.raw) '#' member
    (Or.inl rfl)

/-- The part for the flags of a method stands last. -/
theorem Method.notLast_contentHead (method : Method) {label : Char} (different : 'D' ≠ label) :
    NotLast label method.contentHead.toList := by
  have flags : IsPart 'D' ("D=" ++ toString method.access.raw).toList :=
    ⟨by simp, isPlain_append (by decide) (isPlain_natural method.access.raw)⟩
  have ends := notLast_of_part different
    ("M\x7bN=" ++ method.simpleName ++ contentText "G" method.genericTypes ++ "#T=" ++
      method.returnType).toList flags
  simpa [contentHead] using ends

/-- Constructors with the same content take the same arguments. -/
theorem Constructor.arguments_eq_of_content_eq {first second : Constructor}
    (firstPlain : IsPlain first.arguments) (secondPlain : IsPlain second.arguments)
    (firstExceptionsPlain : ∀ exception ∈ first.exceptions, IsPlain exception)
    (secondExceptionsPlain : ∀ exception ∈ second.exceptions, IsPlain exception)
    (same : first.content = second.content) : first.arguments = second.arguments := by
  have spelled := congrArg String.toList same
  have headed : ∀ constructor : Constructor, constructor.content = constructor.contentHead ++
      Member.contentTail constructor.annotations constructor.arguments
        constructor.exceptions := fun _ => rfl
  rw [headed, headed, String.toList_append, String.toList_append] at spelled
  exact (Member.contentTail_inj (fun label _ => first.notLast_contentHead label)
    (fun label _ => second.notLast_contentHead label) firstPlain secondPlain
    firstExceptionsPlain secondExceptionsPlain spelled).2.1

/-- Methods with the same content have one name and take the same arguments. -/
theorem Method.identity_eq_of_content_eq {first second : Method}
    (firstName : IsPlain first.simpleName) (secondName : IsPlain second.simpleName)
    (firstPlain : IsPlain first.arguments) (secondPlain : IsPlain second.arguments)
    (firstExceptionsPlain : ∀ exception ∈ first.exceptions, IsPlain exception)
    (secondExceptionsPlain : ∀ exception ∈ second.exceptions, IsPlain exception)
    (same : first.content = second.content) :
    first.simpleName = second.simpleName ∧ first.arguments = second.arguments := by
  have spelled := congrArg String.toList same
  constructor
  · simp only [content, String.toList_append, List.append_assoc] at spelled
    have afterLabel := List.append_cancel_left spelled
    refine (append_inj_of_plain firstName secondName ?_ ?_ afterLabel).1
    · exact atMark_contentText "G" first.genericTypes (atMark_label _)
    · exact atMark_contentText "G" second.genericTypes (atMark_label _)
  · have headed : ∀ method : Method, method.content = method.contentHead ++
        Member.contentTail method.annotations method.arguments method.exceptions := fun _ => rfl
    rw [headed, headed, String.toList_append, String.toList_append] at spelled
    have others : ∀ label ∈ ['R', 'E'], 'D' ≠ label := by simp
    exact (Member.contentTail_inj
      (fun label member => first.notLast_contentHead (others label member))
      (fun label member => second.notLast_contentHead (others label member)) firstPlain
      secondPlain firstExceptionsPlain secondExceptionsPlain spelled).2.1

/-- The number of a set of flags says which flags they are. -/
theorem Access.eq_of_toString_raw_eq {first second : Access}
    (same : toString first.raw = toString second.raw) : first = second := by
  have sameRaw : first.raw = second.raw := Nat.repr_inj.mp same
  cases first
  cases second
  exact congrArg Access.mk (UInt32.toNat_inj.mp sameRaw)

/-- The flags of an entry stand behind the last number sign, so that any name can
be read back. -/
theorem InnerClass.eq_of_content_eq {first second : InnerClass}
    (same : first.content = second.content) : first = second := by
  have headed : ∀ entry : InnerClass, entry.content.toList =
      "IC\x7bN=".toList ++ (entry.name.toList ++
        '#' :: ("D=".toList ++ ((toString entry.access.raw).toList ++ ['\x7d']))) := by
    intro entry
    simp only [content, String.toList_append, List.append_assoc]
    rfl
  have noLabel : ∀ access : Access,
      '#' ∉ "D=".toList ++ ((toString access.raw).toList ++ ['\x7d']) := by
    intro access member
    simp only [List.mem_append, List.mem_singleton] at member
    rcases member with inLabel | inNumber | closing
    · exact absurd inLabel (by decide)
    · exact isPlain_natural access.raw '#' inNumber (Or.inl rfl)
    · exact absurd closing (by decide)
  have spelled := congrArg String.toList same
  rw [headed, headed] at spelled
  obtain ⟨sameName, sameFlags⟩ := append_inj_of_last (noLabel first.access)
    (noLabel second.access) (List.append_cancel_left spelled)
  have sameNumber := List.append_cancel_right (List.append_cancel_left sameFlags)
  have sameAccess := Access.eq_of_toString_raw_eq (String.toList_inj.mp sameNumber)
  have sameNames := String.toList_inj.mp sameName
  cases first
  cases second
  simp_all only

end JvmDiff
