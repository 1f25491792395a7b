import JvmDiff.Class

/-!
# Reading canonical contents

The parts of a content begin with a number sign and end before the next one, or before the brace
that closes the entity.  A text without these two marks can therefore be read back from a content,
which is how a content gives away the name that stands first in it.
-/

namespace JvmDiff

namespace Text

/-- A character that ends a part of a content. -/
def IsMark (c : Char) : Prop :=
  c = '#' ∨ c = '\x7d'

instance : DecidablePred IsMark := fun c =>
  inferInstanceAs (Decidable (c = '#' ∨ c = '\x7d'))

/-- A text that a content shows from its first to its last character. -/
def IsPlain (text : String) : Prop :=
  ∀ c ∈ text.toList, ¬ IsMark c

-- Named, because the search may also find the instance that tries every character.
instance : DecidablePred IsPlain := fun text =>
  List.decidableBAll (fun c => ¬ IsMark c) text.toList

/-- The rest of a text from a character with the property on. -/
def StartsWith (mark : Char → Prop) (rest : List Char) : Prop :=
  ∃ c tail, rest = c :: tail ∧ mark c

theorem startsWith_cons {mark : Char → Prop} {c : Char} (marked : mark c) (tail : List Char) :
    StartsWith mark (c :: tail) :=
  ⟨c, tail, rfl, marked⟩

/-- The rest of a content at the end of a part. -/
abbrev AtMark : List Char → Prop :=
  StartsWith IsMark

theorem atMark_label (tail : List Char) : AtMark ('#' :: tail) :=
  startsWith_cons (Or.inl rfl) tail

theorem atMark_text {label : String} (marked : label.toList.head? = some '#') (tail : List Char) :
    AtMark (label.toList ++ tail) := by
  obtain ⟨after, spelled⟩ := List.head?_eq_some_iff.mp marked
  rw [spelled]
  exact atMark_label _

theorem atMark_end (tail : List Char) : AtMark ('\x7d' :: tail) :=
  startsWith_cons (Or.inr rfl) tail

/-- The first marked character of a text parts it. -/
theorem append_inj_of_unmarked {mark : Char → Prop} {first second rest other : List Char}
    (firstUnmarked : ∀ c ∈ first, ¬ mark c) (secondUnmarked : ∀ c ∈ second, ¬ mark c)
    (restMark : StartsWith mark rest) (otherMark : StartsWith mark other)
    (same : first ++ rest = second ++ other) : first = second ∧ rest = other := by
  induction first generalizing second with
  | nil =>
      cases second with
      | nil => exact ⟨rfl, same⟩
      | cons head tail =>
          obtain ⟨c, after, rfl, marked⟩ := restMark
          have sameHead : c = head := by
            injection same
          exact absurd (sameHead ▸ marked) (secondUnmarked head List.mem_cons_self)
  | cons head tail inductionHypothesis =>
      cases second with
      | nil =>
          obtain ⟨c, after, rfl, marked⟩ := otherMark
          have sameHead : head = c := by
            injection same
          exact absurd (sameHead ▸ marked) (firstUnmarked head List.mem_cons_self)
      | cons secondHead secondTail =>
          injection same with sameHead sameTail
          have tails := inductionHypothesis
            (fun c member => firstUnmarked c (List.mem_cons_of_mem head member))
            (fun c member => secondUnmarked c (List.mem_cons_of_mem secondHead member)) sameTail
          exact ⟨by rw [sameHead, tails.1], tails.2⟩

/-- Plain texts before the end of a part. -/
theorem append_inj_of_plain {first second : String} {rest other : List Char}
    (firstPlain : IsPlain first) (secondPlain : IsPlain second)
    (restMark : AtMark rest) (otherMark : AtMark other)
    (same : first.toList ++ rest = second.toList ++ other) : first = second ∧ rest = other := by
  have parts := append_inj_of_unmarked firstPlain secondPlain restMark otherMark same
  exact ⟨String.toList_inj.mp parts.1, parts.2⟩

/-! ### Lists -/

section Lists

variable {α : Type} {text : α → List Char} {separator rest other : List Char}

/-- The texts of a list, each behind a separator, up to the rest. -/
def behind (separator : List Char) (text : α → List Char) (rest : List Char) : List α → List Char
  | [] => rest
  | item :: items => separator ++ (text item ++ behind separator text rest items)

theorem intercalate_behind (separator : List Char) (text : α → List Char) (rest : List Char)
    (item : α) (items : List α) :
    separator.intercalate ((item :: items).map text) ++ rest =
      text item ++ behind separator text rest items := by
  induction items generalizing item with
  | nil => simp [behind]
  | cons next items inductionHypothesis =>
    have later := inductionHypothesis next
    rw [List.map_cons] at later
    rw [List.map_cons, List.map_cons, List.intercalate_cons_cons, List.append_assoc,
      List.append_assoc, later, behind]

/-- What shows of the items of a list is told where it is told of each item from what
follows it. -/
theorem behind_map_inj {β : Type} (image : α → β) (ends : List Char → Prop) {first second : List α}
    (each : ∀ item ∈ first, ∀ next ∈ second, ∀ {rest other}, ends rest → ends other →
      text item ++ rest = text next ++ other → image item = image next ∧ rest = other)
    (restEnds : ∀ items, ends (behind separator text rest items))
    (otherEnds : ∀ items, ends (behind separator text other items))
    (restBegins : ¬ separator <+: rest) (otherBegins : ¬ separator <+: other)
    (same : behind separator text rest first = behind separator text other second) :
    first.map image = second.map image ∧ rest = other := by
  induction first generalizing second with
  | nil =>
    cases second with
    | nil => exact ⟨rfl, same⟩
    | cons next second => exact absurd ⟨_, same.symm⟩ restBegins
  | cons item first inductionHypothesis =>
    cases second with
    | nil => exact absurd ⟨_, same⟩ otherBegins
    | cons next second =>
      obtain ⟨sameItem, sameLater⟩ := each item List.mem_cons_self next List.mem_cons_self
        (restEnds first) (otherEnds second) (List.append_cancel_left same)
      obtain ⟨sameItems, sameRest⟩ := inductionHypothesis
        (fun item member next nextMember => each item (List.mem_cons_of_mem _ member) next
          (List.mem_cons_of_mem _ nextMember)) sameLater
      exact ⟨by rw [List.map_cons, List.map_cons, sameItem, sameItems], sameRest⟩

/-- The items of a list are told apart where each is told from what follows
it. -/
theorem behind_inj (ends : List Char → Prop) {first second : List α}
    (each : ∀ item ∈ first, ∀ next ∈ second, ∀ {rest other}, ends rest → ends other →
      text item ++ rest = text next ++ other → item = next ∧ rest = other)
    (restEnds : ∀ items, ends (behind separator text rest items))
    (otherEnds : ∀ items, ends (behind separator text other items))
    (restBegins : ¬ separator <+: rest) (otherBegins : ¬ separator <+: other)
    (same : behind separator text rest first = behind separator text other second) :
    first = second ∧ rest = other := by
  simpa using behind_map_inj id ends each restEnds otherEnds restBegins otherBegins same

/-- A list with separators between its items, none of which begins like the
rest. -/
theorem intercalate_map_inj {β : Type} (image : α → β) (ends : List Char → Prop)
    {first second : List α}
    (each : ∀ item ∈ first, ∀ next ∈ second, ∀ {rest other}, ends rest → ends other →
      text item ++ rest = text next ++ other → image item = image next ∧ rest = other)
    (firstBegins : ∀ item ∈ first, ∀ after, text item ++ after ≠ other)
    (secondBegins : ∀ item ∈ second, ∀ after, text item ++ after ≠ rest)
    (restEnds : ∀ items, ends (behind separator text rest items))
    (otherEnds : ∀ items, ends (behind separator text other items))
    (restBegins : ¬ separator <+: rest) (otherBegins : ¬ separator <+: other)
    (same : separator.intercalate (first.map text) ++ rest =
      separator.intercalate (second.map text) ++ other) :
    first.map image = second.map image ∧ rest = other := by
  cases first with
  | nil =>
    cases second with
    | nil => exact ⟨rfl, by simpa using same⟩
    | cons next second =>
      rw [intercalate_behind] at same
      exact absurd (by simpa using same.symm) (secondBegins next List.mem_cons_self _)
  | cons item first =>
    cases second with
    | nil =>
      rw [intercalate_behind] at same
      exact absurd (by simpa using same) (firstBegins item List.mem_cons_self _)
    | cons next second =>
      rw [intercalate_behind, intercalate_behind] at same
      refine behind_map_inj image ends each restEnds otherEnds restBegins otherBegins ?_
      exact congrArg (separator ++ ·) same

theorem intercalate_inj (ends : List Char → Prop) {first second : List α}
    (each : ∀ item ∈ first, ∀ next ∈ second, ∀ {rest other}, ends rest → ends other →
      text item ++ rest = text next ++ other → item = next ∧ rest = other)
    (firstBegins : ∀ item ∈ first, ∀ after, text item ++ after ≠ other)
    (secondBegins : ∀ item ∈ second, ∀ after, text item ++ after ≠ rest)
    (restEnds : ∀ items, ends (behind separator text rest items))
    (otherEnds : ∀ items, ends (behind separator text other items))
    (restBegins : ¬ separator <+: rest) (otherBegins : ¬ separator <+: other)
    (same : separator.intercalate (first.map text) ++ rest =
      separator.intercalate (second.map text) ++ other) : first = second ∧ rest = other := by
  simpa using intercalate_map_inj id ends each firstBegins secondBegins restEnds otherEnds
    restBegins otherBegins same

end Lists

theorem isPlain_append {first second : String} (firstPlain : IsPlain first)
    (secondPlain : IsPlain second) : IsPlain (first ++ second) := by
  intro c member
  rw [String.toList_append, List.mem_append] at member
  rcases member with inFirst | inSecond
  · exact firstPlain c inFirst
  · exact secondPlain c inSecond

/-- A number is written in digits. -/
theorem isDigit_of_mem_natural {n : Nat} {c : Char} (member : c ∈ (toString n).toList) :
    c.isDigit = true := by
  rw [Nat.toString_eq_ofList_toDigits, String.toList_ofList] at member
  exact Nat.isDigit_of_mem_toDigits (by decide) (by decide) member

theorem isPlain_natural (n : Nat) : IsPlain (toString n) := by
  intro c member mark
  have digit := isDigit_of_mem_natural member
  rcases mark with rfl | rfl
  · exact absurd digit (by decide)
  · exact absurd digit (by decide)

theorem isPlain_intercalate {separator : String} {texts : List String}
    (separatorPlain : IsPlain separator) (plain : ∀ text ∈ texts, IsPlain text) :
    IsPlain (separator.intercalate texts) := by
  induction texts with
  | nil =>
      intro c member
      simp at member
  | cons text texts inductionHypothesis =>
      have tailPlain : ∀ other ∈ texts, IsPlain other := by
        intro other member
        exact plain other (List.mem_cons_of_mem text member)
      have textPlain := plain text List.mem_cons_self
      cases texts with
      | nil => simpa using textPlain
      | cons next texts =>
          rw [String.intercalate_cons_cons]
          exact isPlain_append (isPlain_append textPlain separatorPlain)
            (inductionHypothesis tailPlain)

theorem isPlain_dotted {text : String} (plain : IsPlain text) : IsPlain (dotted text) := by
  intro c member
  rw [dotted, String.toList_ofList] at member
  obtain ⟨original, originalMember, rfl⟩ := List.mem_map.mp member
  split
  · decide
  · exact plain original originalMember

theorem isPlain_bracketed {texts : List String} (plain : ∀ text ∈ texts, IsPlain text) :
    IsPlain (bracketed texts) := by
  apply isPlain_append (isPlain_append (by decide) _) (by decide)
  exact isPlain_intercalate (by decide) plain

end Text

open Text

theorem atMark_contentText (label text : String) {rest : List Char} (restMark : AtMark rest) :
    AtMark ((contentText label text).toList ++ rest) := by
  rw [contentText]
  split
  · exact restMark
  · simp only [String.toList_append, List.append_assoc]
    exact atMark_label _

theorem atMark_contentPart {α : Type} (label : String) (write : List α → String)
    (parts : List α) {rest : List Char} (restMark : AtMark rest) :
    AtMark ((contentPart label write parts).toList ++ rest) := by
  cases parts with
  | nil => exact restMark
  | cons part parts =>
      simp only [contentPart, String.toList_append, List.append_assoc]
      exact atMark_label _

/-- A labelled text that may be missing, where what follows has another label. -/
theorem contentText_inj {label first second : String} {rest other : List Char}
    (firstPlain : IsPlain first) (secondPlain : IsPlain second) (restMark : AtMark rest)
    (otherMark : AtMark other) (restOther : ¬ ("#" ++ label ++ "=").toList <+: rest)
    (otherOther : ¬ ("#" ++ label ++ "=").toList <+: other)
    (same : (contentText label first).toList ++ rest =
      (contentText label second).toList ++ other) : first = second ∧ rest = other := by
  have shown : ∀ {text : String} {rest}, text ≠ "" → (contentText label text).toList ++ rest =
      ("#" ++ label ++ "=").toList ++ (text.toList ++ rest) := by
    intro text rest nonempty
    rw [contentText, if_neg nonempty, String.toList_append, List.append_assoc]
  by_cases noFirst : first = ""
  · by_cases noSecond : second = ""
    · subst noFirst
      subst noSecond
      exact ⟨rfl, same⟩
    · rw [shown noSecond, noFirst] at same
      exact absurd ⟨_, same.symm⟩ restOther
  · by_cases noSecond : second = ""
    · rw [shown noFirst, noSecond] at same
      exact absurd ⟨_, same⟩ otherOther
    · rw [shown noFirst, shown noSecond] at same
      exact append_inj_of_plain firstPlain secondPlain restMark otherMark
        (List.append_cancel_left same)

/-! ## Contents of lists -/

theorem toList_contentList {α : Type} [Entity α] (entities : List α) (rest : List Char) :
    (Entity.contentList entities).toList ++ rest =
      '[' :: ([','].intercalate (entities.map fun entity => (Entity.content entity).toList) ++
        ']' :: rest) := by
  simp [Entity.contentList, bracketed, String.toList_intercalate, Function.comp_def]

theorem contentPart_contentList_congr {α : Type} [Entity α] (label : String)
    {first second : List α} (same : first.map Entity.content = second.map Entity.content) :
    contentPart label Entity.contentList first = contentPart label Entity.contentList second := by
  have sameList : Entity.contentList first = Entity.contentList second := by
    rw [Entity.contentList, Entity.contentList, same]
  cases first with
  | nil =>
      rw [List.map_nil, eq_comm, List.map_eq_nil_iff] at same
      rw [same]
  | cons head tail =>
      cases second with
      | nil => simp at same
      | cons secondHead secondTail => simp only [contentPart, sameList]

/-- The content of a field depends on its annotations through their contents. -/
theorem Field.content_congr {first second : Field} (sameName : first.name = second.name)
    (sameType : first.type = second.type) (sameAccess : first.access = second.access)
    (sameConstant : first.constant = second.constant)
    (sameAnnotations :
      first.annotations.map Entity.content = second.annotations.map Entity.content) :
    first.content = second.content := by
  rw [content, content, sameName, sameType, sameAccess, sameConstant,
    contentPart_contentList_congr "A" sameAnnotations]

theorem Member.contentTail_congr {first second : List AnnotationUse} (arguments : String)
    (exceptions : List String)
    (sameAnnotations : first.map Entity.content = second.map Entity.content) :
    contentTail first arguments exceptions = contentTail second arguments exceptions := by
  rw [contentTail, contentTail, contentPart_contentList_congr "A" sameAnnotations]

/-! ## Names -/

theorem Member.arguments_eq_of_identity_eq {name first second : String}
    (same : identity name first = identity name second) : first = second := by
  have spelled := congrArg String.toList same
  simp only [identity, String.toList_append, List.append_assoc] at spelled
  have afterName := List.append_cancel_left spelled
  have afterOpening := List.append_cancel_left afterName
  exact String.toList_inj.mp (List.append_cancel_right afterOpening)

/-- An identity parts into the name before its first parenthesis and the
arguments. -/
theorem Member.identity_inj {firstName secondName first second : String}
    (firstOpen : '(' ∉ firstName.toList) (secondOpen : '(' ∉ secondName.toList)
    (same : identity firstName first = identity secondName second) :
    firstName = secondName ∧ first = second := by
  have spelled := congrArg String.toList same
  simp only [identity, String.toList_append, List.append_assoc] at spelled
  have opens : ∀ rest, StartsWith (Eq '(') ("(".toList ++ rest) :=
    fun rest => startsWith_cons rfl rest
  have unopened : ∀ {name : String}, '(' ∉ name.toList → ∀ c ∈ name.toList, ¬ '(' = c := by
    rintro name notMember c member rfl
    exact notMember member
  have parts := append_inj_of_unmarked (unopened firstOpen) (unopened secondOpen) (opens _)
    (opens _) spelled
  have sameName := String.toList_inj.mp parts.1
  subst sameName
  exact ⟨rfl, arguments_eq_of_identity_eq same⟩

/-- What follows the name in the content of an annotation. -/
def AnnotationUse.contentRest (usage : AnnotationUse) : List Char :=
  (if usage.elements.isEmpty then ""
    else ElementValue.enclosed "#V=\x7b" (ElementValue.elementContents usage.elements)
      "\x7d").toList ++ ['\x7d']

theorem AnnotationUse.toList_content (usage : AnnotationUse) :
    (Entity.content usage).toList =
      "A\x7bN=".toList ++ (usage.name.toList ++ usage.contentRest) := by
  change (ElementValue.content (.nested usage.name usage.elements)).toList = _
  rw [ElementValue.content]
  simp only [String.toList_append, List.append_assoc, contentRest]
  rfl

theorem AnnotationUse.atMark_contentRest (usage : AnnotationUse) : AtMark usage.contentRest := by
  rw [contentRest]
  split
  · exact atMark_end []
  · simp only [ElementValue.enclosed, String.toList_append, List.append_assoc]
    exact atMark_label _

/-- The content of an annotation gives away its name. -/
theorem AnnotationUse.name_eq_of_content_eq {first second : AnnotationUse}
    (firstPlain : IsPlain first.name) (secondPlain : IsPlain second.name)
    (same : Entity.content first = Entity.content second) : first.name = second.name := by
  have spelled := congrArg String.toList same
  rw [toList_content, toList_content] at spelled
  have afterLabel := List.append_cancel_left spelled
  exact (append_inj_of_plain firstPlain secondPlain first.atMark_contentRest
    second.atMark_contentRest afterLabel).1

/-- The content of a field gives away its name. -/
theorem Field.name_eq_of_content_eq {first second : Field} (firstPlain : IsPlain first.name)
    (secondPlain : IsPlain second.name) (same : first.content = second.content) :
    first.name = second.name := by
  have spelled := congrArg String.toList same
  simp only [content, String.toList_append, List.append_assoc] at spelled
  have afterLabel := List.append_cancel_left spelled
  exact (append_inj_of_plain firstPlain secondPlain (atMark_label _) (atMark_label _)
    afterLabel).1

/-- The content of an entry gives away its name. -/
theorem InnerClass.name_eq_of_content_eq {first second : InnerClass}
    (firstPlain : IsPlain first.name) (secondPlain : IsPlain second.name)
    (same : first.content = second.content) : first.name = second.name := by
  have spelled := congrArg String.toList same
  simp only [content, String.toList_append, List.append_assoc] at spelled
  have afterLabel := List.append_cancel_left spelled
  exact (append_inj_of_plain firstPlain secondPlain (atMark_label _) (atMark_label _)
    afterLabel).1

end JvmDiff
