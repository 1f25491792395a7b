import JvmDiff.Proofs.Content.Reading
import JvmDiff.Proofs.Signature.Brackets
import JvmDiff.Proofs.Signature.Decoding

/-!
# Types shown alike

A descriptor spells the erasure of a type, which has no type arguments and no type variables.  The
source form of a type keeps both, but it writes a dot before a member class as before a class of a
package, and it writes a type variable like a class.  But for these two, types that are shown alike
have the same erasure.
-/

namespace JvmDiff.Signature

open Text

/-! ## Erasure -/

def Segment.name : Segment → Identifier
  | .mk name _ => name

/-- The names of member classes in a binary name. -/
def memberNames (members : List Segment) : List Char :=
  members.flatMap fun member => '$' :: member.name.chars

namespace ClassType

/-- The binary name of the class itself. -/
def fullName : ClassType → List Char
  | .mk package outer members => pathText package ++ outer.name.chars ++ memberNames members

/-- All names in the path to the class. -/
def names : ClassType → List Identifier
  | .mk package outer members => package ++ outer.name :: members.map Segment.name

end ClassType

/-- For each type variable the descriptor of its erasure. -/
abbrev Bounds :=
  List Char → List Char

mutual

/-- The erasure of the type, as a descriptor spells it. -/
def JavaType.erased (bounds : Bounds) : JavaType → List Char
  | .base type => [type.letter]
  | .reference type => type.erased bounds

def ReferenceType.erased (bounds : Bounds) : ReferenceType → List Char
  | .variable name => bounds name.chars
  | .array element => '[' :: element.erased bounds
  | .ofClass type => 'L' :: (type.fullName ++ [';'])

end

namespace MethodSyntax

/-- The erasures of the parameters, in order. -/
def parameterList (bounds : Bounds) (declared : MethodSyntax) : List (List Char) :=
  declared.arguments.map (JavaType.erased bounds)

def descriptor (bounds : Bounds) (declared : MethodSyntax) : String :=
  String.ofList ('(' :: ((declared.parameterList bounds).flatten ++
    ')' :: declared.result.elim ['V'] (JavaType.erased bounds)))

end MethodSyntax

/-! ## Elements of arrays -/

/-- What is no array. -/
inductive Element where
  | base (type : BaseType)
  | variable (name : Identifier)
  | ofClass (type : ClassType)

mutual

/-- What the type is an array of in the end, the type itself if it is none. -/
def JavaType.element : JavaType → Element
  | .base type => .base type
  | .reference type => type.element

def ReferenceType.element : ReferenceType → Element
  | .variable name => .variable name
  | .array element => element.element
  | .ofClass type => .ofClass type

end

mutual

/-- A property of all types that are no arrays, which arrays take over from what
they are arrays of. -/
theorem JavaType.arrayInduction {motive : JavaType → Prop} (ofBase : ∀ type, motive (.base type))
    (ofVariable : ∀ name, motive (.reference (.variable name)))
    (ofClass : ∀ type, motive (.reference (.ofClass type)))
    (ofArray : ∀ element, motive element → motive (.reference (.array element))) :
    ∀ type, motive type
  | .base type => ofBase type
  | .reference type => type.arrayInduction ofBase ofVariable ofClass ofArray

theorem ReferenceType.arrayInduction {motive : JavaType → Prop}
    (ofBase : ∀ type, motive (.base type))
    (ofVariable : ∀ name, motive (.reference (.variable name)))
    (ofClass : ∀ type, motive (.reference (.ofClass type)))
    (ofArray : ∀ element, motive element → motive (.reference (.array element))) :
    ∀ type : ReferenceType, motive (.reference type)
  | .variable name => ofVariable name
  | .array element => ofArray element (element.arrayInduction ofBase ofVariable ofClass ofArray)
  | .ofClass type => ofClass type

end

/-- A name without the marks that stand between types, as every Java name is. -/
def Identifier.IsJava (name : Identifier) : Prop :=
  ',' ∉ name.chars ∧ ']' ∉ name.chars

/-- A path of Java names to a class that is not named like a primitive type. -/
structure ClassType.IsNamed (type : ClassType) : Prop where
  java : ∀ name ∈ type.names, name.IsJava
  noKeyword : ∀ base : BaseType, type.fullName ≠ base.keyword.toList

theorem ClassType.IsNamed.parts {package : List Identifier} {outer : Segment}
    {members : List Segment} (named : (ClassType.mk package outer members).IsNamed) :
    (∀ part ∈ package, part.IsJava) ∧ outer.name.IsJava ∧
      ∀ member ∈ members, member.name.IsJava := by
  have java := named.java
  rw [ClassType.names, List.forall_mem_append, List.forall_mem_cons, List.forall_mem_map] at java
  exact java

/-- Member classes are named as such only after type arguments. -/
def ClassType.IsCompact : ClassType → Prop
  | .mk _ (.mk _ arguments) members => members = [] ∨ arguments ≠ []

namespace Element

def IsNamed : Element → Prop
  | .base _ => True
  | .variable name => name.IsJava
  | .ofClass type => type.IsNamed

def IsCompact : Element → Prop
  | .ofClass type => type.IsCompact
  | _ => True

def IsVariable : Element → Prop
  | .variable _ => True
  | _ => False

end Element

/-! ## Paths of classes -/

theorem listShown_inj {first second : List (List Char)} (firstNested : ∀ text ∈ first, Nested text)
    (secondNested : ∀ text ∈ second, Nested text) {rest other : List Char}
    (restOther : rest.head? ≠ some '<') (otherOther : other.head? ≠ some '<')
    (same : listShown first ++ rest = listShown second ++ other) :
    listShown first = listShown second ∧ rest = other := by
  have shown : ∀ {texts : List (List Char)} {after}, texts ≠ [] →
      listShown texts ++ after = '<' :: (commaSeparated texts ++ '>' :: after) := by
    intro texts after nonempty
    simp [listShown, nonempty]
  by_cases noFirst : first = []
  · by_cases noSecond : second = []
    · subst noFirst
      subst noSecond
      exact ⟨rfl, same⟩
    · rw [shown noSecond, noFirst] at same
      exact absurd (congrArg List.head? same) restOther
  · by_cases noSecond : second = []
    · rw [shown noFirst, noSecond] at same
      exact absurd (congrArg List.head? same).symm otherOther
    · rw [shown noFirst, shown noSecond] at same
      obtain ⟨sameList, sameRest⟩ := Nested.closing_inj (Nested.commaSeparated firstNested)
        (Nested.commaSeparated secondNested) (List.cons.inj same).2
      exact ⟨by rw [listShown, listShown, if_neg noFirst, if_neg noSecond, sameList], sameRest⟩

/-- A name with its arguments, and the dot or comma after it. -/
theorem Segment.shown_inj {first second : Segment} (firstJava : first.name.IsJava)
    (secondJava : second.name.IsJava) {rest other : List Char}
    (restMark : StartsWith (· ∈ ['.', ',']) rest) (otherMark : StartsWith (· ∈ ['.', ',']) other)
    (same : first.shown ++ rest = second.shown ++ other) :
    first.name.chars = second.name.chars ∧ rest = other := by
  obtain ⟨firstName, firstArguments⟩ := first
  obtain ⟨secondName, secondArguments⟩ := second
  have noBracket : ∀ {rest}, StartsWith (· ∈ ['.', ',']) rest → rest.head? ≠ some '<' := by
    rintro rest ⟨c, tail, rfl, isMark⟩ isBracket
    rw [Option.some.inj isBracket] at isMark
    exact absurd isMark (by decide)
  have unmarked : ∀ {name : Identifier}, name.IsJava → ∀ c ∈ name.chars, ¬ c ∈ ['<', '.', ','] := by
    intro name java c member isMark
    have marks : c = '<' ∨ c = '.' ∨ c = ',' := by simpa using isMark
    rcases marks with rfl | rfl | rfl
    · exact name.not_mem '<' (by decide) member
    · exact name.not_mem '.' (by decide) member
    · exact java.1 member
  have marked : ∀ (arguments : List TypeArgument) {rest}, StartsWith (· ∈ ['.', ',']) rest →
      StartsWith (· ∈ ['<', '.', ',']) (listShown (argumentsShown arguments) ++ rest) := by
    rintro arguments rest ⟨c, tail, rfl, isMark⟩
    rw [listShown]
    split
    · exact startsWith_cons (List.mem_cons_of_mem _ isMark) tail
    · exact startsWith_cons List.mem_cons_self _
  rw [Segment.shown, Segment.shown, List.append_assoc, List.append_assoc] at same
  obtain ⟨sameName, sameArguments⟩ := append_inj_of_unmarked (unmarked firstJava)
    (unmarked secondJava) (marked firstArguments restMark) (marked secondArguments otherMark) same
  exact ⟨sameName, (listShown_inj (nested_argumentsShown _) (nested_argumentsShown _)
    (noBracket restMark) (noBracket otherMark) sameArguments).2⟩

theorem startsWith_membersShown (members : List Segment) (rest : List Char) :
    StartsWith (· ∈ ['.', ',']) (membersShown members ++ ',' :: rest) := by
  cases members with
  | nil => exact startsWith_cons (by decide) rest
  | cons member members => exact startsWith_cons (by decide) _

theorem memberNames_eq_of_shown_eq {first second : List Segment}
    (firstJava : ∀ member ∈ first, member.name.IsJava)
    (secondJava : ∀ member ∈ second, member.name.IsJava)
    (same : membersShown first ++ [','] = membersShown second ++ [',']) :
    memberNames first = memberNames second := by
  induction first generalizing second with
  | nil =>
    cases second with
    | nil => rfl
    | cons => simp [membersShown] at same
  | cons member first inductionHypothesis =>
    cases second with
    | nil => simp [membersShown] at same
    | cons other second =>
      obtain ⟨memberJava, restJava⟩ := List.forall_mem_cons.mp firstJava
      obtain ⟨otherJava, othersJava⟩ := List.forall_mem_cons.mp secondJava
      rw [membersShown, membersShown, List.cons_append, List.cons_append, List.append_assoc,
        List.append_assoc] at same
      obtain ⟨sameName, sameRest⟩ := Segment.shown_inj memberJava otherJava
        (startsWith_membersShown first []) (startsWith_membersShown second [])
        (List.cons.inj same).2
      have sameNames := inductionHypothesis restJava othersJava sameRest
      rw [memberNames] at sameNames
      rw [memberNames, memberNames, List.flatMap_cons, List.flatMap_cons, sameName, sameNames]
      rfl

theorem unmarked_path {package : List Identifier} {name : Identifier}
    (packageJava : ∀ part ∈ package, part.IsJava) (nameJava : name.IsJava) :
    ∀ c ∈ pathShown package ++ name.chars, ¬ c ∈ ['<', ','] := by
  intro c member isMark
  have marks : c = '<' ∨ c = ',' := by simpa using isMark
  rw [List.mem_append, pathShown, List.mem_flatMap] at member
  rcases member with ⟨part, partMember, inPart⟩ | inName
  · rw [List.mem_append, List.mem_singleton] at inPart
    rcases marks with rfl | rfl
    · exact inPart.elim (part.not_mem '<' (by decide)) (by decide)
    · exact inPart.elim (packageJava part partMember).1 (by decide)
  · rcases marks with rfl | rfl
    · exact name.not_mem '<' (by decide) inName
    · exact nameJava.1 inName

/-- Compact types that are shown alike are types of one class. -/
theorem ClassType.fullName_eq_of_shown_eq {first second : ClassType} (firstNamed : first.IsNamed)
    (secondNamed : second.IsNamed) (firstCompact : first.IsCompact)
    (secondCompact : second.IsCompact) (same : first.shown = second.shown) :
    first.fullName = second.fullName := by
  obtain ⟨package, ⟨name, arguments⟩, members⟩ := first
  obtain ⟨otherPackage, ⟨otherName, others⟩, otherMembers⟩ := second
  have parts : ∀ (package : List Identifier) (name : Identifier) (arguments members),
      (ClassType.mk package (.mk name arguments) members).shown ++ [','] =
        (pathShown package ++ name.chars) ++ (listShown (argumentsShown arguments) ++
          (membersShown members ++ [','])) := by
    intro package name arguments members
    simp [ClassType.shown, Segment.shown]
  -- Up to the first bracket or to the end there is the path to the outermost class.
  have marked : ∀ {package name arguments members},
      (ClassType.mk package (.mk name arguments) members).IsCompact →
        StartsWith (· ∈ ['<', ',']) (listShown (argumentsShown arguments) ++
          (membersShown members ++ [','])) := by
    intro package name arguments members compact
    cases arguments with
    | nil =>
      have noMembers : members = [] := compact.resolve_right fun nonempty => nonempty rfl
      rw [noMembers]
      exact startsWith_cons (by decide) []
    | cons argument arguments => exact startsWith_cons (by decide) _
  have noBracket : ∀ members, (membersShown members ++ [',']).head? ≠ some '<' := by
    intro members
    cases members <;> simp [membersShown]
  obtain ⟨packageJava, (nameJava : name.IsJava), membersJava⟩ := firstNamed.parts
  obtain ⟨otherPackageJava, (otherNameJava : otherName.IsJava), otherMembersJava⟩ :=
    secondNamed.parts
  have closed := congrArg (· ++ [',']) same
  simp only [parts] at closed
  obtain ⟨samePath, sameArguments⟩ := append_inj_of_unmarked (unmarked_path packageJava nameJava)
    (unmarked_path otherPackageJava otherNameJava) (marked firstCompact) (marked secondCompact)
    closed
  have sameMembers := (listShown_inj (nested_argumentsShown _) (nested_argumentsShown _)
    (noBracket members) (noBracket otherMembers) sameArguments).2
  rw [ClassType.fullName, ClassType.fullName,
    memberNames_eq_of_shown_eq membersJava otherMembersJava sameMembers]
  change pathText package ++ name.chars ++ _ = pathText otherPackage ++ otherName.chars ++ _
  rw [← slashed_path, ← slashed_path, samePath]

/-! ## Types -/

theorem BaseType.eq_of_keyword_eq {first second : BaseType}
    (same : first.keyword = second.keyword) : first = second := by
  cases first <;> cases second <;> first | rfl | exact absurd same (by decide)

/-- No class is shown like a primitive type. -/
theorem ClassType.IsNamed.shown_ne_keyword {type : ClassType} (named : type.IsNamed)
    (base : BaseType) : type.shown ≠ base.keyword.toList := by
  obtain ⟨package, ⟨name, arguments⟩, members⟩ := type
  intro same
  have plain : '.' ∉ base.keyword.toList ∧ '<' ∉ base.keyword.toList := by
    cases base <;> decide
  rw [← same, ClassType.shown, Segment.shown] at plain
  simp only [List.mem_append, not_or] at plain
  have noPackage : package = [] := by
    cases package with
    | nil => rfl
    | cons part package => simp [pathShown] at plain
  have noArguments : listShown (argumentsShown arguments) = [] := by
    rw [listShown] at plain ⊢
    split at plain
    case isTrue empty => rw [if_pos empty]
    case isFalse => simp at plain
  have noMembers : members = [] := by
    cases members with
    | nil => rfl
    | cons member members => simp [membersShown] at plain
  refine named.noKeyword base ?_
  rw [← same, ClassType.fullName, ClassType.shown, Segment.shown, noPackage, noArguments,
    noMembers]
  simp [pathText, pathShown, membersShown, memberNames, Segment.name]

/-- A property of names and dots that texts keep when they are joined. -/
theorem ClassType.IsNamed.shown_of_parts {holds : List Char → Prop} (empty : holds [])
    (dot : holds ['.'])
    (append : ∀ {first second}, holds first → holds second → holds (first ++ second))
    (ofName : ∀ {name : Identifier}, name.IsJava → holds name.chars)
    (ofSegment : ∀ {segment : Segment}, segment.name.IsJava → holds segment.shown)
    {type : ClassType} (named : type.IsNamed) : holds type.shown := by
  obtain ⟨package, outer, members⟩ := type
  obtain ⟨packageJava, outerJava, membersJava⟩ := named.parts
  have path : holds (pathShown package) := by
    clear named
    induction package with
    | nil => exact empty
    | cons part package inductionHypothesis =>
      obtain ⟨partJava, restJava⟩ := List.forall_mem_cons.mp packageJava
      exact append (append (ofName partJava) dot) (inductionHypothesis restJava)
  have suffixes : holds (membersShown members) := by
    clear named
    induction members with
    | nil => exact empty
    | cons member members inductionHypothesis =>
      obtain ⟨memberJava, restJava⟩ := List.forall_mem_cons.mp membersJava
      exact append dot (append (ofSegment memberJava) (inductionHypothesis restJava))
  exact append (append path (ofSegment outerJava)) suffixes

/-- The text does not end like an array. -/
def EndsOpen (text : List Char) : Prop :=
  text.getLast? ≠ some ']'

theorem EndsOpen.append {first second : List Char} (firstOpen : EndsOpen first)
    (secondOpen : EndsOpen second) : EndsOpen (first ++ second) := by
  rw [EndsOpen] at firstOpen secondOpen
  rw [EndsOpen, List.getLast?_append]
  cases last : second.getLast? with
  | none => simpa [last] using firstOpen
  | some c => simpa [last] using secondOpen

theorem Identifier.IsJava.endsOpen {name : Identifier} (java : name.IsJava) :
    EndsOpen name.chars :=
  fun last => java.2 (List.mem_of_getLast? last)

theorem Segment.endsOpen {segment : Segment} (java : segment.name.IsJava) :
    EndsOpen segment.shown := by
  obtain ⟨name, arguments⟩ := segment
  have list : EndsOpen (listShown (argumentsShown arguments)) := by
    rw [listShown]
    split
    · simp [EndsOpen]
    · rw [EndsOpen, ← List.cons_append, List.getLast?_concat]
      decide
  exact java.endsOpen.append list

theorem ClassType.IsNamed.endsOpen {type : ClassType} (named : type.IsNamed) :
    EndsOpen type.shown :=
  named.shown_of_parts (by simp [EndsOpen]) (by simp [EndsOpen]) EndsOpen.append
    Identifier.IsJava.endsOpen Segment.endsOpen

theorem BaseType.endsOpen (base : BaseType) : EndsOpen base.keyword.toList := by
  cases base <;> simp [EndsOpen, keyword]

theorem shown_array_not_endsOpen (element : JavaType) :
    ¬ EndsOpen (JavaType.reference (.array element)).shown := by
  simp [EndsOpen, JavaType.shown, ReferenceType.shown]

/-! ## Parameters -/

/-- Where one of the types is a type variable or an array of one, and the other is
shown alike, both have one erasure. -/
def VariablesAgree (bounds otherBounds : Bounds) (type other : JavaType) : Prop :=
  type.element.IsVariable ∨ other.element.IsVariable → type.shown = other.shown →
    type.erased bounds = other.erased otherBounds

/-- Types that are shown alike have one erasure. -/
theorem JavaType.erased_eq_of_shown_eq {bounds otherBounds : Bounds} (type other : JavaType)
    (typeNamed : type.element.IsNamed) (otherNamed : other.element.IsNamed)
    (typeCompact : type.element.IsCompact) (otherCompact : other.element.IsCompact)
    (agree : VariablesAgree bounds otherBounds type other) (same : type.shown = other.shown) :
    type.erased bounds = other.erased otherBounds := by
  -- The last character tells arrays from the others; keywords are no names of classes, and what
  -- variables are shown like is left to the premise.
  induction type using JavaType.arrayInduction generalizing other with
  | ofVariable name => exact agree (Or.inl trivial) same
  | ofBase base =>
    match other with
    | .base otherBase =>
      have sameBase : base = otherBase :=
        BaseType.eq_of_keyword_eq (String.toList_inj.mp same)
      rw [sameBase]
      rfl
    | .reference (.variable name) => exact agree (Or.inr trivial) same
    | .reference (.ofClass otherClass) =>
      exact absurd same.symm (ClassType.IsNamed.shown_ne_keyword otherNamed base)
    | .reference (.array element) =>
      exact absurd (same ▸ base.endsOpen) (shown_array_not_endsOpen element)
  | ofClass type =>
    match other with
    | .base otherBase =>
      exact absurd same (ClassType.IsNamed.shown_ne_keyword typeNamed otherBase)
    | .reference (.variable name) => exact agree (Or.inr trivial) same
    | .reference (.ofClass otherClass) =>
      have sameName := ClassType.fullName_eq_of_shown_eq typeNamed otherNamed typeCompact
        otherCompact same
      simp only [JavaType.erased, ReferenceType.erased, sameName]
    | .reference (.array element) =>
      exact absurd (same ▸ ClassType.IsNamed.endsOpen typeNamed)
        (shown_array_not_endsOpen element)
  | ofArray element inductionHypothesis =>
    match other with
    | .base otherBase =>
      exact absurd (same ▸ otherBase.endsOpen) (shown_array_not_endsOpen element)
    | .reference (.variable name) => exact agree (Or.inr trivial) same
    | .reference (.ofClass otherClass) =>
      exact absurd (same ▸ ClassType.IsNamed.endsOpen otherNamed)
        (shown_array_not_endsOpen element)
    | .reference (.array otherElement) =>
      have elements : element.shown = otherElement.shown := List.append_cancel_right same
      have elementsAgree : VariablesAgree bounds otherBounds element otherElement := by
        intro someVariable sameElements
        exact (List.cons.inj (agree someVariable same)).2
      have erasures := inductionHypothesis otherElement typeNamed otherNamed typeCompact
        otherCompact elementsAgree elements
      simp only [JavaType.erased, ReferenceType.erased, erasures]

theorem Segment.isOneType_shown {segment : Segment} (java : segment.name.IsJava) :
    IsOneType segment.shown := by
  obtain ⟨name, arguments⟩ := segment
  have list : IsOneType (listShown (argumentsShown arguments)) := by
    rw [listShown]
    split
    · exact IsOneType.of_plain (Nested.of_plain (by decide) (by decide)) (by decide)
    · exact IsOneType.brackets (Nested.commaSeparated (nested_argumentsShown arguments))
  exact (IsOneType.of_plain name.nested java.1).append list

theorem ClassType.IsNamed.isOneType_shown {type : ClassType} (named : type.IsNamed) :
    IsOneType type.shown := by
  have empty : IsOneType [] :=
    IsOneType.of_plain (Nested.of_plain (by decide) (by decide)) (by decide)
  have dot : IsOneType ['.'] :=
    IsOneType.of_plain (Nested.of_plain (by decide) (by decide)) (by decide)
  have ofName : ∀ {name : Identifier}, name.IsJava → IsOneType name.chars := by
    intro name java
    exact IsOneType.of_plain name.nested java.1
  exact named.shown_of_parts empty dot IsOneType.append ofName Segment.isOneType_shown

/-- A type in source form has its commas between brackets. -/
theorem JavaType.isOneType_shown (type : JavaType) (named : type.element.IsNamed) :
    IsOneType type.shown ∧ type.shown ≠ [] := by
  induction type using JavaType.arrayInduction with
  | ofBase base =>
    have plain : ',' ∉ base.keyword.toList ∧ base.keyword.toList ≠ [] := by
      cases base <;> decide
    exact ⟨IsOneType.of_plain (JavaType.nested_shown (.base base)) plain.1, plain.2⟩
  | ofVariable name => exact ⟨IsOneType.of_plain name.nested named.1, name.nonempty⟩
  | ofClass type =>
    refine ⟨ClassType.IsNamed.isOneType_shown named, ?_⟩
    obtain ⟨package, ⟨name, arguments⟩, members⟩ := type
    simp [JavaType.shown, ReferenceType.shown, ClassType.shown, Segment.shown, name.nonempty]
  | ofArray element inductionHypothesis =>
    have brackets : IsOneType ['[', ']'] :=
      IsOneType.of_plain (Nested.of_plain (by decide) (by decide)) (by decide)
    exact ⟨(inductionHypothesis named).1.append brackets,
      List.append_ne_nil_of_right_ne_nil _ (by decide)⟩

section Lists

variable {bounds otherBounds : Bounds} {types others : List JavaType}

theorem erasures_eq_of_shown_eq
    (typesNamed : ∀ type ∈ types, type.element.IsNamed ∧ type.element.IsCompact)
    (othersNamed : ∀ type ∈ others, type.element.IsNamed ∧ type.element.IsCompact)
    (agree : ∀ pair ∈ types.zip others, VariablesAgree bounds otherBounds pair.1 pair.2)
    (same : types.map JavaType.shown = others.map JavaType.shown) :
    types.map (JavaType.erased bounds) = others.map (JavaType.erased otherBounds) := by
  induction types generalizing others with
  | nil =>
    cases others with
    | nil => rfl
    | cons => cases same
  | cons type types inductionHypothesis =>
    cases others with
    | nil => cases same
    | cons other others =>
      obtain ⟨⟨typeNamed, typeCompact⟩, typesNamed⟩ := List.forall_mem_cons.mp typesNamed
      obtain ⟨⟨otherNamed, otherCompact⟩, othersNamed⟩ := List.forall_mem_cons.mp othersNamed
      rw [List.zip_cons_cons, List.forall_mem_cons] at agree
      injection same with sameType sameTypes
      rw [List.map_cons, List.map_cons,
        type.erased_eq_of_shown_eq other typeNamed otherNamed typeCompact otherCompact agree.1
          sameType,
        inductionHypothesis typesNamed othersNamed agree.2 sameTypes]

/-- Lists of types that are shown alike have the same erasures. -/
theorem erasures_eq_of_commaSeparated_eq
    (typesNamed : ∀ type ∈ types, type.element.IsNamed ∧ type.element.IsCompact)
    (othersNamed : ∀ type ∈ others, type.element.IsNamed ∧ type.element.IsCompact)
    (agree : ∀ pair ∈ types.zip others, VariablesAgree bounds otherBounds pair.1 pair.2)
    (same : commaSeparated (types.map JavaType.shown) =
      commaSeparated (others.map JavaType.shown)) :
    types.map (JavaType.erased bounds) = others.map (JavaType.erased otherBounds) := by
  refine erasures_eq_of_shown_eq typesNamed othersNamed agree (commaSeparated_inj ?_ ?_ same)
  · exact List.forall_mem_map.mpr fun type member => type.isOneType_shown (typesNamed type member).1
  · exact List.forall_mem_map.mpr fun type member =>
      type.isOneType_shown (othersNamed type member).1

end Lists

end JvmDiff.Signature
