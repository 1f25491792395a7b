import JvmDiff.Proofs.Signature.DeclarationReadings
import Mathlib.Data.List.Forall2

/-!
# Signatures that the grammar allows

The grammar of the class file format knows void only as a result, only reference types as type
arguments and bounds, and names without any of the characters that separate them.  The readings
take liberties with all of this.  The readings that take none are the types of the grammar, and
its declarations as far as their type parameters can be told apart.
-/

namespace JvmDiff.Signature

/-! ## The grammar -/

/-- The name of a type parameter, and its bounds as far as it has any. -/
structure TypeParameterForm where
  name : Identifier
  classBound : Option ReferenceType
  interfaceBounds : List ReferenceType

def TypeParameterForm.text (parameter : TypeParameterForm) : List Char :=
  parameter.name.chars ++ ':' :: (parameter.classBound.elim [] ReferenceType.text ++
    parameter.interfaceBounds.flatMap fun bound => ':' :: bound.text)

/-- The next type parameter is not taken for a bound of this one. -/
def TypeParameterForm.Precedes (parameter next : TypeParameterForm) : Prop :=
  parameter.classBound = none ∧ parameter.interfaceBounds = [] →
    ∀ c ∈ next.name.chars.head?, c ∉ ['L', '[', 'T']

structure ClassForm where
  parameters : List TypeParameterForm
  superclass : ClassType
  interfaces : List ClassType

def ClassForm.text (form : ClassForm) : List Char :=
  inBrackets (form.parameters.flatMap TypeParameterForm.text) ++
    (form.superclass.text ++ form.interfaces.flatMap ClassType.text)

/-- The type parameters can be told apart. -/
def ClassForm.IsClear (form : ClassForm) : Prop :=
  form.parameters.IsChain TypeParameterForm.Precedes

/-- The types of a method, without a result for one that returns nothing. -/
structure MethodForm where
  parameters : List TypeParameterForm
  arguments : List JavaType
  result : Option JavaType
  exceptions : List NamedType

def MethodForm.text (form : MethodForm) : List Char :=
  inBrackets (form.parameters.flatMap TypeParameterForm.text) ++
    '(' :: (form.arguments.flatMap JavaType.text ++
      ')' :: (form.result.elim ['V'] JavaType.text ++
        form.exceptions.flatMap fun type => '^' :: type.toReference.text))

def MethodForm.IsClear (form : MethodForm) : Prop :=
  form.parameters.IsChain TypeParameterForm.Precedes

def IsTypeSignature (signature : String) : Prop :=
  ∃ type : JavaType, signature.toList = type.text

def IsClassSignature (signature : String) : Prop :=
  ∃ form : ClassForm, signature.toList = form.text

def IsMethodSignature (signature : String) : Prop :=
  ∃ form : MethodForm, signature.toList = form.text

/-! ## Readings without liberties -/

def IsIdentifier (name : List Char) : Prop :=
  name ≠ [] ∧ ∀ c ∈ name, c ∉ ['.', ';', '[', '/', '<', '>', ':']

/-- Identifiers with slashes between them. -/
def IsPath (name : List Char) : Prop :=
  ∃ (package : List Identifier) (last : Identifier), name = pathText package ++ last.chars

mutual

def TypeReading.IsRegular : TypeReading → Prop
  | .primitive letter _ => letter ≠ 'V'
  | .variable name _ => IsIdentifier name
  | .array element => element.IsRegular
  | .ofClass (.mk name _ _ brackets) members =>
      IsPath name ∧ BracketReading.AreRegular brackets ∧ SegmentReading.AreRegular members

def SegmentReading.AreRegular : List SegmentReading → Prop
  | [] => True
  | .mk name _ _ brackets :: members =>
      IsIdentifier name ∧ BracketReading.AreRegular brackets ∧ SegmentReading.AreRegular members

/-- One pair of brackets at most, with something in it and nothing behind it. -/
def BracketReading.AreRegular : List BracketReading → Prop
  | [] => True
  | .mk arguments behind _ :: others =>
      others = [] ∧ arguments ≠ [] ∧ behind = [] ∧ ArgumentReading.AreRegular arguments

def ArgumentReading.AreRegular : List ArgumentReading → Prop
  | [] => True
  | .any :: arguments => ArgumentReading.AreRegular arguments
  | .bounded _ type :: arguments =>
      type.kind ≠ .primitive ∧ type.IsRegular ∧ ArgumentReading.AreRegular arguments

end

structure ParameterReading.IsRegular (parameter : ParameterReading) : Prop where
  name : IsIdentifier parameter.name
  classBound : ∀ bound ∈ parameter.classBound, bound.IsRegular
  interfaceBounds : ∀ bound ∈ parameter.interfaceBounds, bound.kind ≠ .primitive ∧ bound.IsRegular

/-- The types of a class: its superclass and its interfaces are classes. -/
def BodyReading.IsRegularClass : BodyReading → Prop
  | .ofClass superclass interfaces =>
      ∀ type ∈ superclass :: interfaces, type.kind = .ofClass ∧ type.IsRegular
  | .ofMethod _ _ _ => False

/-- The types of a method: void is its result at most, and what it throws has a name. -/
def BodyReading.IsRegularMethod : BodyReading → Prop
  | .ofClass _ _ => False
  | .ofMethod arguments result exceptions =>
      (∀ type ∈ arguments, type.IsRegular) ∧ (result.text = ['V'] ∨ result.IsRegular) ∧
        ∀ type ∈ exceptions, (type.kind = .variable ∨ type.kind = .ofClass) ∧ type.IsRegular

structure DeclarationReading.IsRegularClass (declared : DeclarationReading) : Prop where
  parameters : ∀ parameter ∈ declared.parameters, parameter.IsRegular
  body : declared.body.IsRegularClass

structure DeclarationReading.IsRegularMethod (declared : DeclarationReading) : Prop where
  parameters : ∀ parameter ∈ declared.parameters, parameter.IsRegular
  body : declared.body.IsRegularMethod

/-! ## From a reading without liberties to a type of the grammar -/

theorem IsIdentifier.exists_identifier {name : List Char} (isIdentifier : IsIdentifier name) :
    ∃ identifier : Identifier, identifier.chars = name :=
  ⟨⟨name, isIdentifier.1, isIdentifier.2⟩, rfl⟩

def JavaType.kind : JavaType → TypeKind
  | .base _ => .primitive
  | .reference (.variable _) => .variable
  | .reference (.array _) => .array
  | .reference (.ofClass _) => .ofClass

theorem JavaType.exists_reference (type : JavaType) (isReference : type.kind ≠ .primitive) :
    ∃ reference, type = .reference reference := by
  cases type with
  | base _ => exact absurd rfl isReference
  | reference reference => exact ⟨reference, rfl⟩

theorem exists_baseType {letter : Char} (known : (primitiveName? letter).isSome = true)
    (notVoid : letter ≠ 'V') : ∃ type : BaseType, type.letter = letter := by
  rw [primitiveName?, Option.isSome_map, List.find?_isSome] at known
  obtain ⟨entry, member, same⟩ := known
  obtain rfl : entry.1 = letter := of_decide_eq_true same
  simp only [primitiveNames, List.mem_cons, List.not_mem_nil, or_false] at member
  rcases member with rfl | rfl | rfl | rfl | rfl | rfl | rfl | rfl | rfl
  · exact absurd rfl notVoid
  · exact ⟨.byte, rfl⟩
  · exact ⟨.long, rfl⟩
  · exact ⟨.boolean, rfl⟩
  · exact ⟨.int, rfl⟩
  · exact ⟨.short, rfl⟩
  · exact ⟨.char, rfl⟩
  · exact ⟨.float, rfl⟩
  · exact ⟨.double, rfl⟩

/-- Arguments between brackets are spelled by as many arguments. -/
theorem inBrackets_texts {arguments : List ArgumentReading} (nonempty : arguments ≠ []) :
    inBrackets (ArgumentReading.texts arguments) =
      '<' :: (ArgumentReading.texts arguments ++ ['>']) := by
  refine if_neg ?_
  match arguments with
  | [] => exact absurd rfl nonempty
  | .any :: _ => simp [ArgumentReading.texts, ArgumentReading.text]
  | .bounded _ type :: _ =>
    obtain ⟨c, others, spelled, -⟩ := type.text_eq_cons
    simp [ArgumentReading.texts, ArgumentReading.text, spelled]

mutual

theorem TypeReading.exists_javaType : (reading : TypeReading) → reading.IsRegular →
    ∃ type : JavaType, type.text = reading.text ∧ type.kind = reading.kind
  | .primitive letter known, regular => by
    rw [TypeReading.IsRegular] at regular
    obtain ⟨type, rfl⟩ := exists_baseType known regular
    exact ⟨.base type, by rw [JavaType.text, TypeReading.text], rfl⟩
  | .variable name _, regular => by
    rw [TypeReading.IsRegular] at regular
    obtain ⟨identifier, rfl⟩ := regular.exists_identifier
    refine ⟨.reference (.variable identifier), ?_, rfl⟩
    rw [JavaType.text, ReferenceType.text, TypeReading.text]
  | .array element, regular => by
    rw [TypeReading.IsRegular] at regular
    obtain ⟨type, spelled, -⟩ := element.exists_javaType regular
    refine ⟨.reference (.array type), ?_, rfl⟩
    rw [JavaType.text, ReferenceType.text, TypeReading.text, spelled]
  | .ofClass (.mk name _ _ brackets) members, regular => by
    rw [TypeReading.IsRegular] at regular
    obtain ⟨⟨package, last, rfl⟩, bracketsRegular, membersRegular⟩ := regular
    obtain ⟨arguments, argumentsSpelled⟩ := exists_arguments_of_brackets brackets bracketsRegular
    obtain ⟨segments, segmentsSpelled⟩ := exists_segments members membersRegular
    refine ⟨.reference (.ofClass (.mk package (.mk last arguments) segments)), ?_, rfl⟩
    rw [JavaType.text, ReferenceType.text, ClassType.text, Segment.text, TypeReading.text,
      SegmentReading.text, argumentsSpelled, segmentsSpelled]
    simp

theorem exists_segments : (members : List SegmentReading) → SegmentReading.AreRegular members →
    ∃ segments, memberTexts segments = SegmentReading.texts members
  | [], _ => ⟨[], by rw [memberTexts, SegmentReading.texts]⟩
  | .mk name _ _ brackets :: members, regular => by
    rw [SegmentReading.AreRegular] at regular
    obtain ⟨isIdentifier, bracketsRegular, membersRegular⟩ := regular
    obtain ⟨identifier, rfl⟩ := isIdentifier.exists_identifier
    obtain ⟨arguments, argumentsSpelled⟩ := exists_arguments_of_brackets brackets bracketsRegular
    obtain ⟨segments, segmentsSpelled⟩ := exists_segments members membersRegular
    refine ⟨.mk identifier arguments :: segments, ?_⟩
    rw [memberTexts, Segment.text, SegmentReading.texts, SegmentReading.text, argumentsSpelled,
      segmentsSpelled]

theorem exists_arguments_of_brackets : (brackets : List BracketReading) →
    BracketReading.AreRegular brackets →
      ∃ arguments, inBrackets (argumentTexts arguments) = BracketReading.texts brackets
  | [], _ => ⟨[], by rw [argumentTexts, BracketReading.texts]; rfl⟩
  | .mk readings behind _ :: others, regular => by
    rw [BracketReading.AreRegular] at regular
    obtain ⟨rfl, nonempty, rfl, argumentsRegular⟩ := regular
    obtain ⟨arguments, spelled⟩ := exists_arguments readings argumentsRegular
    refine ⟨arguments, ?_⟩
    rw [spelled, inBrackets_texts nonempty, BracketReading.texts, BracketReading.text,
      BracketReading.texts, List.append_nil]

theorem exists_arguments : (readings : List ArgumentReading) →
    ArgumentReading.AreRegular readings →
      ∃ arguments, argumentTexts arguments = ArgumentReading.texts readings
  | [], _ => ⟨[], by rw [argumentTexts, ArgumentReading.texts]⟩
  | .any :: readings, regular => by
    rw [ArgumentReading.AreRegular] at regular
    obtain ⟨arguments, spelled⟩ := exists_arguments readings regular
    refine ⟨.any :: arguments, ?_⟩
    rw [argumentTexts, TypeArgument.text, ArgumentReading.texts, ArgumentReading.text, spelled]
  | .bounded bound reading :: readings, regular => by
    rw [ArgumentReading.AreRegular] at regular
    obtain ⟨isReference, typeRegular, regular⟩ := regular
    obtain ⟨type, typeSpelled, sameKind⟩ := reading.exists_javaType typeRegular
    obtain ⟨type, rfl⟩ := type.exists_reference (sameKind ▸ isReference)
    rw [JavaType.text] at typeSpelled
    obtain ⟨arguments, spelled⟩ := exists_arguments readings regular
    refine ⟨.bounded bound type :: arguments, ?_⟩
    rw [argumentTexts, TypeArgument.text, ArgumentReading.texts, ArgumentReading.text, spelled,
      typeSpelled]

end

theorem TypeReading.exists_classType {reading : TypeReading}
    (regular : reading.kind = .ofClass ∧ reading.IsRegular) :
    ∃ type : ClassType, type.text = reading.text := by
  obtain ⟨isClass, regular⟩ := regular
  obtain ⟨type, spelled, sameKind⟩ := reading.exists_javaType regular
  rw [isClass] at sameKind
  match type, sameKind with
  | .reference (.ofClass type), _ =>
    rw [JavaType.text, ReferenceType.text] at spelled
    exact ⟨type, spelled⟩

theorem TypeReading.exists_namedType {reading : TypeReading}
    (regular : (reading.kind = .variable ∨ reading.kind = .ofClass) ∧ reading.IsRegular) :
    ∃ type : NamedType, type.toReference.text = reading.text := by
  obtain ⟨isNamed, regular⟩ := regular
  obtain ⟨type, spelled, sameKind⟩ := reading.exists_javaType regular
  rw [← sameKind] at isNamed
  match type, isNamed with
  | .reference (.variable name), _ =>
    rw [JavaType.text] at spelled
    exact ⟨.variable name, spelled⟩
  | .reference (.ofClass type), _ =>
    rw [JavaType.text] at spelled
    exact ⟨.ofClass type, spelled⟩

/-! ## From a type of the grammar to a reading without liberties -/

theorem Identifier.isIdentifier (name : Identifier) : IsIdentifier name.chars :=
  ⟨name.nonempty, name.plain⟩

theorem exists_brackets {arguments : List TypeArgument} {readings : List ArgumentReading}
    (regular : ArgumentReading.AreRegular readings)
    (spelled : ArgumentReading.texts readings = argumentTexts arguments) :
    ∃ brackets, BracketReading.AreRegular brackets ∧
      BracketReading.texts brackets = inBrackets (argumentTexts arguments) := by
  cases readings with
  | nil =>
    refine ⟨[], by rw [BracketReading.AreRegular]; trivial, ?_⟩
    rw [← spelled, ArgumentReading.texts, BracketReading.texts]
    rfl
  | cons reading readings =>
    refine ⟨[.mk (reading :: readings) [] unmarked_nil], ?_, ?_⟩
    · rw [BracketReading.AreRegular]
      exact ⟨rfl, List.cons_ne_nil _ _, rfl, regular⟩
    · rw [← spelled, inBrackets_texts (List.cons_ne_nil _ _), BracketReading.texts,
        BracketReading.text, BracketReading.texts, List.append_nil]

theorem ReferenceType.kind_ne_primitive (type : ReferenceType) :
    (JavaType.reference type).kind ≠ .primitive := by
  cases type
  all_goals exact TypeKind.noConfusion

mutual

theorem JavaType.exists_reading : (type : JavaType) → ∃ reading : TypeReading,
    reading.IsRegular ∧ reading.text = type.text ∧ reading.kind = type.kind
  | .base type => by
    refine ⟨.primitive type.letter type.isSome_primitiveName?, ?_, ?_, rfl⟩
    · rw [TypeReading.IsRegular]
      cases type <;> decide
    · rw [TypeReading.text, JavaType.text]
  | .reference type => by
    obtain ⟨reading, regular, spelled, sameKind⟩ := type.exists_reading
    exact ⟨reading, regular, by rw [spelled, JavaType.text], sameKind⟩

theorem ReferenceType.exists_reading : (type : ReferenceType) → ∃ reading : TypeReading,
    reading.IsRegular ∧ reading.text = type.text ∧
      reading.kind = (JavaType.reference type).kind
  | .variable name => by
    refine ⟨.variable name.chars (name.not_mem ';' (by decide)), ?_, ?_, rfl⟩
    · rw [TypeReading.IsRegular]
      exact name.isIdentifier
    · rw [TypeReading.text, ReferenceType.text]
  | .array element => by
    obtain ⟨reading, regular, spelled, -⟩ := element.exists_reading
    refine ⟨.array reading, ?_, ?_, rfl⟩
    · rw [TypeReading.IsRegular]
      exact regular
    · rw [TypeReading.text, ReferenceType.text, spelled]
  | .ofClass type => by
    obtain ⟨reading, ⟨isClass, regular⟩, spelled⟩ := type.exists_reading
    exact ⟨reading, regular, by rw [spelled, ReferenceType.text], isClass⟩

theorem ClassType.exists_reading : (type : ClassType) → ∃ reading : TypeReading,
    (reading.kind = .ofClass ∧ reading.IsRegular) ∧ reading.text = type.text
  | .mk package (.mk last arguments) members => by
    obtain ⟨readings, regular, spelled⟩ := exists_argumentReadings arguments
    obtain ⟨brackets, bracketsRegular, bracketsSpelled⟩ := exists_brackets regular spelled
    obtain ⟨segments, segmentsRegular, segmentsSpelled⟩ := exists_segmentReadings members
    have nonempty : pathText package ++ last.chars ≠ [] := by
      rw [Ne, List.append_eq_nil_iff, not_and]
      exact fun _ => last.nonempty
    have unmarked := (unmarked_pathText package).append last.unmarked
    refine ⟨.ofClass (.mk _ nonempty unmarked brackets) segments, ⟨rfl, ?_⟩, ?_⟩
    · rw [TypeReading.IsRegular]
      exact ⟨⟨package, last, rfl⟩, bracketsRegular, segmentsRegular⟩
    · rw [TypeReading.text, SegmentReading.text, ClassType.text, Segment.text, bracketsSpelled,
        segmentsSpelled]
      simp

theorem exists_segmentReadings : (members : List Segment) → ∃ readings,
    SegmentReading.AreRegular readings ∧ SegmentReading.texts readings = memberTexts members
  | [] => ⟨[], by rw [SegmentReading.AreRegular]; trivial, by
      rw [SegmentReading.texts, memberTexts]⟩
  | .mk name arguments :: members => by
    obtain ⟨readings, regular, spelled⟩ := exists_argumentReadings arguments
    obtain ⟨brackets, bracketsRegular, bracketsSpelled⟩ := exists_brackets regular spelled
    obtain ⟨segments, segmentsRegular, segmentsSpelled⟩ := exists_segmentReadings members
    refine ⟨.mk name.chars name.nonempty name.unmarked brackets :: segments, ?_, ?_⟩
    · rw [SegmentReading.AreRegular]
      exact ⟨name.isIdentifier, bracketsRegular, segmentsRegular⟩
    · rw [SegmentReading.texts, SegmentReading.text, memberTexts, Segment.text, bracketsSpelled,
        segmentsSpelled]

theorem exists_argumentReadings : (arguments : List TypeArgument) → ∃ readings,
    ArgumentReading.AreRegular readings ∧
      ArgumentReading.texts readings = argumentTexts arguments
  | [] => ⟨[], by rw [ArgumentReading.AreRegular]; trivial, by
      rw [ArgumentReading.texts, argumentTexts]⟩
  | .any :: arguments => by
    obtain ⟨readings, regular, spelled⟩ := exists_argumentReadings arguments
    refine ⟨.any :: readings, ?_, ?_⟩
    · rw [ArgumentReading.AreRegular]
      exact regular
    · rw [ArgumentReading.texts, ArgumentReading.text, argumentTexts, TypeArgument.text, spelled]
  | .bounded bound type :: arguments => by
    obtain ⟨readings, regular, spelled⟩ := exists_argumentReadings arguments
    obtain ⟨reading, typeRegular, typeSpelled, sameKind⟩ := type.exists_reading
    refine ⟨.bounded bound reading :: readings, ?_, ?_⟩
    · rw [ArgumentReading.AreRegular]
      exact ⟨sameKind ▸ type.kind_ne_primitive, typeRegular, regular⟩
    · rw [ArgumentReading.texts, ArgumentReading.text, argumentTexts, TypeArgument.text, spelled,
        typeSpelled]

end

theorem NamedType.exists_reading (type : NamedType) : ∃ reading : TypeReading,
    ((reading.kind = .variable ∨ reading.kind = .ofClass) ∧ reading.IsRegular) ∧
      reading.text = type.toReference.text := by
  obtain ⟨reading, regular, spelled, sameKind⟩ := type.toReference.exists_reading
  refine ⟨reading, ⟨?_, regular⟩, spelled⟩
  rw [sameKind]
  cases type
  · exact .inl rfl
  · exact .inr rfl

/-- The types of the grammar are the readings that take no liberty. -/
theorem exists_javaType_iff {text : List Char} :
    (∃ type : JavaType, text = type.text) ↔
      ∃ reading : TypeReading, reading.IsRegular ∧ text = reading.text := by
  constructor
  · rintro ⟨type, spelled⟩
    obtain ⟨reading, regular, same, -⟩ := type.exists_reading
    exact ⟨reading, regular, by rw [spelled, same]⟩
  · rintro ⟨reading, regular, spelled⟩
    obtain ⟨type, same, -⟩ := reading.exists_javaType regular
    exact ⟨type, by rw [spelled, same]⟩

/-! ## Lists of types -/

section Lists

variable {α β : Type}

theorem exists_forall₂ {R : α → β → Prop} {readings : List β}
    (related : ∀ reading ∈ readings, ∃ item, R item reading) :
    ∃ items, List.Forall₂ R items readings := by
  induction readings with
  | nil => exact ⟨[], .nil⟩
  | cons reading readings inductionHypothesis =>
    obtain ⟨⟨item, first⟩, others⟩ := List.forall_mem_cons.mp related
    obtain ⟨items, more⟩ := inductionHypothesis others
    exact ⟨item :: items, .cons first more⟩

theorem flatMap_eq_of_forall₂ {write : α → List Char} {text : β → List Char} {items : List α}
    {readings : List β}
    (same : List.Forall₂ (fun item reading => write item = text reading) items readings) :
    items.flatMap write = readings.flatMap text := by
  induction same with
  | nil => rfl
  | cons first _ inductionHypothesis =>
    rw [List.flatMap_cons, List.flatMap_cons, first, inductionHypothesis]

theorem exists_flatMap_eq {write : α → List Char} {text : β → List Char} {readings : List β}
    (spelled : ∀ reading ∈ readings, ∃ item, write item = text reading) :
    ∃ items : List α, items.flatMap write = readings.flatMap text := by
  obtain ⟨items, same⟩ := exists_forall₂ spelled
  exact ⟨items, flatMap_eq_of_forall₂ same⟩

theorem exists_regular_flatMap_eq {write : α → List Char} {text : β → List Char}
    {IsRegular : β → Prop} (spelled : ∀ item, ∃ reading, IsRegular reading ∧
      text reading = write item) (items : List α) :
    ∃ readings : List β, (∀ reading ∈ readings, IsRegular reading) ∧
      readings.flatMap text = items.flatMap write := by
  obtain ⟨readings, related⟩ := exists_forall₂ fun item (_ : item ∈ items) => spelled item
  obtain ⟨regular, same⟩ := (List.forall₂_and_left _ _).mp related
  exact ⟨readings, regular, flatMap_eq_of_forall₂ same⟩

end Lists

/-! ## Type parameters -/

/-- The reading takes no liberty and is that of the type. -/
structure ReferenceType.Spells (type : ReferenceType) (reading : TypeReading) : Prop where
  isReference : reading.kind ≠ .primitive
  isRegular : reading.IsRegular
  text : type.text = reading.text

theorem ReferenceType.exists_spells (type : ReferenceType) : ∃ reading, type.Spells reading := by
  obtain ⟨reading, regular, spelled, sameKind⟩ := type.exists_reading
  exact ⟨reading, sameKind ▸ type.kind_ne_primitive, regular, spelled.symm⟩

theorem TypeReading.exists_spells {reading : TypeReading} (isReference : reading.kind ≠ .primitive)
    (regular : reading.IsRegular) : ∃ type : ReferenceType, type.Spells reading := by
  obtain ⟨type, spelled, sameKind⟩ := reading.exists_javaType regular
  obtain ⟨type, rfl⟩ := type.exists_reference (sameKind ▸ isReference)
  rw [JavaType.text] at spelled
  exact ⟨type, isReference, regular, spelled⟩

section ClassBound

variable {form : Option ReferenceType} {reading : Option TypeReading}
  (spells : Option.Rel ReferenceType.Spells form reading)

include spells

theorem elim_text_eq : form.elim [] ReferenceType.text = reading.elim [] TypeReading.text := by
  cases spells with
  | some bound => exact bound.text
  | none => rfl

theorem eq_none_iff : form = none ↔ reading = none := by
  cases spells with
  | some _ => simp
  | none => simp

theorem exists_spells_of_mem {bound : TypeReading} (isBound : bound ∈ reading) :
    ∃ type : ReferenceType, type.Spells bound := by
  cases spells with
  | some spells =>
    cases isBound
    exact ⟨_, spells⟩
  | none => cases isBound

end ClassBound

/-- The reading takes no liberty and is that of the type parameter, bound by bound. -/
structure TypeParameterForm.Spells (form : TypeParameterForm) (reading : ParameterReading) :
    Prop where
  name : form.name.chars = reading.name
  classBound : Option.Rel ReferenceType.Spells form.classBound reading.classBound
  interfaceBounds : List.Forall₂ ReferenceType.Spells form.interfaceBounds reading.interfaceBounds

namespace TypeParameterForm.Spells

variable {form next : TypeParameterForm} {reading nextReading : ParameterReading}

theorem text_eq (spells : form.Spells reading) : form.text = reading.text := by
  have interfaceBounds : (form.interfaceBounds.flatMap fun bound => ':' :: bound.text) =
      reading.interfaceBounds.flatMap fun bound => ':' :: bound.text :=
    flatMap_eq_of_forall₂ (spells.interfaceBounds.imp fun _ _ bound => by rw [bound.text])
  rw [TypeParameterForm.text, ParameterReading.text, spells.name, elim_text_eq spells.classBound,
    interfaceBounds]

theorem isRegular (spells : form.Spells reading) : reading.IsRegular where
  name := spells.name ▸ form.name.isIdentifier
  classBound := by
    intro bound isBound
    obtain ⟨_, spelled⟩ := exists_spells_of_mem spells.classBound isBound
    exact spelled.isRegular
  interfaceBounds :=
    ((List.forall₂_and_left _ _).mp (spells.interfaceBounds.flip.imp fun _ _ spelled =>
      ⟨⟨spelled.isReference, spelled.isRegular⟩, spelled.text⟩)).1

theorem isBare_iff (spells : form.Spells reading) :
    form.classBound = none ∧ form.interfaceBounds = [] ↔ reading.IsBare := by
  refine and_congr (eq_none_iff spells.classBound) ?_
  rw [← List.length_eq_zero_iff, spells.interfaceBounds.length_eq, List.length_eq_zero_iff]

/-- A name of the grammar begins like nothing else that could follow. -/
theorem precedes_iff (spells : form.Spells reading) (spellsNext : next.Spells nextReading) :
    form.Precedes next ↔ reading.Precedes nextReading := by
  rw [TypeParameterForm.Precedes, ParameterReading.Precedes, ← spellsNext.name, spells.isBare_iff]
  constructor
  · intro precedes c head
    have plain := next.name.plain c (List.mem_of_mem_head? head)
    refine ⟨?_, ?_, fun isBare => precedes isBare c head⟩
    · rintro rfl
      exact plain (by decide)
    · rintro rfl
      exact plain (by decide)
  · intro precedes isBare c head
    exact (precedes c head).2.2 isBare

theorem isChain_iff {forms : List TypeParameterForm} {readings : List ParameterReading}
    (spells : List.Forall₂ TypeParameterForm.Spells forms readings) :
    forms.IsChain TypeParameterForm.Precedes ↔ readings.IsChain ParameterReading.Precedes := by
  induction spells with
  | nil => exact iff_of_true .nil .nil
  | cons first others inductionHypothesis =>
    cases others with
    | nil => exact iff_of_true (.singleton _) (.singleton _)
    | cons second _ =>
      rw [List.isChain_cons_cons, List.isChain_cons_cons]
      exact and_congr (first.precedes_iff second) inductionHypothesis

end TypeParameterForm.Spells

theorem TypeParameterForm.exists_spells (form : TypeParameterForm) :
    ∃ reading, form.Spells reading := by
  have bounded : ∃ classBound, Option.Rel ReferenceType.Spells form.classBound classBound := by
    cases form.classBound with
    | none => exact ⟨none, .none⟩
    | some bound =>
      obtain ⟨reading, spells⟩ := bound.exists_spells
      exact ⟨some reading, .some spells⟩
  obtain ⟨classBound, bounded⟩ := bounded
  obtain ⟨interfaceBounds, interfaces⟩ := exists_forall₂ fun bound
    (_ : bound ∈ form.interfaceBounds) => bound.exists_spells
  have isReference : ∀ bound ∈ classBound, bound.kind ≠ .primitive := by
    intro bound isBound
    obtain ⟨_, spells⟩ := exists_spells_of_mem bounded isBound
    exact spells.isReference
  exact ⟨⟨form.name.chars, form.name.nonempty, form.name.not_mem ':' (by decide), classBound,
    isReference, interfaceBounds⟩, rfl, bounded, interfaces.flip⟩

theorem ParameterReading.IsRegular.exists_spells {reading : ParameterReading}
    (regular : reading.IsRegular) : ∃ form : TypeParameterForm, form.Spells reading := by
  obtain ⟨identifier, named⟩ := regular.name.exists_identifier
  have bounded : ∃ classBound, Option.Rel ReferenceType.Spells classBound reading.classBound := by
    cases bound : reading.classBound with
    | none => exact ⟨none, .none⟩
    | some type =>
      obtain ⟨form, spells⟩ := TypeReading.exists_spells (reading.isReference type bound)
        (regular.classBound type bound)
      exact ⟨some form, .some spells⟩
  obtain ⟨classBound, bounded⟩ := bounded
  obtain ⟨interfaceBounds, interfaces⟩ := exists_forall₂ fun bound member =>
    TypeReading.exists_spells (regular.interfaceBounds bound member).1
      (regular.interfaceBounds bound member).2
  exact ⟨⟨identifier, classBound, interfaceBounds⟩, named, bounded, interfaces⟩

/-! ## Declarations -/

theorem exists_parameterForms {parameters : List ParameterReading}
    (chain : parameters.IsChain ParameterReading.Precedes)
    (regular : ∀ parameter ∈ parameters, parameter.IsRegular) :
    ∃ forms : List TypeParameterForm, forms.IsChain TypeParameterForm.Precedes ∧
      forms.flatMap TypeParameterForm.text = parameters.flatMap ParameterReading.text := by
  obtain ⟨forms, spells⟩ := exists_forall₂ fun parameter member =>
    (regular parameter member).exists_spells
  exact ⟨forms, (TypeParameterForm.Spells.isChain_iff spells).mpr chain,
    flatMap_eq_of_forall₂ (spells.imp fun _ _ spelled => spelled.text_eq)⟩

theorem exists_parameterReadings {forms : List TypeParameterForm}
    (clear : forms.IsChain TypeParameterForm.Precedes) :
    ∃ parameters : List ParameterReading, parameters.IsChain ParameterReading.Precedes ∧
      (∀ parameter ∈ parameters, parameter.IsRegular) ∧
        parameters.flatMap ParameterReading.text = forms.flatMap TypeParameterForm.text := by
  obtain ⟨parameters, spelled⟩ := exists_forall₂ fun form (_ : form ∈ forms) =>
    form.exists_spells
  obtain ⟨regular, same⟩ := (List.forall₂_and_left _ _).mp
    (spelled.imp fun _ _ spells => ⟨spells.isRegular, spells.text_eq.symm⟩)
  exact ⟨parameters, (TypeParameterForm.Spells.isChain_iff spelled.flip).mp clear, regular,
    flatMap_eq_of_forall₂ same⟩

/-- The classes of the grammar whose type parameters can be told apart are the readings that take
no liberty. -/
theorem exists_classForm_iff {text : List Char} :
    (∃ form : ClassForm, form.IsClear ∧ text = form.text) ↔
      ∃ declared : DeclarationReading, declared.IsRegularClass ∧ text = declared.text := by
  constructor
  · rintro ⟨⟨forms, type, types⟩, clear, rfl⟩
    obtain ⟨parameters, chain, regular, parametersSpelled⟩ := exists_parameterReadings clear
    obtain ⟨superclass, superRegular, superSpelled⟩ := type.exists_reading
    obtain ⟨interfaces, interfacesRegular, interfacesSpelled⟩ :=
      exists_regular_flatMap_eq ClassType.exists_reading types
    refine ⟨⟨parameters, chain, .ofClass superclass interfaces⟩, ⟨regular, ?_⟩, ?_⟩
    · exact List.forall_mem_cons.mpr ⟨superRegular, interfacesRegular⟩
    · rw [ClassForm.text, DeclarationReading.text, BodyReading.text, parametersSpelled,
        superSpelled, interfacesSpelled]
  · rintro ⟨⟨parameters, chain, body⟩, ⟨regular, bodyRegular⟩, rfl⟩
    obtain ⟨forms, clear, parametersSpelled⟩ := exists_parameterForms chain regular
    cases body with
    | ofMethod => exact bodyRegular.elim
    | ofClass superclass interfaces =>
      obtain ⟨superRegular, interfacesRegular⟩ := List.forall_mem_cons.mp bodyRegular
      obtain ⟨type, superSpelled⟩ := TypeReading.exists_classType superRegular
      obtain ⟨types, interfacesSpelled⟩ := exists_flatMap_eq fun reading member =>
        TypeReading.exists_classType (interfacesRegular reading member)
      refine ⟨⟨forms, type, types⟩, clear, ?_⟩
      rw [ClassForm.text, DeclarationReading.text, BodyReading.text, parametersSpelled,
        superSpelled, interfacesSpelled]

/-- The result of a method, void if there is none. -/
theorem exists_result {reading : TypeReading}
    (regular : reading.text = ['V'] ∨ reading.IsRegular) :
    ∃ result : Option JavaType, result.elim ['V'] JavaType.text = reading.text := by
  rcases regular with isVoid | regular
  · exact ⟨none, isVoid.symm⟩
  · obtain ⟨type, spelled, -⟩ := reading.exists_javaType regular
    exact ⟨some type, spelled⟩

theorem exists_resultReading (result : Option JavaType) :
    ∃ reading : TypeReading, (reading.text = ['V'] ∨ reading.IsRegular) ∧
      reading.text = result.elim ['V'] JavaType.text := by
  cases result with
  | none => exact ⟨.primitive 'V' rfl, .inl rfl, rfl⟩
  | some type =>
    obtain ⟨reading, regular, spelled, -⟩ := type.exists_reading
    exact ⟨reading, .inr regular, spelled⟩

/-- The methods of the grammar whose type parameters can be told apart are the readings that take
no liberty. -/
theorem exists_methodForm_iff {text : List Char} :
    (∃ form : MethodForm, form.IsClear ∧ text = form.text) ↔
      ∃ declared : DeclarationReading, declared.IsRegularMethod ∧ text = declared.text := by
  constructor
  · rintro ⟨⟨forms, types, type, thrown⟩, clear, rfl⟩
    obtain ⟨parameters, chain, regular, parametersSpelled⟩ := exists_parameterReadings clear
    have argumentReading (type : JavaType) : ∃ reading : TypeReading, reading.IsRegular ∧
        reading.text = type.text := by
      obtain ⟨reading, regular, spelled, -⟩ := type.exists_reading
      exact ⟨reading, regular, spelled⟩
    have thrownReading (type : NamedType) : ∃ reading : TypeReading,
        ((reading.kind = .variable ∨ reading.kind = .ofClass) ∧ reading.IsRegular) ∧
          '^' :: reading.text = '^' :: type.toReference.text := by
      obtain ⟨reading, regular, spelled⟩ := type.exists_reading
      exact ⟨reading, regular, congrArg _ spelled⟩
    obtain ⟨arguments, argumentsRegular, argumentsSpelled⟩ :=
      exists_regular_flatMap_eq argumentReading types
    obtain ⟨result, resultRegular, resultSpelled⟩ := exists_resultReading type
    obtain ⟨exceptions, exceptionsRegular, exceptionsSpelled⟩ :=
      exists_regular_flatMap_eq thrownReading thrown
    refine ⟨⟨parameters, chain, .ofMethod arguments result exceptions⟩,
      ⟨regular, argumentsRegular, resultRegular, exceptionsRegular⟩, ?_⟩
    rw [MethodForm.text, DeclarationReading.text, BodyReading.text, parametersSpelled,
      argumentsSpelled, resultSpelled, exceptionsSpelled]
  · rintro ⟨⟨parameters, chain, body⟩, ⟨regular, bodyRegular⟩, rfl⟩
    obtain ⟨forms, clear, parametersSpelled⟩ := exists_parameterForms chain regular
    cases body with
    | ofClass => exact bodyRegular.elim
    | ofMethod arguments result exceptions =>
      obtain ⟨argumentsRegular, resultRegular, exceptionsRegular⟩ := bodyRegular
      have argumentType : ∀ reading ∈ arguments,
          ∃ type : JavaType, type.text = reading.text := by
        intro reading member
        obtain ⟨type, spelled, -⟩ := reading.exists_javaType (argumentsRegular reading member)
        exact ⟨type, spelled⟩
      have thrownType : ∀ reading ∈ exceptions,
          ∃ type : NamedType, '^' :: type.toReference.text = '^' :: reading.text := by
        intro reading member
        obtain ⟨type, spelled⟩ := TypeReading.exists_namedType (exceptionsRegular reading member)
        exact ⟨type, congrArg _ spelled⟩
      obtain ⟨types, argumentsSpelled⟩ := exists_flatMap_eq argumentType
      obtain ⟨type, resultSpelled⟩ := exists_result resultRegular
      obtain ⟨thrown, exceptionsSpelled⟩ := exists_flatMap_eq thrownType
      refine ⟨⟨forms, types, type, thrown⟩, clear, ?_⟩
      rw [MethodForm.text, DeclarationReading.text, BodyReading.text, parametersSpelled,
        argumentsSpelled, resultSpelled, exceptionsSpelled]

end JvmDiff.Signature
