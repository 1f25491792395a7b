import JvmDiff.Proofs.Class.Blueprint
import JvmDiff.Proofs.Comparison.Silence
import JvmDiff.Proofs.Content.Members

/-!
# What a comparison of classes finds and what it overlooks

If a comparison of two versions of a class finds nothing, then their contents are equal, apart
from three things that stand in a content and that no comparison looks at: the type parameters of
the class, the type parameters of its methods and the order of the constants of an enumeration.
-/

namespace JvmDiff

/-! ## Plain declarations -/

/-- The arguments of a member are plain, and so are the names of its exceptions
and annotations. -/
structure Member.Declared.IsPlain (member : Declared) : Prop where
  arguments : Text.IsPlain member.arguments
  exceptions : ∀ exception ∈ member.exceptions, Text.IsPlain exception
  annotations : ∀ usage ∈ member.annotations, Text.IsPlain usage.name

instance : DecidablePred Member.Declared.IsPlain := fun member =>
  decidable_of_iff
    (Text.IsPlain member.arguments ∧ (∀ exception ∈ member.exceptions, Text.IsPlain exception) ∧
      ∀ usage ∈ member.annotations, Text.IsPlain usage.name)
    ⟨fun ⟨arguments, exceptions, annotations⟩ => ⟨arguments, exceptions, annotations⟩,
      fun plain => ⟨plain.arguments, plain.exceptions, plain.annotations⟩⟩

/-- Every name in a class is plain. -/
structure Class.Blueprint.IsPlain (blueprint : Blueprint) : Prop where
  annotations : ∀ usage ∈ blueprint.annotations, Text.IsPlain usage.name
  fields : ∀ field ∈ blueprint.fields,
    Text.IsPlain field.name ∧ ∀ usage ∈ field.annotations, Text.IsPlain usage.name
  constructors : ∀ member ∈ blueprint.constructors, member.IsPlain
  methods : ∀ member ∈ blueprint.methods,
    member.IsPlain ∧ Text.IsPlain member.name ∧ '(' ∉ member.name.toList
  innerClasses : ∀ entry ∈ blueprint.innerClasses, Text.IsPlain entry.1

instance : DecidablePred Class.Blueprint.IsPlain := fun blueprint =>
  decidable_of_iff
    ((∀ usage ∈ blueprint.annotations, Text.IsPlain usage.name) ∧
      (∀ field ∈ blueprint.fields,
        Text.IsPlain field.name ∧ ∀ usage ∈ field.annotations, Text.IsPlain usage.name) ∧
      (∀ member ∈ blueprint.constructors, member.IsPlain) ∧
      (∀ member ∈ blueprint.methods,
        member.IsPlain ∧ Text.IsPlain member.name ∧ '(' ∉ member.name.toList) ∧
      ∀ entry ∈ blueprint.innerClasses, Text.IsPlain entry.1)
    ⟨fun ⟨annotations, fields, constructors, methods, innerClasses⟩ =>
        ⟨annotations, fields, constructors, methods, innerClasses⟩,
      fun plain =>
        ⟨plain.annotations, plain.fields, plain.constructors, plain.methods,
          plain.innerClasses⟩⟩

/-- What the exceptions and annotations of a member in canonical form are like. -/
structure Member.Canonical (arguments : String) (exceptions : List String)
    (annotations : List AnnotationUse) : Prop where
  plainArguments : Text.IsPlain arguments
  plainExceptions : ∀ exception ∈ exceptions, Text.IsPlain exception
  ascending : exceptions.Pairwise (· ≤ ·)
  tidy : Comparison.Tidy annotations

theorem Member.Declared.IsPlain.canonical {member : Declared} (plain : member.IsPlain) :
    Canonical member.arguments member.sortedExceptions (Entity.sorted member.annotations) where
  plainArguments := plain.arguments
  plainExceptions := by
    intro exception isMember
    obtain ⟨declared, declaredMember, rfl⟩ :=
      List.mem_map.mp ((Text.sorted_perm _).mem_iff.mp isMember)
    exact Text.isPlain_dotted (plain.exceptions declared declaredMember)
  ascending := Text.pairwise_sorted _
  tidy := Comparison.tidy_sorted plain.annotations

/-- A constructor whose content gives away its identity. -/
structure Constructor.Canonical (constructor : Constructor) : Prop where
  identity : constructor.identity =
    Member.identity Member.constructorName constructor.arguments
  shared : Member.Canonical constructor.arguments constructor.exceptions
    constructor.annotations

/-- A method whose content gives away its identity. -/
structure Method.Canonical (method : Method) : Prop where
  identity : method.identity = Member.identity method.simpleName method.arguments
  simpleName : Text.IsPlain method.simpleName
  unopened : '(' ∉ method.simpleName.toList
  shared : Member.Canonical method.arguments method.exceptions method.annotations

theorem Constructor.Canonical.identity_eq {first second : Constructor}
    (firstCanonical : first.Canonical) (secondCanonical : second.Canonical)
    (same : first.content = second.content) : first.identity = second.identity := by
  rw [firstCanonical.identity, secondCanonical.identity,
    arguments_eq_of_content_eq firstCanonical.shared.plainArguments
      secondCanonical.shared.plainArguments firstCanonical.shared.plainExceptions
      secondCanonical.shared.plainExceptions same]

theorem Method.Canonical.identity_eq {first second : Method}
    (firstCanonical : first.Canonical) (secondCanonical : second.Canonical)
    (same : first.content = second.content) : first.identity = second.identity := by
  obtain ⟨sameName, sameArguments⟩ := identity_eq_of_content_eq firstCanonical.simpleName
    secondCanonical.simpleName firstCanonical.shared.plainArguments
    secondCanonical.shared.plainArguments firstCanonical.shared.plainExceptions
    secondCanonical.shared.plainExceptions same
  rw [firstCanonical.identity, secondCanonical.identity, sameName, sameArguments]

/-- The method without its type parameters. -/
def Method.withoutClause (method : Method) : Method :=
  { method with genericTypes := "" }

/-- The type parameters are all that a method loses. -/
theorem Method.Canonical.content_eq_of_withoutClause {first second : Method}
    (firstCanonical : first.Canonical) (secondCanonical : second.Canonical)
    (same : first.withoutClause.content = second.withoutClause.content)
    (sameClause : first.genericTypes = second.genericTypes) : first.content = second.content := by
  have spelled := congrArg String.toList same
  simp only [content, withoutClause, contentText, if_true, String.toList_append,
    List.append_assoc] at spelled
  have afterLabel := List.append_cancel_left spelled
  obtain ⟨sameName, sameRest⟩ := Text.append_inj_of_plain firstCanonical.simpleName
    secondCanonical.simpleName (Text.atMark_label _) (Text.atMark_label _) afterLabel
  apply String.toList_inj.mp
  simp only [content, String.toList_append, List.append_assoc, sameName, sameClause]
  simpa using sameRest

/-- The contents of two classes agree when all their parts do. -/
theorem Class.content_congr {first second : Class} (name : first.name = second.name)
    (kind : first.kind = second.kind) (version : first.version = second.version)
    (typeParameters : first.typeParameters = second.typeParameters)
    (superclass : first.superclass = second.superclass) (access : first.access = second.access)
    (annotations : first.annotations.map Entity.content = second.annotations.map Entity.content)
    (interfaces : first.interfaces = second.interfaces)
    (fields : first.fields.map Entity.content = second.fields.map Entity.content)
    (constructors :
      first.constructors.map Entity.content = second.constructors.map Entity.content)
    (methods : first.methods.map Entity.content = second.methods.map Entity.content)
    (innerClasses :
      first.innerClasses.map Entity.content = second.innerClasses.map Entity.content) :
    first.content = second.content := by
  have annotationsPart := contentPart_contentList_congr "A" annotations
  have fieldsPart := contentPart_contentList_congr "F" fields
  have constructorsPart := contentPart_contentList_congr "CT" constructors
  have methodsPart := contentPart_contentList_congr "M" methods
  have innerClassesPart := contentPart_contentList_congr "IC" innerClasses
  unfold content
  rw [name, kind, version, typeParameters, superclass, access, interfaces, annotationsPart,
    fieldsPart, constructorsPart, methodsPart, innerClassesPart]

namespace Comparison

/-- The texts whose digests a comparison of a class looks at. -/
def classTexts (c : Class) : List String :=
  hashedTexts c c.annotations ++
    (c.fields.flatMap fun field => hashedTexts field field.annotations) ++
    (c.constructors.flatMap fun constructor => hashedTexts constructor constructor.annotations) ++
    (c.methods.flatMap fun method => hashedTexts method method.annotations) ++
    c.innerClasses.map Entity.content

/-- A class in which every content gives away the name of its part; the contents
are among the texts. -/
structure Legible (texts : List String) (c : Class) : Prop where
  ownTexts : hashedTexts c c.annotations ⊆ texts
  interfaces : c.interfaces.Pairwise (· ≤ ·)
  annotations : Tidy c.annotations
  fields : ∀ field ∈ c.fields, Text.IsPlain field.name ∧ Tidy field.annotations
  fieldTexts : ∀ field ∈ c.fields, hashedTexts field field.annotations ⊆ texts
  fieldOrder : c.kind ≠ .enumeration → Entity.Ascends c.fields
  constructors : ∀ constructor ∈ c.constructors, constructor.Canonical
  constructorTexts : ∀ constructor ∈ c.constructors,
    hashedTexts constructor constructor.annotations ⊆ texts
  constructorOrder : Entity.Ascends c.constructors
  methods : ∀ method ∈ c.methods, method.Canonical
  methodTexts : ∀ method ∈ c.methods, hashedTexts method method.annotations ⊆ texts
  methodOrder : Entity.Ascends c.methods
  innerClasses : ∀ entry ∈ c.innerClasses, Text.IsPlain entry.name
  innerClassTexts : c.innerClasses.map Entity.content ⊆ texts
  innerClassOrder : Entity.Ascends c.innerClasses

theorem subset_of_flatMap_subset {α : Type} {parts : List α} {write : α → List String}
    {texts : List String} (subset : parts.flatMap write ⊆ texts) :
    ∀ part ∈ parts, write part ⊆ texts := by
  intro part partMember text member
  exact subset (List.mem_flatMap.mpr ⟨part, partMember, member⟩)

theorem legible_build {blueprint : Class.Blueprint} {texts : List String}
    (plain : blueprint.IsPlain) (covered : classTexts blueprint.build ⊆ texts) :
    Legible texts blueprint.build := by
  simp only [classTexts, List.append_subset] at covered
  obtain ⟨⟨⟨⟨ownTexts, fieldTexts⟩, constructorTexts⟩, methodTexts⟩, innerClassTexts⟩ := covered
  constructor
  case ownTexts => exact ownTexts
  case interfaces => exact Text.pairwise_sorted _
  case annotations => exact tidy_sorted plain.annotations
  case fields =>
    intro field member
    obtain ⟨declared, declaredMember, rfl⟩ :=
      List.mem_map.mp (blueprint.fields_perm.mem_iff.mp member)
    obtain ⟨namePlain, annotationsPlain⟩ := plain.fields declared declaredMember
    exact ⟨namePlain, tidy_sorted annotationsPlain⟩
  case fieldTexts => exact subset_of_flatMap_subset fieldTexts
  case fieldOrder => exact blueprint.ascends_fields
  case constructors =>
    intro constructor member
    obtain ⟨declared, declaredMember, rfl⟩ :=
      List.mem_map.mp (blueprint.constructors_perm.mem_iff.mp member)
    exact ⟨rfl, (plain.constructors declared declaredMember).canonical⟩
  case constructorTexts => exact subset_of_flatMap_subset constructorTexts
  case constructorOrder => exact Entity.ascends_sorted _
  case methods =>
    intro method member
    obtain ⟨declared, declaredMember, rfl⟩ :=
      List.mem_map.mp (blueprint.methods_perm.mem_iff.mp member)
    obtain ⟨declaredPlain, namePlain, unopened⟩ := plain.methods declared declaredMember
    exact ⟨rfl, namePlain, unopened, declaredPlain.canonical⟩
  case methodTexts => exact subset_of_flatMap_subset methodTexts
  case methodOrder => exact Entity.ascends_sorted _
  case innerClasses =>
    intro entry member
    obtain ⟨declared, declaredMember, rfl⟩ :=
      List.mem_map.mp (blueprint.innerClasses_perm.mem_iff.mp member)
    exact Text.isPlain_dotted (plain.innerClasses declared declaredMember)
  case innerClassTexts => exact innerClassTexts
  case innerClassOrder => exact Entity.ascends_sorted _

/-! ## What is found -/

theorem contents_subset {α : Type} [Entity α] {parts : List α} {texts : List String}
    {annotations : α → List AnnotationUse}
    (covered : ∀ part ∈ parts, hashedTexts part (annotations part) ⊆ texts) :
    parts.map Entity.content ⊆ texts := by
  intro text member
  obtain ⟨part, partMember, rfl⟩ := List.mem_map.mp member
  exact covered part partMember List.mem_cons_self

/-- Methods of one identity that a comparison finds no difference between have
the same content, apart from their type parameters. -/
theorem withoutClause_content_eq_of_ofMethod_eq_nil {texts : List String}
    (free : Sha256.CollisionFree texts) {previous next : Method}
    (previousCanonical : previous.Canonical) (nextCanonical : next.Canonical)
    (previousTexts : hashedTexts previous previous.annotations ⊆ texts)
    (nextTexts : hashedTexts next next.annotations ⊆ texts)
    (sameIdentity : previous.identity = next.identity) (silent : ofMethod previous next = []) :
    previous.content = next.content ∨
      previous.withoutClause.content = next.withoutClause.content := by
  obtain ⟨previousText, previousTexts⟩ := List.cons_subset.mp previousTexts
  obtain ⟨nextText, nextTexts⟩ := List.cons_subset.mp nextTexts
  rcases (unlessSame_eq_nil_iff _ _ _).mp silent with sameHash | nothing
  · exact Or.inl (free _ previousText _ nextText sameHash)
  · apply Or.inr
    simp only [List.append_eq_nil_iff, ofAccess_eq_nil_iff, ofTexts_eq_nil_iff] at nothing
    obtain ⟨⟨⟨sameAccess, sameType⟩, exceptionsNone⟩, annotationsNone⟩ := nothing
    -- The matched identity says what no attribute check says: the name and the arguments.
    rw [previousCanonical.identity, nextCanonical.identity] at sameIdentity
    obtain ⟨sameName, sameArguments⟩ :=
      Member.identity_inj previousCanonical.unopened nextCanonical.unopened sameIdentity
    have sameExceptions := eq_of_ofNames_eq_nil previousCanonical.shared.ascending
      nextCanonical.shared.ascending exceptionsNone
    have sameAnnotations := contents_eq_of_ofAnnotations_eq_nil free previousTexts nextTexts
      previousCanonical.shared.tidy nextCanonical.shared.tidy annotationsNone
    simp only [Method.withoutClause, Method.content, sameName, sameType, sameAccess,
      sameArguments, sameExceptions, Member.contentTail_congr _ _ sameAnnotations]

section Found

variable {texts : List String} {topics : PartTopics} {owner : String} {previous next : Class}

theorem fields_perm_of_silent (free : Sha256.CollisionFree texts)
    (previousLegible : Legible texts previous) (nextLegible : Legible texts next)
    (silent : ofEntities topics owner ofField previous.fields next.fields = []) :
    (previous.fields.map Entity.content).Perm (next.fields.map Entity.content) := by
  apply contents_perm_of_ofMatching_eq_nil free (contents_subset previousLegible.fieldTexts)
    (contents_subset nextLegible.fieldTexts) _ silent
  intro first firstMember second secondMember sameName
  exact (ofField_eq_nil_iff free sameName (previousLegible.fields first firstMember).2
    (nextLegible.fields second secondMember).2
    (previousLegible.fieldTexts first firstMember)
    (nextLegible.fieldTexts second secondMember)).mp

/-- Fields that are not the constants of an enumeration. -/
theorem fields_eq_of_perm (previousLegible : Legible texts previous)
    (nextLegible : Legible texts next) (sameKind : previous.kind = next.kind)
    (notEnumeration : previous.kind ≠ .enumeration)
    (perm : (previous.fields.map Entity.content).Perm (next.fields.map Entity.content)) :
    previous.fields.map Entity.content = next.fields.map Entity.content := by
  apply Entity.map_content_eq_of_perm _ (previousLegible.fieldOrder notEnumeration)
    (nextLegible.fieldOrder (sameKind ▸ notEnumeration)) perm
  intro first firstMember second secondMember sameContent
  exact Field.name_eq_of_content_eq (previousLegible.fields first firstMember).1
    (nextLegible.fields second secondMember).1 sameContent

theorem constructors_eq_of_silent (free : Sha256.CollisionFree texts)
    (previousLegible : Legible texts previous) (nextLegible : Legible texts next)
    (silent :
      ofEntities topics owner ofConstructor previous.constructors next.constructors = []) :
    previous.constructors.map Entity.content = next.constructors.map Entity.content := by
  apply contents_eq_of_ofMatching_eq_nil free (contents_subset previousLegible.constructorTexts)
    (contents_subset nextLegible.constructorTexts) previousLegible.constructorOrder
    nextLegible.constructorOrder _ _ silent
  · intro first firstMember second secondMember sameContent
    exact (previousLegible.constructors first firstMember).identity_eq
      (nextLegible.constructors second secondMember) sameContent
  · intro first firstMember second secondMember sameIdentity
    have firstCanonical := previousLegible.constructors first firstMember
    have secondCanonical := nextLegible.constructors second secondMember
    have sameArguments : first.arguments = second.arguments := by
      apply Member.arguments_eq_of_identity_eq
      rw [← firstCanonical.identity, ← secondCanonical.identity]
      exact sameIdentity
    exact (ofConstructor_eq_nil_iff free sameArguments firstCanonical.shared.ascending
      secondCanonical.shared.ascending firstCanonical.shared.tidy secondCanonical.shared.tidy
      (previousLegible.constructorTexts first firstMember)
      (nextLegible.constructorTexts second secondMember)).mp

theorem methods_eq_of_silent (free : Sha256.CollisionFree texts)
    (previousLegible : Legible texts previous) (nextLegible : Legible texts next)
    (sameClauses : ∀ first ∈ previous.methods, ∀ second ∈ next.methods,
      first.withoutClause.content = second.withoutClause.content → first.content = second.content)
    (silent : ofEntities topics owner ofMethod previous.methods next.methods = []) :
    previous.methods.map Entity.content = next.methods.map Entity.content := by
  apply contents_eq_of_ofMatching_eq_nil free (contents_subset previousLegible.methodTexts)
    (contents_subset nextLegible.methodTexts) previousLegible.methodOrder
    nextLegible.methodOrder _ _ silent
  · intro first firstMember second secondMember sameContent
    exact (previousLegible.methods first firstMember).identity_eq
      (nextLegible.methods second secondMember) sameContent
  · intro first firstMember second secondMember sameIdentity nothing
    rcases withoutClause_content_eq_of_ofMethod_eq_nil free
      (previousLegible.methods first firstMember) (nextLegible.methods second secondMember)
      (previousLegible.methodTexts first firstMember)
      (nextLegible.methodTexts second secondMember) sameIdentity nothing with same | same
    · exact same
    · exact sameClauses first firstMember second secondMember same

theorem innerClasses_eq_of_silent (free : Sha256.CollisionFree texts)
    (previousLegible : Legible texts previous) (nextLegible : Legible texts next)
    (silent : ofEntities topics owner ofInnerClass previous.innerClasses next.innerClasses = []) :
    previous.innerClasses.map Entity.content = next.innerClasses.map Entity.content := by
  apply contents_eq_of_ofMatching_eq_nil free previousLegible.innerClassTexts
    nextLegible.innerClassTexts previousLegible.innerClassOrder nextLegible.innerClassOrder
    _ _ silent
  · intro first firstMember second secondMember sameContent
    exact InnerClass.name_eq_of_content_eq (previousLegible.innerClasses first firstMember)
      (nextLegible.innerClasses second secondMember) sameContent
  · intro first firstMember second secondMember sameName
    apply (ofInnerClass_eq_nil_iff free sameName _ _).mp
    · exact previousLegible.innerClassTexts (List.mem_map_of_mem firstMember)
    · exact nextLegible.innerClassTexts (List.mem_map_of_mem secondMember)

theorem kind_eq_of_label_eq {first second : ClassKind} (same : first.label = second.label) :
    first = second := by
  cases first <;> cases second <;> first | rfl | exact absurd same (by decide)

/-- A head without changes. -/
theorem head_eq_of_silent (silent : ofHead previous next = []) :
    previous.kind = next.kind ∧ previous.version = next.version ∧
      previous.access = next.access ∧ previous.superclass = next.superclass := by
  simp only [ofHead, List.append_eq_nil_iff, ofTexts_eq_nil_iff, ofAccess_eq_nil_iff,
    ite_eq_left_iff, reduceCtorEq, imp_false, not_not] at silent
  obtain ⟨⟨⟨sameLabel, sameVersion⟩, sameAccess⟩, sameSuperclass⟩ := silent
  exact ⟨kind_eq_of_label_eq sameLabel, sameVersion, sameAccess, sameSuperclass⟩

/-- If nothing is found in two legible classes and none of the three overlooked
parts differs, the contents are equal. -/
theorem content_eq_of_ofClass_eq_nil (free : Sha256.CollisionFree texts)
    (previousLegible : Legible texts previous) (nextLegible : Legible texts next)
    (sameName : previous.name = next.name)
    (sameTypeParameters : previous.typeParameters = next.typeParameters)
    (sameClauses : ∀ first ∈ previous.methods, ∀ second ∈ next.methods,
      first.withoutClause.content = second.withoutClause.content → first.content = second.content)
    (sameOrder : previous.kind = .enumeration →
      (previous.fields.map Entity.content).Perm (next.fields.map Entity.content) →
        previous.fields.map Entity.content = next.fields.map Entity.content)
    (silent : ofClass previous next = []) : previous.content = next.content := by
  obtain ⟨previousText, previousTexts⟩ := List.cons_subset.mp previousLegible.ownTexts
  obtain ⟨nextText, nextTexts⟩ := List.cons_subset.mp nextLegible.ownTexts
  rcases (unlessSame_eq_nil_iff _ _ _).mp silent with sameHash | nothing
  · exact free _ previousText _ nextText sameHash
  · simp only [List.append_eq_nil_iff] at nothing
    obtain ⟨⟨⟨⟨⟨⟨headNone, interfacesNone⟩, annotationsNone⟩, fieldsNone⟩, constructorsNone⟩,
      methodsNone⟩, innerClassesNone⟩ := nothing
    obtain ⟨sameKind, sameVersion, sameAccess, sameSuperclass⟩ := head_eq_of_silent headNone
    have sameInterfaces := eq_of_ofNames_eq_nil previousLegible.interfaces
      nextLegible.interfaces interfacesNone
    have sameAnnotations := contents_eq_of_ofAnnotations_eq_nil free previousTexts nextTexts
      previousLegible.annotations nextLegible.annotations annotationsNone
    have fieldsPerm := fields_perm_of_silent free previousLegible nextLegible fieldsNone
    have sameFields : previous.fields.map Entity.content = next.fields.map Entity.content := by
      -- Sorted fields have one order; an enumeration keeps that of the declaration.
      by_cases enumeration : previous.kind = .enumeration
      · exact sameOrder enumeration fieldsPerm
      · exact fields_eq_of_perm previousLegible nextLegible sameKind enumeration fieldsPerm
    exact Class.content_congr sameName sameKind sameVersion sameTypeParameters sameSuperclass
      sameAccess sameAnnotations sameInterfaces sameFields
      (constructors_eq_of_silent free previousLegible nextLegible constructorsNone)
      (methods_eq_of_silent free previousLegible nextLegible sameClauses methodsNone)
      (innerClasses_eq_of_silent free previousLegible nextLegible innerClassesNone)

end Found

/-- Two versions of a class with different contents are told apart, unless
nothing differs but the type parameters of the class, those of a method or the
order of the constants of an enumeration. -/
theorem ofClass_ne_nil (previous next : Class.Blueprint)
    (sameName : previous.build.name = next.build.name) (previousPlain : previous.IsPlain)
    (nextPlain : next.IsPlain)
    (free : Sha256.CollisionFree (classTexts previous.build ++ classTexts next.build))
    (sameTypeParameters : previous.typeParameters = next.typeParameters)
    (sameClauses : ∀ first ∈ previous.build.methods, ∀ second ∈ next.build.methods,
      first.withoutClause.content = second.withoutClause.content →
        first.genericTypes = second.genericTypes)
    (sameOrder : previous.build.kind = .enumeration →
      (previous.build.fields.map Entity.content).Perm (next.build.fields.map Entity.content) →
        previous.build.fields.map Entity.content = next.build.fields.map Entity.content)
    (different : previous.build.content ≠ next.build.content) :
    ofClass previous.build next.build ≠ [] := by
  have previousLegible := legible_build previousPlain
    (List.subset_append_left _ (classTexts next.build))
  have nextLegible := legible_build nextPlain
    (List.subset_append_right (classTexts previous.build) _)
  intro silent
  apply different
  apply content_eq_of_ofClass_eq_nil free previousLegible nextLegible sameName
    sameTypeParameters _ sameOrder silent
  intro first firstMember second secondMember same
  exact (previousLegible.methods first firstMember).content_eq_of_withoutClause
    (nextLegible.methods second secondMember) same
    (sameClauses first firstMember second secondMember same)

/-- A class whose only method has another return type. -/
theorem ofClass_ne_nil_returnType :
    let box (type : String) : Class.Blueprint :=
      { name := "Box", methods := [{ name := "map", returnType := some type }] }
    let previous := box "int"
    let next := box "long"
    previous.IsPlain ∧ next.IsPlain ∧
      Sha256.CollisionFree (classTexts previous.build ++ classTexts next.build) ∧
      previous.build.content ≠ next.build.content ∧ ofClass previous.build next.build ≠ [] := by
  intro box previous next
  have previousPlain : previous.IsPlain := by decide
  have nextPlain : next.IsPlain := by decide
  have digests : (classTexts previous.build ++ classTexts next.build).map Sha256.ofText =
      ["f512aa9110f56aec62b0fdfc411abb43f252f968231fa20cb966f7c7f8392b8e",
        "0a3eef6e29656904967dcb201bafbf226eaa4b290a08c47ef4595eba7c32a5b5",
        "d8f2d3e10274cc9b1a484d1fb713c60faf3c2739b8879111baa6cbf184ef48c9",
        "8e70f70536abee11a174a65c04e43420a82850ea0f956cec79a17c54193e0511"] := by
    decide +kernel
  have free : Sha256.CollisionFree (classTexts previous.build ++ classTexts next.build) := by
    apply Sha256.CollisionFree.of_nodup
    rw [digests]
    decide
  have different : previous.build.content ≠ next.build.content := by
    decide +kernel
  have noClauses : ∀ first ∈ previous.build.methods, ∀ second ∈ next.build.methods,
      first.withoutClause.content = second.withoutClause.content →
        first.genericTypes = second.genericTypes := by
    decide +kernel
  refine ⟨previousPlain, nextPlain, free, different, ?_⟩
  apply ofClass_ne_nil previous next rfl previousPlain nextPlain free rfl noClauses _ different
  intro enumeration
  exact absurd enumeration (by decide)

end Comparison

end JvmDiff
