import JvmDiff.Proofs.Comparison.Completeness
import JvmDiff.Proofs.Content.Drafts

/-!
# Contents do not depend on the order of declaration

Two drafts that declare the same parts in another order, at any depth, are built into classes or
packages with one content.  The fields of an enumeration are the exception: their order is part of
the meaning.
-/

namespace JvmDiff

/-- The second list has the items of the first, each of them changed as the
relation allows, in any order. -/
def Shuffled {α : Type} (change : α → α → Prop) (first second : List α) : Prop :=
  ∃ changed, List.Forall₂ change first changed ∧ changed.Perm second

section Images

variable {α β : Type} {change : α → α → Prop} {image : α → β} {first second : List α}

theorem map_eq_of_forall₂ (kept : ∀ one other, change one other → image one = image other)
    (each : List.Forall₂ change first second) : first.map image = second.map image := by
  induction each with
  | nil => rfl
  | cons head _ inductionHypothesis =>
    rw [List.map_cons, List.map_cons, kept _ _ head, inductionHypothesis]

theorem Shuffled.map_perm (kept : ∀ one other, change one other → image one = image other)
    (shuffled : Shuffled change first second) : (first.map image).Perm (second.map image) := by
  obtain ⟨changed, each, perm⟩ := shuffled
  rw [map_eq_of_forall₂ kept each]
  exact perm.map image

end Images

/-! ## Annotations -/

namespace ElementDraft

mutual

/-- The second value is declared like the first, except that elements of
annotations are set in another order. -/
inductive Rearranged : ElementDraft → ElementDraft → Prop
  | leaf (value : ElementLeaf) : Rearranged (.leaf value) (.leaf value)
  | array {items others : List ElementDraft} (each : RearrangedItems items others) :
      Rearranged (.array items) (.array others)
  /-- Elements of different keys may change places.  Of one key the last that is
  set counts, so these keep their order. -/
  | nested (descriptor : String) {elements changed others : List (String × ElementDraft)}
      (each : RearrangedElements elements changed)
      (sameKeys : ∀ key, Matching.withLabel Prod.fst changed key =
        Matching.withLabel Prod.fst others key) :
      Rearranged (.nested descriptor elements) (.nested descriptor others)

inductive RearrangedItems : List ElementDraft → List ElementDraft → Prop
  | nil : RearrangedItems [] []
  | cons {item other : ElementDraft} {items others : List ElementDraft}
      (head : Rearranged item other) (tail : RearrangedItems items others) :
      RearrangedItems (item :: items) (other :: others)

inductive RearrangedElements :
    List (String × ElementDraft) → List (String × ElementDraft) → Prop
  | nil : RearrangedElements [] []
  | cons (key : String) {draft other : ElementDraft}
      {elements others : List (String × ElementDraft)}
      (head : Rearranged draft other) (tail : RearrangedElements elements others) :
      RearrangedElements ((key, draft) :: elements) ((key, other) :: others)

end

mutual

theorem Rearranged.refl : ∀ draft : ElementDraft, Rearranged draft draft
  | .leaf value => .leaf value
  | .array items => .array (RearrangedItems.refl items)
  | .nested descriptor elements =>
      .nested descriptor (RearrangedElements.refl elements) fun _ => rfl

theorem RearrangedItems.refl : ∀ items : List ElementDraft, RearrangedItems items items
  | [] => .nil
  | item :: items => .cons (Rearranged.refl item) (RearrangedItems.refl items)

theorem RearrangedElements.refl :
    ∀ elements : List (String × ElementDraft), RearrangedElements elements elements
  | [] => .nil
  | (key, draft) :: elements =>
      .cons key (Rearranged.refl draft) (RearrangedElements.refl elements)

end

/-- Where no key comes twice, the elements may come in any order. -/
theorem withLabel_eq_of_perm {elements others : List (String × ElementDraft)}
    (perm : elements.Perm others) (distinct : (elements.map Prod.fst).Nodup) (key : String) :
    Matching.withLabel Prod.fst elements key = Matching.withLabel Prod.fst others key := by
  have labelled : (Matching.withLabel Prod.fst elements key).Perm
      (Matching.withLabel Prod.fst others key) :=
    perm.filter _
  have atMostOne : (Matching.withLabel Prod.fst elements key).length ≤ 1 := by
    have once := List.nodup_iff_count_le_one.mp distinct key
    rwa [List.count, List.countP_map, List.countP_eq_length_filter] at once
  match only : Matching.withLabel Prod.fst elements key, atMostOne with
  | [], _ =>
      rw [only] at labelled
      exact labelled.nil_eq
  | [element], _ =>
      rw [only] at labelled
      exact (List.perm_singleton.mp labelled.symm).symm

theorem insertAll_elementValues_eq {elements others : List (String × ElementDraft)}
    (usage : AnnotationUse)
    (sameKeys : ∀ key, Matching.withLabel Prod.fst elements key =
      Matching.withLabel Prod.fst others key) :
    usage.insertAll (elementValues elements) = usage.insertAll (elementValues others) := by
  apply AnnotationUse.insertAll_eq_of_withLabel_eq
  intro key
  rw [elementValues_eq_map, elementValues_eq_map, Matching.withLabel_map, Matching.withLabel_map]
  exact congrArg _ (sameKeys key)

mutual

/-- A rearranged value is the same value, since an annotation lists its elements
by their keys. -/
theorem Rearranged.value_eq :
    ∀ {first second : ElementDraft}, Rearranged first second → first.value = second.value
  | _, _, .leaf _ => rfl
  | _, _, .array each => by rw [value, value, each.itemValues_eq]
  | _, _, .nested _ each sameKeys => by
      rw [value, value, each.elementValues_eq, insertAll_elementValues_eq _ sameKeys]

theorem RearrangedItems.itemValues_eq :
    ∀ {first second : List ElementDraft},
      RearrangedItems first second → itemValues first = itemValues second
  | _, _, .nil => rfl
  | _, _, .cons head tail => by
      rw [itemValues, itemValues, head.value_eq, tail.itemValues_eq]

theorem RearrangedElements.elementValues_eq :
    ∀ {first second : List (String × ElementDraft)},
      RearrangedElements first second → elementValues first = elementValues second
  | _, _, .nil => rfl
  | _, _, .cons key head tail => by
      rw [elementValues, elementValues, head.value_eq, tail.elementValues_eq]

end

end ElementDraft

/-- Two declared annotations of one type whose elements are set in another
order, at any depth. -/
inductive AnnotationUse.Draft.Rearranged (draft : Draft) : Draft → Prop
  | intro {changed elements : List (String × ElementDraft)}
      (each : ElementDraft.RearrangedElements draft.elements changed)
      (sameKeys : ∀ key, Matching.withLabel Prod.fst changed key =
        Matching.withLabel Prod.fst elements key) :
      Rearranged draft { draft with elements := elements }

theorem AnnotationUse.Draft.Rearranged.build_eq (first second : Draft)
    (rearranged : first.Rearranged second) : first.build = second.build := by
  obtain ⟨each, sameKeys⟩ := rearranged
  rw [build, build, each.elementValues_eq]
  exact ElementDraft.insertAll_elementValues_eq _ sameKeys

/-- Annotations that are declared in any order have the same contents once they
are sorted. -/
theorem contents_of_shuffled_annotations {first second : List AnnotationUse.Draft}
    (shuffled : Shuffled AnnotationUse.Draft.Rearranged first second) :
    (Entity.sorted (first.map AnnotationUse.Draft.build)).map Entity.content =
      (Entity.sorted (second.map AnnotationUse.Draft.build)).map Entity.content :=
  Entity.map_content_sorted_of_perm <|
    (shuffled.map_perm AnnotationUse.Draft.Rearranged.build_eq).map Entity.rank

/-! ## Members -/

/-- Two declared fields that differ in the order of their annotations only. -/
inductive Field.Draft.Rearranged (draft : Draft) : Draft → Prop
  | intro {annotations : List AnnotationUse.Draft}
      (annotationsShuffled :
        Shuffled AnnotationUse.Draft.Rearranged draft.annotations annotations) :
      Rearranged draft { draft with annotations := annotations }

/-- Two declared members that differ in the order of their exceptions and
annotations only. -/
inductive Member.Draft.Rearranged (draft : Draft) : Draft → Prop
  | intro {exceptions : List String} {annotations : List AnnotationUse.Draft}
      (exceptionsPerm : draft.exceptions.Perm exceptions)
      (annotationsShuffled :
        Shuffled AnnotationUse.Draft.Rearranged draft.annotations annotations) :
      Rearranged draft { draft with exceptions := exceptions, annotations := annotations }

theorem Field.Draft.Rearranged.rank_eq (first second : Draft)
    (rearranged : first.Rearranged second) :
    Entity.rank first.declared.toField = Entity.rank second.declared.toField := by
  obtain ⟨shuffled⟩ := rearranged
  exact Prod.ext rfl
    (Field.content_congr rfl rfl rfl rfl (contents_of_shuffled_annotations shuffled))

/-- Exceptions and annotations leave the same text behind in any order. -/
theorem Member.Draft.Rearranged.contentTail_eq {first second : Draft}
    (rearranged : first.Rearranged second) :
    contentTail (Entity.sorted first.declared.annotations) first.arguments
        first.declared.sortedExceptions =
      contentTail (Entity.sorted second.declared.annotations) second.arguments
        second.declared.sortedExceptions := by
  obtain ⟨exceptionsPerm, shuffled⟩ := rearranged
  simp only [Declared.sortedExceptions, declared,
    Text.sorted_eq_of_perm (exceptionsPerm.map Text.dotted)]
  exact contentTail_congr _ _ (contents_of_shuffled_annotations shuffled)

theorem Member.Draft.Rearranged.rank_toConstructor_eq (first second : Draft)
    (rearranged : first.Rearranged second) :
    Entity.rank first.declared.toConstructor = Entity.rank second.declared.toConstructor := by
  have sameTail := rearranged.contentTail_eq
  cases rearranged
  exact Prod.ext rfl (congrArg (_ ++ ·) sameTail)

theorem Member.Draft.Rearranged.rank_toMethod_eq (first second : Draft)
    (rearranged : first.Rearranged second) :
    Entity.rank first.declared.toMethod = Entity.rank second.declared.toMethod := by
  have sameTail := rearranged.contentTail_eq
  cases rearranged
  exact Prod.ext rfl (congrArg (_ ++ ·) sameTail)

/-! ## Classes and packages -/

/-- Two declared classes that differ in the order of their parts only; an
enumeration keeps the order of its fields. -/
inductive Class.Draft.Rearranged (draft : Draft) : Draft → Prop
  | intro {interfaces : List String} {annotations : List AnnotationUse.Draft}
      {fields : List Field.Draft} {constructors methods : List Member.Draft}
      {innerClasses : List (String × Access)}
      (interfacesPerm : draft.interfaces.Perm interfaces)
      (annotationsShuffled :
        Shuffled AnnotationUse.Draft.Rearranged draft.annotations annotations)
      (fieldsRearranged :
        if ClassKind.ofAccess draft.access = .enumeration then
          List.Forall₂ Field.Draft.Rearranged draft.fields fields
        else Shuffled Field.Draft.Rearranged draft.fields fields)
      (constructorsShuffled :
        Shuffled Member.Draft.Rearranged draft.constructors constructors)
      (methodsShuffled : Shuffled Member.Draft.Rearranged draft.methods methods)
      (innerClassesPerm : draft.innerClasses.Perm innerClasses) :
      Rearranged draft
        { draft with
          interfaces := interfaces
          annotations := annotations
          fields := fields
          constructors := constructors
          methods := methods
          innerClasses := innerClasses }

/-- Two declared packages that differ in the order of their parts only. -/
inductive Package.Draft.Rearranged (draft : Draft) : Draft → Prop
  | intro {annotations : List AnnotationUse.Draft} {classes : List (String × Access)}
      (annotationsShuffled :
        Shuffled AnnotationUse.Draft.Rearranged draft.annotations annotations)
      (classesPerm : draft.classes.Perm classes) :
      Rearranged draft { draft with annotations := annotations, classes := classes }

/-- Parts that are declared in any order have the same contents once they are
sorted. -/
theorem contents_of_shuffled {α β γ : Type} [Entity γ] {change : α → α → Prop}
    {declare : α → β} {make : β → γ} {first second : List α}
    (kept : ∀ one other, change one other →
      Entity.rank (make (declare one)) = Entity.rank (make (declare other)))
    (shuffled : Shuffled change first second) :
    (Entity.sorted ((first.map declare).map make)).map Entity.content =
      (Entity.sorted ((second.map declare).map make)).map Entity.content := by
  apply Entity.map_content_sorted_of_perm
  simp only [List.map_map]
  exact shuffled.map_perm kept

theorem contents_of_perm_entries {first second : List (String × Access)}
    (perm : first.Perm second) :
    (Entity.sorted (first.map fun entry => InnerClass.ofName entry.1 entry.2)).map
        Entity.content =
      (Entity.sorted (second.map fun entry => InnerClass.ofName entry.1 entry.2)).map
        Entity.content :=
  Entity.map_content_sorted_of_perm ((perm.map _).map Entity.rank)

theorem Class.Draft.Rearranged.contents_fields_eq {first second : Draft}
    (rearranged : first.Rearranged second) :
    first.build.fields.map Entity.content = second.build.fields.map Entity.content := by
  obtain ⟨_, _, fieldsRearranged, _, _, _⟩ := rearranged
  rw [fields_build, fields_build]
  by_cases enumeration : ClassKind.ofAccess first.access = .enumeration
  · rw [if_pos enumeration] at fieldsRearranged
    rw [if_pos enumeration, if_pos enumeration]
    have sameContents :=
      congrArg (List.map Prod.snd)
        (map_eq_of_forall₂ Field.Draft.Rearranged.rank_eq fieldsRearranged)
    simp only [List.map_map] at sameContents ⊢
    exact sameContents
  · rw [if_neg enumeration] at fieldsRearranged
    rw [if_neg enumeration, if_neg enumeration]
    exact contents_of_shuffled Field.Draft.Rearranged.rank_eq fieldsRearranged

theorem Class.Draft.Rearranged.content_eq {first second : Draft}
    (rearranged : first.Rearranged second) : first.build.content = second.build.content := by
  have sameFields := rearranged.contents_fields_eq
  obtain ⟨interfacesPerm, annotationsShuffled, _, constructorsShuffled, methodsShuffled,
    innerClassesPerm⟩ := rearranged
  apply Class.content_congr
  case name => rfl
  case kind => rfl
  case version => rfl
  case typeParameters => rfl
  case superclass => rfl
  case access => rfl
  case annotations => exact contents_of_shuffled_annotations annotationsShuffled
  case interfaces => exact Text.sorted_eq_of_perm (interfacesPerm.map Text.dotted)
  case fields => exact sameFields
  case constructors =>
    exact contents_of_shuffled Member.Draft.Rearranged.rank_toConstructor_eq
      constructorsShuffled
  case methods =>
    exact contents_of_shuffled Member.Draft.Rearranged.rank_toMethod_eq methodsShuffled
  case innerClasses => exact contents_of_perm_entries innerClassesPerm

theorem Package.Draft.Rearranged.content_eq {first second : Draft}
    (rearranged : first.Rearranged second) : first.build.content = second.build.content := by
  obtain ⟨annotationsShuffled, classesPerm⟩ := rearranged
  have annotationsPart :=
    contentPart_contentList_congr "A" (contents_of_shuffled_annotations annotationsShuffled)
  have classesPart := contentPart_contentList_congr "C" (contents_of_perm_entries classesPerm)
  simp only [build, Package.build, content, annotationsPart, classesPart]

/-- The content of a class or a package says nothing about the order in which
its parts were declared, at whatever depth, except for the order of the fields
of an enumeration. -/
theorem content_eq_of_rearranged :
    (∀ first second : Class.Draft, first.Rearranged second →
      Entity.content first.build = Entity.content second.build) ∧
    (∀ first second : Package.Draft, first.Rearranged second →
      Entity.content first.build = Entity.content second.build) :=
  ⟨fun _ _ rearranged => rearranged.content_eq, fun _ _ rearranged => rearranged.content_eq⟩

/-- A class with two annotations of one type and two methods of one identity, all
of which change places, and so do the elements of one of the annotations and of
the annotation inside it. -/
theorem content_eq_of_rearranged_repeated :
    let low : String × ElementDraft := ("low", .leaf (.int 1))
    let high : String × ElementDraft := ("high", .leaf (.int 9))
    let range (bounds : List (String × ElementDraft)) : String × ElementDraft :=
      ("range", .nested "LRange;" bounds)
    let unit : String × ElementDraft := ("unit", .leaf (.string "m"))
    let limits (elements : List (String × ElementDraft)) : AnnotationUse.Draft :=
      { descriptor := "LLimits;", elements := elements }
    let method (type : String) : Member.Draft := { name := "get", returnType := some type }
    let first : Class.Draft :=
      { name := "Box", annotations := [limits [range [low, high], unit], limits []],
        methods := [method "int", method "java.lang.Object"] }
    let second : Class.Draft :=
      { name := "Box", annotations := [limits [], limits [unit, range [high, low]]],
        methods := [method "java.lang.Object", method "int"] }
    first.Rearranged second ∧ Entity.content first.build = Entity.content second.build := by
  intro low high range unit limits method first second
  have bounds : ElementDraft.Rearranged (range [low, high]).2 (range [high, low]).2 :=
    .nested _ (.refl _) (ElementDraft.withLabel_eq_of_perm (.swap high low []) (by decide))
  have annotated : AnnotationUse.Draft.Rearranged (limits [range [low, high], unit])
      (limits [unit, range [high, low]]) :=
    .intro (.cons "range" bounds (.cons "unit" (.refl _) .nil))
      (ElementDraft.withLabel_eq_of_perm (.swap unit (range [high, low]) []) (by decide))
  have unannotated : AnnotationUse.Draft.Rearranged (limits []) (limits []) :=
    .intro .nil fun _ => rfl
  have sameMethod : ∀ type, (method type).Rearranged (method type) :=
    fun _ => .intro (.refl _) ⟨_, .nil, .refl _⟩
  have rearranged : first.Rearranged second := by
    constructor
    case interfacesPerm => exact .refl _
    case annotationsShuffled =>
      exact ⟨_, .cons annotated (.cons unannotated .nil), .swap _ _ []⟩
    case fieldsRearranged =>
      rw [if_neg (by decide)]
      exact ⟨[], .nil, .refl []⟩
    case constructorsShuffled => exact ⟨_, .nil, .refl _⟩
    case methodsShuffled =>
      exact ⟨_, .cons (sameMethod "int") (.cons (sameMethod _) .nil), .swap _ _ []⟩
    case innerClassesPerm => exact .refl _
  exact ⟨rearranged, content_eq_of_rearranged.1 first second rearranged⟩

end JvmDiff
