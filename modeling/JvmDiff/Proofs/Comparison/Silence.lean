import JvmDiff.Proofs.Comparison.Mirror
import JvmDiff.Proofs.Content.Reading
import JvmDiff.Proofs.Entity.Order
import JvmDiff.Proofs.Matching.Conservation

/-!
# Comparisons that find nothing

Each comparison ends at once when two digests are equal, and otherwise goes through attributes
and lists of parts.  If a comparison of lists finds nothing, then the lists hold the same
contents, provided that no two contents share a digest.  From this follows what the comparisons
of fields, constructors, annotations and inner classes find nothing in: equal contents, and
nothing else.
-/

namespace JvmDiff

/-- No two of the texts share a digest. -/
def Sha256.CollisionFree (texts : List String) : Prop :=
  ∀ first ∈ texts, ∀ second ∈ texts, ofText first = ofText second → first = second

theorem Sha256.CollisionFree.of_nodup {texts : List String}
    (distinct : (texts.map ofText).Nodup) : CollisionFree texts := by
  intro first firstMember second secondMember same
  exact List.inj_on_of_nodup_map distinct firstMember secondMember same

/-! ## Matchings that leave nothing over -/

namespace Matching

variable {α β : Type} (name fingerprint : α → String) (previous next : List α)

/-- Both sides of a pair come from the lists. -/
theorem mem_of_mem_pairs {pair : α × α}
    (member : pair ∈ (of name fingerprint previous next).unchanged ++
      (of name fingerprint previous next).modified) :
    pair.1 ∈ previous ∧ pair.2 ∈ next := by
  constructor
  · apply (of_conserves_previous name fingerprint previous next).mem_iff.mp
    exact List.mem_append_left _ (List.mem_map_of_mem member)
  · apply (of_conserves_next name fingerprint previous next).mem_iff.mp
    exact List.mem_append_left _ (List.mem_map_of_mem member)

/-- The two sides of a modified pair have different fingerprints. -/
theorem fingerprint_ne_of_mem_modified {pair : α × α}
    (member : pair ∈ (of name fingerprint previous next).modified) :
    fingerprint pair.1 ≠ fingerprint pair.2 := by
  apply fingerprint_ne_of_mem name fingerprint previous next
  · exact List.mem_append_left _ (List.mem_map_of_mem member)
  · exact List.mem_append_left _ (List.mem_map_of_mem member)

/-- If nothing was modified, removed or added, both lists have the same images
under whatever unchanged pairs agree in. -/
theorem perm_map_of_unchanged (image : α → β)
    (modified : (of name fingerprint previous next).modified = [])
    (removed : (of name fingerprint previous next).removed = [])
    (added : (of name fingerprint previous next).added = [])
    (alike : ∀ pair ∈ (of name fingerprint previous next).unchanged,
      image pair.1 = image pair.2) :
    (previous.map image).Perm (next.map image) := by
  have previousPaired := of_conserves_previous name fingerprint previous next
  have nextPaired := of_conserves_next name fingerprint previous next
  rw [modified, removed, List.append_nil, List.append_nil] at previousPaired
  rw [modified, added, List.append_nil, List.append_nil] at nextPaired
  have images : ((of name fingerprint previous next).unchanged.map Prod.fst).map image =
      ((of name fingerprint previous next).unchanged.map Prod.snd).map image := by
    rw [List.map_map, List.map_map]
    exact List.map_congr_left alike
  have previousImages := previousPaired.map image
  rw [images] at previousImages
  exact previousImages.symm.trans (nextPaired.map image)

end Matching

namespace Comparison

/-! ## Single values -/

theorem ofTexts_eq_nil_iff (topic : Topic) (owner previous next : String) :
    ofTexts topic owner previous next = [] ↔ previous = next := by
  simp [ofTexts]

theorem ofAccess_eq_nil_iff (topic : Topic) (owner : String) (previous next : Access) :
    ofAccess topic owner previous next = [] ↔ previous = next := by
  simp [ofAccess]

theorem unlessSame_eq_nil_iff {α : Type} [Entity α] (previous next : α) (changes : List Change) :
    unlessSame previous next changes = [] ↔
      Entity.hash previous = Entity.hash next ∨ changes = [] := by
  by_cases same : Entity.hash previous = Entity.hash next
  · simp [unlessSame, same]
  · simp [unlessSame, same]

/-- A comparison whose changes cover the content finds nothing exactly when the
contents are equal. -/
theorem unlessSame_eq_nil_iff_content {α : Type} [Entity α] {previous next : α}
    {changes : List Change} {texts : List String} (free : Sha256.CollisionFree texts)
    (previousText : Entity.content previous ∈ texts) (nextText : Entity.content next ∈ texts)
    (covered : changes = [] → Entity.content previous = Entity.content next) :
    unlessSame previous next changes = [] ↔ Entity.content previous = Entity.content next := by
  rw [unlessSame_eq_nil_iff]
  constructor
  · rintro (sameHash | nothing)
    · exact free _ previousText _ nextText sameHash
    · exact covered nothing
  · intro sameContent
    exact Or.inl (congrArg Sha256.ofText sameContent)

/-! ## Lists of parts -/

section Parts

variable {α : Type} {topics : PartTopics} {owner : String}

theorem ofMatching_eq_nil_iff (label : α → String) (inside : α → α → List Change)
    (matching : Matching α) :
    ofMatching topics owner label inside matching = [] ↔
      (∀ pair ∈ matching.modified, inside pair.1 pair.2 = []) ∧
        matching.removed = [] ∧ matching.added = [] := by
  simp [ofMatching]

/-- Lists of names without changes are permutations of each other. -/
theorem perm_of_ofNames_eq_nil {previous next : List String}
    (silent : ofNames topics owner previous next = []) : previous.Perm next := by
  obtain ⟨_, removed, added⟩ := (ofMatching_eq_nil_iff _ _ _).mp silent
  -- A modified pair would have one name and two fingerprints, and a text is both for itself.
  have modified : (Matching.ofTexts previous next).modified = [] := by
    apply List.eq_nil_iff_forall_not_mem.mpr
    intro pair member
    apply Matching.fingerprint_ne_of_mem_modified id id previous next member
    exact Matching.name_eq_of_mem_modified id id previous next member
  have perm := Matching.perm_map_of_unchanged id id previous next id modified removed added
    fun pair member => Matching.fingerprint_eq_of_mem_unchanged id id previous next member
  simpa using perm

theorem eq_of_ofNames_eq_nil {previous next : List String}
    (previousSorted : previous.Pairwise (· ≤ ·)) (nextSorted : next.Pairwise (· ≤ ·))
    (silent : ofNames topics owner previous next = []) : previous = next := by
  apply (perm_of_ofNames_eq_nil silent).eq_of_pairwise _ previousSorted nextSorted
  intro first second _ _ before after
  exact String.le_antisymm before after

/-- Lists of entities without changes have the same contents, if a comparison
of two entities of one name without changes means that their contents are
equal. -/
theorem contents_perm_of_ofMatching_eq_nil [Entity α] {texts : List String}
    {previous next : List α} {label : α → String} {inside : α → α → List Change}
    (free : Sha256.CollisionFree texts) (previousTexts : previous.map Entity.content ⊆ texts)
    (nextTexts : next.map Entity.content ⊆ texts)
    (covered : ∀ first ∈ previous, ∀ second ∈ next, Entity.name first = Entity.name second →
      inside first second = [] → Entity.content first = Entity.content second)
    (silent : ofMatching topics owner label inside (Matching.ofEntities previous next) = []) :
    (previous.map Entity.content).Perm (next.map Entity.content) := by
  obtain ⟨insideNone, removed, added⟩ := (ofMatching_eq_nil_iff _ _ _).mp silent
  have modified : (Matching.ofEntities previous next).modified = [] := by
    apply List.eq_nil_iff_forall_not_mem.mpr
    intro pair member
    obtain ⟨firstMember, secondMember⟩ := Matching.mem_of_mem_pairs Entity.name Entity.hash
      previous next (List.mem_append_right _ member)
    have sameName := Matching.name_eq_of_mem_modified Entity.name Entity.hash previous next member
    have sameContent :=
      covered pair.1 firstMember pair.2 secondMember sameName (insideNone pair member)
    apply Matching.fingerprint_ne_of_mem_modified Entity.name Entity.hash previous next member
    exact congrArg Sha256.ofText sameContent
  apply Matching.perm_map_of_unchanged Entity.name Entity.hash previous next Entity.content
    modified removed added
  intro pair member
  obtain ⟨firstMember, secondMember⟩ := Matching.mem_of_mem_pairs Entity.name Entity.hash
    previous next (List.mem_append_left _ member)
  apply free
  · exact previousTexts (List.mem_map_of_mem firstMember)
  · exact nextTexts (List.mem_map_of_mem secondMember)
  · exact Matching.fingerprint_eq_of_mem_unchanged Entity.name Entity.hash previous next member

/-- Sorted lists of entities without changes have the same contents in the same
order, if a content belongs to one name. -/
theorem contents_eq_of_ofMatching_eq_nil [Entity α] {texts : List String}
    {previous next : List α} {label : α → String} {inside : α → α → List Change}
    (free : Sha256.CollisionFree texts) (previousTexts : previous.map Entity.content ⊆ texts)
    (nextTexts : next.map Entity.content ⊆ texts) (previousAscends : Entity.Ascends previous)
    (nextAscends : Entity.Ascends next)
    (named : ∀ first ∈ previous, ∀ second ∈ next,
      Entity.content first = Entity.content second → Entity.name first = Entity.name second)
    (covered : ∀ first ∈ previous, ∀ second ∈ next, Entity.name first = Entity.name second →
      inside first second = [] → Entity.content first = Entity.content second)
    (silent : ofMatching topics owner label inside (Matching.ofEntities previous next) = []) :
    previous.map Entity.content = next.map Entity.content := by
  apply Entity.map_content_eq_of_perm named previousAscends nextAscends
  exact contents_perm_of_ofMatching_eq_nil free previousTexts nextTexts covered silent

end Parts

/-! ## Annotations -/

section Elements

variable {previous next : AnnotationUse}

theorem mem_of_find? {usage : AnnotationUse} {key : String} {value : ElementValue}
    (found : usage.find? key = some value) : (key, value) ∈ usage.elements := by
  obtain ⟨element, elementFound, rfl⟩ := Option.map_eq_some_iff.mp found
  have sameKey : element.1 = key := by
    simpa using List.find?_some elementFound
  rw [← sameKey]
  exact List.mem_of_find?_eq_some elementFound

theorem keys_subset_of_keysOnlyIn_eq_nil (nothing : keysOnlyIn previous next = []) :
    keys previous ⊆ keys next := by
  intro key member
  have found := List.filter_eq_nil_iff.mp nothing key member
  rw [mem_keys_iff, Option.isSome_iff_ne_none]
  simpa using found

/-- What a comparison finds no change in has the same value on the other
side. -/
theorem mem_elements_of_ofElements_eq_nil {name : String} {element : String × ElementValue}
    (silent : ofElements name previous next = []) (common : element.1 ∈ keys next)
    (member : element ∈ previous.elements) : element ∈ next.elements := by
  obtain ⟨value, found⟩ := Option.isSome_iff_exists.mp ((mem_keys_iff next).mp common)
  have unchanged : element.2 = value := by
    have nothing := List.flatMap_eq_nil_iff.mp silent element member
    rw [found] at nothing
    simpa using nothing
  have nextMember := mem_of_find? found
  rw [← unchanged] at nextMember
  exact nextMember

/-- The order of keys leaves one way only to list the elements. -/
theorem elements_eq_of_mem_iff
    (same : ∀ element, element ∈ previous.elements ↔ element ∈ next.elements) :
    previous.elements = next.elements := by
  have perm : previous.elements.Perm next.elements := by
    rw [List.perm_ext_iff_of_nodup (List.Nodup.of_map _ (nodup_keys previous))
      (List.Nodup.of_map _ (nodup_keys next))]
    exact same
  apply perm.eq_of_pairwise _ previous.ordered next.ordered
  intro first second _ _ before after
  exact absurd (String.lt_trans before after) (String.lt_irrefl _)

/-- Annotations without changes have the same elements. -/
theorem elements_eq_of_silent {name : String} (removed : keysOnlyIn previous next = [])
    (added : keysOnlyIn next previous = []) (silent : ofElements name previous next = []) :
    previous.elements = next.elements := by
  have forward : ∀ element ∈ previous.elements, element ∈ next.elements := by
    intro element member
    have common := keys_subset_of_keysOnlyIn_eq_nil removed (List.mem_map_of_mem member)
    exact mem_elements_of_ofElements_eq_nil silent common member
  have backward : ∀ element ∈ next.elements, element ∈ previous.elements := by
    intro element member
    have common := keys_subset_of_keysOnlyIn_eq_nil added (List.mem_map_of_mem member)
    obtain ⟨value, found⟩ := Option.isSome_iff_exists.mp ((mem_keys_iff previous).mp common)
    have previousMember := mem_of_find? found
    have sameValue : some value = some element.2 := by
      rw [← find?_of_mem next member]
      exact (find?_of_mem next (forward _ previousMember)).symm
    rw [Option.some.inj sameValue] at previousMember
    exact previousMember
  exact elements_eq_of_mem_iff fun element => ⟨forward element, backward element⟩

/-- Annotations of one name. -/
theorem ofAnnotationUse_eq_nil_iff {texts : List String} (free : Sha256.CollisionFree texts)
    (previousText : Entity.content previous ∈ texts) (nextText : Entity.content next ∈ texts)
    (sameName : previous.name = next.name) :
    ofAnnotationUse previous next = [] ↔ Entity.content previous = Entity.content next := by
  apply unlessSame_eq_nil_iff_content free previousText nextText
  intro nothing
  obtain ⟨keysNone, valuesNone⟩ := List.append_eq_nil_iff.mp nothing
  obtain ⟨_, removed, added⟩ := (ofMatching_eq_nil_iff _ _ _).mp keysNone
  have sameElements := elements_eq_of_silent removed added valuesNone
  change previous.toValue.content = next.toValue.content
  rw [AnnotationUse.toValue, AnnotationUse.toValue, sameName, sameElements]

end Elements

/-- The annotations come in ascending order and have plain names, so that the
order is one of their contents. -/
def Tidy (annotations : List AnnotationUse) : Prop :=
  Entity.Ascends annotations ∧ ∀ usage ∈ annotations, Text.IsPlain usage.name

theorem tidy_sorted {annotations : List AnnotationUse}
    (plain : ∀ usage ∈ annotations, Text.IsPlain usage.name) :
    Tidy (Entity.sorted annotations) := by
  refine ⟨Entity.ascends_sorted annotations, ?_⟩
  intro usage member
  exact plain usage (Entity.mem_sorted.mp member)

/-- Lists of annotations without changes have the same contents in the same
order. -/
theorem contents_eq_of_ofAnnotations_eq_nil {topics : PartTopics} {owner : String}
    {texts : List String} {previous next : List AnnotationUse}
    (free : Sha256.CollisionFree texts) (previousTexts : previous.map Entity.content ⊆ texts)
    (nextTexts : next.map Entity.content ⊆ texts) (previousTidy : Tidy previous)
    (nextTidy : Tidy next) (silent : ofAnnotations topics owner previous next = []) :
    previous.map Entity.content = next.map Entity.content := by
  apply contents_eq_of_ofMatching_eq_nil free previousTexts nextTexts previousTidy.1 nextTidy.1
    _ _ silent
  · intro first firstMember second secondMember sameContent
    exact AnnotationUse.name_eq_of_content_eq (previousTidy.2 first firstMember)
      (nextTidy.2 second secondMember) sameContent
  · intro first firstMember second secondMember sameName
    apply (ofAnnotationUse_eq_nil_iff free _ _ sameName).mp
    · exact previousTexts (List.mem_map_of_mem firstMember)
    · exact nextTexts (List.mem_map_of_mem secondMember)

/-! ## Members -/

/-- The texts whose digests a comparison of an annotated entity looks at. -/
def hashedTexts {α : Type} [Entity α] (entity : α) (annotations : List AnnotationUse) :
    List String :=
  Entity.content entity :: annotations.map Entity.content

theorem ofField_eq_nil_iff {texts : List String} (free : Sha256.CollisionFree texts)
    {previous next : Field} (sameName : previous.name = next.name)
    (previousTidy : Tidy previous.annotations) (nextTidy : Tidy next.annotations)
    (previousTexts : hashedTexts previous previous.annotations ⊆ texts)
    (nextTexts : hashedTexts next next.annotations ⊆ texts) :
    ofField previous next = [] ↔ Entity.content previous = Entity.content next := by
  obtain ⟨previousText, previousTexts⟩ := List.cons_subset.mp previousTexts
  obtain ⟨nextText, nextTexts⟩ := List.cons_subset.mp nextTexts
  apply unlessSame_eq_nil_iff_content free previousText nextText
  intro nothing
  simp only [List.append_eq_nil_iff, ofAccess_eq_nil_iff, ofTexts_eq_nil_iff,
    ite_eq_left_iff, reduceCtorEq, imp_false, not_not] at nothing
  obtain ⟨⟨⟨sameAccess, sameType⟩, sameConstant⟩, annotationsNone⟩ := nothing
  have sameAnnotations := contents_eq_of_ofAnnotations_eq_nil free previousTexts nextTexts
    previousTidy nextTidy annotationsNone
  exact Field.content_congr sameName sameType sameAccess sameConstant sameAnnotations

/-- Constructors of one identity, which says what arguments they take. -/
theorem ofConstructor_eq_nil_iff {texts : List String} (free : Sha256.CollisionFree texts)
    {previous next : Constructor} (sameArguments : previous.arguments = next.arguments)
    (previousSorted : previous.exceptions.Pairwise (· ≤ ·))
    (nextSorted : next.exceptions.Pairwise (· ≤ ·))
    (previousTidy : Tidy previous.annotations) (nextTidy : Tidy next.annotations)
    (previousTexts : hashedTexts previous previous.annotations ⊆ texts)
    (nextTexts : hashedTexts next next.annotations ⊆ texts) :
    ofConstructor previous next = [] ↔ Entity.content previous = Entity.content next := by
  obtain ⟨previousText, previousTexts⟩ := List.cons_subset.mp previousTexts
  obtain ⟨nextText, nextTexts⟩ := List.cons_subset.mp nextTexts
  apply unlessSame_eq_nil_iff_content free previousText nextText
  intro nothing
  simp only [List.append_eq_nil_iff, ofAccess_eq_nil_iff] at nothing
  obtain ⟨⟨sameAccess, exceptionsNone⟩, annotationsNone⟩ := nothing
  have sameExceptions := eq_of_ofNames_eq_nil previousSorted nextSorted exceptionsNone
  have sameAnnotations := contents_eq_of_ofAnnotations_eq_nil free previousTexts nextTexts
    previousTidy nextTidy annotationsNone
  change previous.content = next.content
  rw [Constructor.content, Constructor.content, sameAccess, sameArguments, sameExceptions,
    Member.contentTail_congr _ _ sameAnnotations]

theorem ofInnerClass_eq_nil_iff {texts : List String} (free : Sha256.CollisionFree texts)
    {previous next : InnerClass} (sameName : previous.name = next.name)
    (previousText : Entity.content previous ∈ texts) (nextText : Entity.content next ∈ texts) :
    ofInnerClass previous next = [] ↔ Entity.content previous = Entity.content next := by
  apply unlessSame_eq_nil_iff_content free previousText nextText
  intro nothing
  have sameAccess := (ofAccess_eq_nil_iff _ _ _ _).mp nothing
  change previous.content = next.content
  rw [InnerClass.content, InnerClass.content, sameName, sameAccess]

/-- The comparisons of fields, constructors, annotations and entries for inner
classes find nothing exactly when the contents are equal. -/
theorem eq_nil_iff_content_eq :
    (∀ previous next : Field.Declared, previous.name = next.name →
      (∀ usage ∈ previous.annotations ++ next.annotations, Text.IsPlain usage.name) →
      Sha256.CollisionFree (hashedTexts previous.toField previous.toField.annotations ++
        hashedTexts next.toField next.toField.annotations) →
      (ofField previous.toField next.toField = [] ↔
        Entity.content previous.toField = Entity.content next.toField)) ∧
    (∀ previous next : Member.Declared,
      previous.toConstructor.identity = next.toConstructor.identity →
      (∀ usage ∈ previous.annotations ++ next.annotations, Text.IsPlain usage.name) →
      Sha256.CollisionFree (hashedTexts previous.toConstructor previous.toConstructor.annotations ++
        hashedTexts next.toConstructor next.toConstructor.annotations) →
      (ofConstructor previous.toConstructor next.toConstructor = [] ↔
        Entity.content previous.toConstructor = Entity.content next.toConstructor)) ∧
    (∀ previous next : AnnotationUse, previous.name = next.name →
      Sha256.CollisionFree [Entity.content previous, Entity.content next] →
      (ofAnnotationUse previous next = [] ↔ Entity.content previous = Entity.content next)) ∧
    (∀ previous next : InnerClass, previous.name = next.name →
      Sha256.CollisionFree [Entity.content previous, Entity.content next] →
      (ofInnerClass previous next = [] ↔ Entity.content previous = Entity.content next)) := by
  refine ⟨?fields, ?constructors, ?annotations, ?innerClasses⟩
  case fields =>
    intro previous next sameName plain free
    exact ofField_eq_nil_iff free sameName
      (tidy_sorted fun usage member => plain usage (List.mem_append_left _ member))
      (tidy_sorted fun usage member => plain usage (List.mem_append_right _ member))
      (List.subset_append_left _ _) (List.subset_append_right _ _)
  case constructors =>
    intro previous next sameIdentity plain free
    exact ofConstructor_eq_nil_iff free (Member.arguments_eq_of_identity_eq sameIdentity)
      (Text.pairwise_sorted _) (Text.pairwise_sorted _)
      (tidy_sorted fun usage member => plain usage (List.mem_append_left _ member))
      (tidy_sorted fun usage member => plain usage (List.mem_append_right _ member))
      (List.subset_append_left _ _) (List.subset_append_right _ _)
  case annotations =>
    intro previous next sameName free
    exact ofAnnotationUse_eq_nil_iff free List.mem_cons_self
      (List.mem_cons_of_mem _ List.mem_cons_self) sameName
  case innerClasses =>
    intro previous next sameName free
    exact ofInnerClass_eq_nil_iff free sameName List.mem_cons_self
      (List.mem_cons_of_mem _ List.mem_cons_self)

/-- A field whose annotation changes inside an array. -/
theorem eq_nil_iff_content_eq_tagged :
    let tagged (level : Int32) : Field.Declared :=
      { name := "n", type := "int",
        annotations := [(AnnotationUse.ofDescriptor "LTag;").insert "v"
          (.array [.leaf (.int level), .leaf (.string "x")])] }
    let previous := tagged 1
    let next := tagged 2
    previous.name = next.name ∧
      (∀ usage ∈ previous.annotations ++ next.annotations, Text.IsPlain usage.name) ∧
      Sha256.CollisionFree (hashedTexts previous.toField previous.toField.annotations ++
        hashedTexts next.toField next.toField.annotations) ∧
      (ofField previous.toField next.toField = [] ↔
        Entity.content previous.toField = Entity.content next.toField) := by
  intro tagged previous next
  have plain : ∀ usage ∈ previous.annotations ++ next.annotations, Text.IsPlain usage.name := by
    decide +kernel
  have digests :
      (hashedTexts previous.toField previous.toField.annotations ++
        hashedTexts next.toField next.toField.annotations).map Sha256.ofText =
      ["81501f81c6a2b72c77220013608adf9a383539184d3da5954ccfdeb33207ac1c",
        "8f5c6018704ca99384bf0ec0c59a1977305fd2a1b55bb361455503202ea45db5",
        "66547a4bb5a0265eb674c82caf3f87324fec09d2d79ef1d5b74b635381d90038",
        "89de5c7eac6943186bdb370592c9a3504f1d8a08d25dfdc03302cc4a2afccd8c"] := by
    decide +kernel
  have free : Sha256.CollisionFree (hashedTexts previous.toField previous.toField.annotations ++
      hashedTexts next.toField next.toField.annotations) := by
    apply Sha256.CollisionFree.of_nodup
    rw [digests]
    decide
  exact ⟨rfl, plain, free, eq_nil_iff_content_eq.1 previous next rfl plain free⟩

end Comparison

end JvmDiff
