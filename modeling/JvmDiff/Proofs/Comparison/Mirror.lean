import JvmDiff.Comparison.Classes
import JvmDiff.Proofs.Matching.Symmetry
import Mathlib.Data.List.Perm.Basic

/-!
# Comparing in the other direction

The mirror of a change is the change as seen from the later version: what was added was removed,
and the old and the new side of a modification are exchanged.  Comparing two versions of a class
the other way round tells the mirrors of the changes, in an order of its own.
-/

namespace JvmDiff

namespace Change

/-- The key with one ending in place of another. -/
def exchangeEnding (old new key : String) : String :=
  if old.toList.isSuffixOf key.toList then
    String.ofList (key.toList.take (key.toList.length - old.toList.length) ++ new.toList)
  else
    key

theorem exchangeEnding_append (stem old new : String) :
    exchangeEnding old new (stem ++ old) = stem ++ new := by
  have ending : old.toList.isSuffixOf (stem ++ old).toList = true := by
    rw [List.isSuffixOf_iff_suffix, String.toList_append]
    exact List.suffix_append _ _
  rw [exchangeEnding, if_pos ending, String.toList_append, List.length_append,
    Nat.add_sub_cancel, List.take_left', String.ofList_append, String.ofList_toList,
    String.ofList_toList]
  rfl

/-- The arguments of a modification with the old and the new side exchanged: a
value each, a set of keywords with its number each, or, after the key of an
element, a type with a value each. -/
def exchangeSides : List Argument → List Argument
  | [owner, old, new] => [owner, new, old]
  | [owner, oldWords, oldNumber, newWords, newNumber] =>
      [owner, newWords, newNumber, oldWords, oldNumber]
  | [owner, key, oldType, oldText, newType, newText] =>
      [owner, key, newType, newText, oldType, oldText]
  | arguments => arguments

/-- The change as seen from the later version. -/
def mirror (change : Change) : Change :=
  match change.kind with
  | .added =>
      { change with kind := .removed, key := exchangeEnding ".added" ".removed" change.key }
  | .removed =>
      { change with kind := .added, key := exchangeEnding ".removed" ".added" change.key }
  | .modified => { change with arguments := exchangeSides change.arguments }

end Change

/-- Lost and new parts have one stem of their keys, and both are errors. -/
structure PartTopics.Paired (topics : PartTopics) : Prop where
  keys : ∃ stem, topics.removed.key = stem ++ ".removed" ∧ topics.added.key = stem ++ ".added"
  addedSeverity : topics.addedSeverity = .error

theorem PartTopics.paired_parts (subject aspect heading noun : String) :
    (Topic.parts subject aspect heading noun).Paired :=
  ⟨⟨subject ++ "." ++ aspect, rfl, rfl⟩, rfl⟩

namespace Comparison

/-- The second list tells the mirrors of the changes in the first, in any
order. -/
def Mirrors (forward backward : List Change) : Prop :=
  backward.Perm (forward.map Change.mirror)

namespace Mirrors

theorem nil : Mirrors [] [] :=
  List.Perm.refl []

theorem append {forward backward moreForward moreBackward : List Change}
    (first : Mirrors forward backward) (second : Mirrors moreForward moreBackward) :
    Mirrors (forward ++ moreForward) (backward ++ moreBackward) := by
  rw [Mirrors, List.map_append]
  exact List.Perm.append first second

theorem append_swapped {forward backward moreForward moreBackward : List Change}
    (first : Mirrors forward backward) (second : Mirrors moreForward moreBackward) :
    Mirrors (forward ++ moreForward) (moreBackward ++ backward) :=
  List.perm_append_comm.trans (append first second)

theorem flatMap {α β : Type} {items : List α} {mirrored : List β} {f : α → List Change}
    {g : β → List Change} (image : α → β) (items_eq : mirrored.Perm (items.map image))
    (each : ∀ item ∈ items, Mirrors (f item) (g (image item))) :
    Mirrors (items.flatMap f) (mirrored.flatMap g) := by
  have backward : (mirrored.flatMap g).Perm ((items.map image).flatMap g) :=
    items_eq.flatMap_right g
  rw [Mirrors, List.map_flatMap]
  refine backward.trans ?_
  rw [List.flatMap_map]
  exact List.Perm.flatMap_left items each

end Mirrors

/-! ## Single values -/

theorem mirrors_unlessSame {α : Type} [Entity α] {previous next : α}
    {forward backward : List Change} (mirrors : Mirrors forward backward) :
    Mirrors (unlessSame previous next forward) (unlessSame next previous backward) := by
  by_cases same : Entity.hash previous = Entity.hash next
  · rw [unlessSame, unlessSame, if_pos same, if_pos same.symm]
    exact Mirrors.nil
  · rw [unlessSame, unlessSame, if_neg same, if_neg (Ne.symm same)]
    exact mirrors

/-- A change that is told unless two values are equal. -/
theorem mirrors_unlessEq {α : Type} [DecidableEq α] {previous next : α}
    {forward backward : Change} (mirror : backward = forward.mirror) :
    Mirrors (if previous = next then [] else [forward])
      (if next = previous then [] else [backward]) := by
  by_cases same : previous = next
  · rw [if_pos same, if_pos same.symm]
    exact Mirrors.nil
  · rw [if_neg same, if_neg (Ne.symm same), mirror]
    exact List.Perm.refl _

theorem mirrors_ofTexts (topic : Topic) (owner previous next : String) :
    Mirrors (ofTexts topic owner previous next) (ofTexts topic owner next previous) :=
  mirrors_unlessEq rfl

theorem mirrors_ofAccess (topic : Topic) (owner : String) (previous next : Access) :
    Mirrors (ofAccess topic owner previous next) (ofAccess topic owner next previous) :=
  mirrors_unlessEq rfl

/-! ## Lists of parts -/

section Parts

variable {α : Type} {topics : PartTopics}

theorem mirror_removed (paired : topics.Paired) (arguments : List Argument) :
    Change.mirror ⟨.error, .removed, topics.removed.key, arguments⟩ =
      ⟨topics.addedSeverity, .added, topics.added.key, arguments⟩ := by
  obtain ⟨⟨stem, removedKey, addedKey⟩, severity⟩ := paired
  rw [Change.mirror, removedKey, addedKey, severity]
  dsimp only
  rw [Change.exchangeEnding_append]

theorem mirror_added (paired : topics.Paired) (arguments : List Argument) :
    Change.mirror ⟨topics.addedSeverity, .added, topics.added.key, arguments⟩ =
      ⟨.error, .removed, topics.removed.key, arguments⟩ := by
  obtain ⟨⟨stem, removedKey, addedKey⟩, severity⟩ := paired
  rw [Change.mirror, removedKey, addedKey, severity]
  dsimp only
  rw [Change.exchangeEnding_append]

/-- One change for each part, on either side. -/
theorem mirrors_map {forward backward : α → Change} (parts : List α)
    (mirror : ∀ part, (forward part).mirror = backward part) :
    Mirrors (parts.map forward) (parts.map backward) := by
  rw [Mirrors, List.map_map]
  exact List.Perm.of_eq (List.map_congr_left fun part _ => (mirror part).symm)

/-- Two matchings of which one is the other with its sides exchanged. -/
theorem mirrors_ofMatching (paired : topics.Paired) (owner : String) (label : α → String)
    {inside : α → α → List Change} {forward backward : Matching α}
    (modified : backward.modified.Perm (forward.modified.map Prod.swap))
    (removed : backward.removed = forward.added) (added : backward.added = forward.removed)
    (each : ∀ pair ∈ forward.modified, Mirrors (inside pair.1 pair.2) (inside pair.2 pair.1)) :
    Mirrors (ofMatching topics owner label inside forward)
      (ofMatching topics owner label inside backward) := by
  rw [ofMatching, ofMatching, removed, added, List.append_assoc, List.append_assoc]
  refine Mirrors.append (Mirrors.flatMap Prod.swap modified each) ?_
  exact Mirrors.append_swapped (mirrors_map _ fun part => mirror_removed paired _)
    (mirrors_map _ fun part => mirror_added paired _)

/-- Matchings of two lists by name: only parts of one name are compared with
each other. -/
theorem mirrors_ofMatching_of (paired : topics.Paired) (owner : String) (label : α → String)
    {inside : α → α → List Change} (name fingerprint : α → String) (previous next : List α)
    (each : ∀ first second, name first = name second →
      Mirrors (inside first second) (inside second first)) :
    Mirrors (ofMatching topics owner label inside (.of name fingerprint previous next))
      (ofMatching topics owner label inside (.of name fingerprint next previous)) := by
  refine mirrors_ofMatching paired owner label
    (Matching.modified_of_swap name fingerprint previous next)
    (Matching.removed_of_swap name fingerprint previous next)
    (Matching.added_of_swap name fingerprint previous next) fun pair member => ?_
  exact each pair.1 pair.2
    (Matching.name_eq_of_mem_modified name fingerprint previous next member)

theorem mirrors_ofNames (paired : topics.Paired) (owner : String)
    (previous next : List String) :
    Mirrors (ofNames topics owner previous next) (ofNames topics owner next previous) :=
  mirrors_ofMatching_of paired owner id id id previous next fun _ _ _ => Mirrors.nil

theorem mirrors_ofEntities [Entity α] (paired : topics.Paired) (owner : String)
    {inside : α → α → List Change} (previous next : List α)
    (each : ∀ first second, Entity.name first = Entity.name second →
      Mirrors (inside first second) (inside second first)) :
    Mirrors (ofEntities topics owner inside previous next)
      (ofEntities topics owner inside next previous) :=
  mirrors_ofMatching_of paired owner Entity.name Entity.name Entity.hash previous next each

end Parts

/-! ## Annotations -/

section Elements

variable (usage previous next : AnnotationUse)

/-- The keys of the elements. -/
def keys : List String :=
  usage.elements.map Prod.fst

theorem nodup_keys : (keys usage).Nodup := by
  refine List.pairwise_map.mpr (usage.ordered.imp fun before same => ?_)
  exact String.lt_irrefl _ (same ▸ before)

theorem mem_keys_iff {key : String} : key ∈ keys usage ↔ (usage.find? key).isSome := by
  simp only [keys, List.mem_map, AnnotationUse.find?, Option.isSome_map, List.find?_isSome,
    decide_eq_true_eq]

/-- Looking up the key of an element finds its value, since no key comes
twice. -/
theorem find?_of_mem {element : String × ElementValue} (member : element ∈ usage.elements) :
    usage.find? element.1 = some element.2 := by
  have found : usage.elements.find? (fun other => other.1 = element.1) = some element := by
    obtain ⟨before, after, parted⟩ := List.append_of_mem member
    rw [List.find?_eq_some_iff_append]
    refine ⟨by simp, before, after, parted, fun other earlier => ?_⟩
    have ordered := usage.ordered
    rw [parted, List.pairwise_append] at ordered
    have less := ordered.2.2 other earlier element List.mem_cons_self
    simp only [Bool.not_eq_true', decide_eq_false_iff_not]
    intro same
    exact String.lt_irrefl _ (same ▸ less)
  rw [AnnotationUse.find?, found, Option.map_some]

/-- What one key adds to the changes of the values of an annotation. -/
def elementChange (name key : String) : List Change :=
  match previous.find? key, next.find? key with
  | some old, some new =>
      if old = new then []
      else
        [modified Topic.annotationValue
          [.text name, .text key, .text old.typeName, .text old.text, .text new.typeName,
            .text new.text]]
  | _, _ => []

/-- The keys that both annotations have, in the order of the first. -/
def commonKeys : List String :=
  (keys previous).filter fun key => key ∈ keys next

theorem commonKeys_perm : (commonKeys next previous).Perm (commonKeys previous next) := by
  refine (List.perm_ext_iff_of_nodup ((nodup_keys next).filter _)
    ((nodup_keys previous).filter _)).mpr fun key => ?_
  simp only [List.mem_filter, decide_eq_true_eq, and_comm]

/-- A key that only one of the annotations has adds nothing. -/
theorem elementChange_of_not_mem {key : String} (name : String) (absent : key ∉ keys next) :
    elementChange previous next name key = [] := by
  rw [mem_keys_iff, Option.isSome_iff_ne_none, not_not] at absent
  rw [elementChange, absent]
  cases previous.find? key <;> rfl

theorem flatMap_commonKeys (name : String) :
    (commonKeys previous next).flatMap (elementChange previous next name) =
      (keys previous).flatMap (elementChange previous next name) := by
  rw [commonKeys]
  induction keys previous with
  | nil => rfl
  | cons key others inductionHypothesis =>
    by_cases common : key ∈ keys next
    · rw [List.filter_cons_of_pos (by simpa using common), List.flatMap_cons,
        List.flatMap_cons, inductionHypothesis]
    · rw [List.filter_cons_of_neg (by simpa using common), List.flatMap_cons,
        elementChange_of_not_mem previous next name common, List.nil_append,
        inductionHypothesis]

/-- Comparing the values goes through the common keys. -/
theorem ofElements_eq_flatMap (name : String) :
    ofElements name previous next =
      (commonKeys previous next).flatMap (elementChange previous next name) := by
  rw [flatMap_commonKeys, keys, List.flatMap_map, ofElements]
  refine List.flatMap_congr fun element member => ?_
  rw [elementChange, find?_of_mem previous member]
  cases next.find? element.1 <;> rfl

theorem mirrors_elementChange (name key : String) :
    Mirrors (elementChange previous next name key) (elementChange next previous name key) := by
  rw [elementChange, elementChange]
  cases previous.find? key with
  | none => cases next.find? key <;> exact Mirrors.nil
  | some old =>
    cases next.find? key with
    | none => exact Mirrors.nil
    | some new => exact mirrors_unlessEq rfl

theorem mirrors_ofElements (name : String) :
    Mirrors (ofElements name previous next) (ofElements name next previous) := by
  -- The two annotations list their common keys in the same order only up to a permutation.
  rw [ofElements_eq_flatMap, ofElements_eq_flatMap]
  refine Mirrors.flatMap id ?_ fun key _ => mirrors_elementChange previous next name key
  rw [List.map_id]
  exact commonKeys_perm previous next

/-- Annotations of one name. -/
theorem mirrors_ofAnnotationUse (sameName : previous.name = next.name) :
    Mirrors (ofAnnotationUse previous next) (ofAnnotationUse next previous) := by
  refine mirrors_unlessSame (Mirrors.append ?_ ?_)
  · rw [← sameName]
    exact mirrors_ofMatching (PartTopics.paired_parts _ _ _ _) previous.name id
      (List.Perm.refl []) rfl rfl fun _ _ => Mirrors.nil
  · rw [← sameName]
    exact mirrors_ofElements previous next previous.name

end Elements

theorem mirrors_ofAnnotations {topics : PartTopics} (paired : topics.Paired) (owner : String)
    (previous next : List AnnotationUse) :
    Mirrors (ofAnnotations topics owner previous next)
      (ofAnnotations topics owner next previous) :=
  mirrors_ofMatching_of paired owner _ Entity.name Entity.hash previous next
    mirrors_ofAnnotationUse

/-! ## Members and classes -/

theorem mirrors_ofField (previous next : Field) (sameName : previous.name = next.name) :
    Mirrors (ofField previous next) (ofField next previous) := by
  rw [ofField, ofField, ← sameName]
  refine mirrors_unlessSame ?_
  refine Mirrors.append (Mirrors.append (Mirrors.append ?_ ?_) ?_) ?_
  · exact mirrors_ofAccess _ _ _ _
  · exact mirrors_ofTexts _ _ _ _
  · exact mirrors_unlessEq rfl
  · exact mirrors_ofAnnotations (PartTopics.paired_parts _ _ _ _) _ _ _

theorem mirrors_ofConstructor (previous next : Constructor)
    (sameIdentity : previous.identity = next.identity) :
    Mirrors (ofConstructor previous next) (ofConstructor next previous) := by
  rw [ofConstructor, ofConstructor, ← sameIdentity]
  refine mirrors_unlessSame (Mirrors.append (Mirrors.append ?_ ?_) ?_)
  · exact mirrors_ofAccess _ _ _ _
  · exact mirrors_ofNames (PartTopics.paired_parts _ _ _ _) _ _ _
  · exact mirrors_ofAnnotations (PartTopics.paired_parts _ _ _ _) _ _ _

theorem mirrors_ofMethod (previous next : Method)
    (sameIdentity : previous.identity = next.identity) :
    Mirrors (ofMethod previous next) (ofMethod next previous) := by
  rw [ofMethod, ofMethod, ← sameIdentity]
  refine mirrors_unlessSame ?_
  refine Mirrors.append (Mirrors.append (Mirrors.append ?_ ?_) ?_) ?_
  · exact mirrors_ofAccess _ _ _ _
  · exact mirrors_ofTexts _ _ _ _
  · exact mirrors_ofNames (PartTopics.paired_parts _ _ _ _) _ _ _
  · exact mirrors_ofAnnotations (PartTopics.paired_parts _ _ _ _) _ _ _

theorem mirrors_ofInnerClass (previous next : InnerClass)
    (sameName : previous.name = next.name) :
    Mirrors (ofInnerClass previous next) (ofInnerClass next previous) := by
  rw [ofInnerClass, ofInnerClass, ← sameName]
  exact mirrors_unlessSame (mirrors_ofAccess _ _ _ _)

theorem mirrors_ofHead (previous next : Class) (sameName : previous.name = next.name) :
    Mirrors (ofHead previous next) (ofHead next previous) := by
  rw [ofHead, ofHead, ← sameName]
  refine Mirrors.append (Mirrors.append (Mirrors.append ?_ ?_) ?_) ?_
  · exact mirrors_ofTexts _ _ _ _
  · exact mirrors_unlessEq rfl
  · exact mirrors_ofAccess _ _ _ _
  · exact mirrors_ofTexts _ _ _ _

/-- The changes of a class in the other direction are the mirrors of its
changes, in some order. -/
theorem ofClass_perm_mirror (previous next : Class) (sameName : previous.name = next.name) :
    (ofClass next previous).Perm ((ofClass previous next).map Change.mirror) := by
  change Mirrors (ofClass previous next) (ofClass next previous)
  rw [ofClass, ofClass, ← sameName]
  refine mirrors_unlessSame ?_
  refine Mirrors.append (Mirrors.append (Mirrors.append (Mirrors.append (Mirrors.append
    (Mirrors.append ?head ?interfaces) ?annotations) ?fields) ?constructors) ?methods)
    ?innerClasses
  case head => exact mirrors_ofHead previous next sameName
  case interfaces => exact mirrors_ofNames (PartTopics.paired_parts _ _ _ _) _ _ _
  case annotations => exact mirrors_ofAnnotations (PartTopics.paired_parts _ _ _ _) _ _ _
  case fields =>
    exact mirrors_ofEntities (PartTopics.paired_parts _ _ _ _) _ _ _ mirrors_ofField
  case constructors =>
    exact mirrors_ofEntities (PartTopics.paired_parts _ _ _ _) _ _ _ mirrors_ofConstructor
  case methods =>
    exact mirrors_ofEntities (PartTopics.paired_parts _ _ _ _) _ _ _ mirrors_ofMethod
  case innerClasses =>
    exact mirrors_ofEntities (PartTopics.paired_parts _ _ _ _) _ _ _ mirrors_ofInnerClass

/-- Two versions of a class with every kind of change between them: a value of
an annotation, flags, a superclass, a lost method and a new one. -/
theorem ofClass_perm_mirror_of_versions :
    let marker (level : Int32) : AnnotationUse :=
      (AnnotationUse.ofDescriptor "Ldemo/Level;").insert "value" (.leaf (.int level))
    let previous : Class := Class.Declared.toClass
      { name := "demo/Task", superclass := some "demo/Base", annotations := [marker 1],
        methods := [Member.Declared.toMethod { name := "start" }] }
    let next : Class := Class.Declared.toClass
      { name := "demo/Task", access := Access.accFinal, annotations := [marker 2],
        methods := [Member.Declared.toMethod { name := "stop" }] }
    previous.name = next.name ∧
      (ofClass next previous).Perm ((ofClass previous next).map Change.mirror) := by
  intro marker previous next
  have sameName : previous.name = next.name := rfl
  exact ⟨sameName, ofClass_perm_mirror previous next sameName⟩

end Comparison

end JvmDiff
