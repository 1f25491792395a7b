import JvmDiff.Proofs.Comparison.Silence
import JvmDiff.Proofs.Content.Numbers

/-!
# Annotations key by key

The comparison of two annotations of one name finds what a comparison key by key finds, unless
their digests are equal: then it finds nothing.  Since a content does not show the type of a
number, the two differ in that nothing is found where only types of numbers, or the bits of a
number that is none, have changed.
-/

namespace JvmDiff.Comparison

open Text

section Keys

variable (previous next : AnnotationUse)

/-- The changes of two annotations found key by key, without a look at the
digests: keys that are gone, keys that are new, and keys with another value,
each in the order of the keys. -/
def byKey : List Change :=
  (((keys previous).filter fun key => key ∉ keys next).map fun key =>
      ⟨.error, .removed, "annotation.value.removed", [.text previous.name, .text key]⟩) ++
    (((keys next).filter fun key => key ∉ keys previous).map fun key =>
      ⟨.error, .added, "annotation.value.added", [.text previous.name, .text key]⟩) ++
    previous.elements.flatMap fun old =>
      (next.elements.filter fun new => new.1 = old.1 ∧ new.2 ≠ old.2).map fun new =>
        ⟨.error, .modified, "annotation.value.modified",
          [.text previous.name, .text old.1, .text old.2.typeName, .text old.2.text,
            .text new.2.typeName, .text new.2.text]⟩

theorem keysOnlyIn_eq : keysOnlyIn previous next =
    (keys previous).filter fun key => key ∉ keys next := by
  apply List.filter_congr
  intro key _
  rw [Bool.eq_iff_iff, decide_eq_true_iff, mem_keys_iff]
  simp

theorem filter_eq_nil_of_not_mem {elements : List (String × ElementValue)} {key : String}
    (absent : key ∉ elements.map Prod.fst) (holds : ElementValue → Prop) [DecidablePred holds] :
    elements.filter (fun element => element.1 = key ∧ holds element.2) = [] := by
  apply List.filter_eq_nil_iff.mpr
  intro element member picked
  exact absent ((of_decide_eq_true picked).1 ▸ List.mem_map_of_mem member)

/-- One key picks out one element at most. -/
theorem filter_elements (usage : AnnotationUse) (key : String) (holds : ElementValue → Prop)
    [DecidablePred holds] :
    usage.elements.filter (fun element => element.1 = key ∧ holds element.2) =
      match usage.find? key with
      | none => []
      | some value => if holds value then [(key, value)] else [] := by
  cases found : usage.find? key with
  | none =>
    have absent : key ∉ keys usage := by
      rw [mem_keys_iff, found]
      simp
    exact filter_eq_nil_of_not_mem absent holds
  | some value =>
    obtain ⟨before, after, parted⟩ := List.append_of_mem (mem_of_find? found)
    have distinct := nodup_keys usage
    rw [keys, parted, List.map_append, List.map_cons, List.nodup_middle, List.nodup_cons,
      List.mem_append, not_or] at distinct
    rw [parted, List.filter_append, filter_eq_nil_of_not_mem distinct.1.1, List.filter_cons,
      filter_eq_nil_of_not_mem distinct.1.2]
    simp

theorem ofElements_eq (name : String) : ofElements name previous next =
    previous.elements.flatMap fun old =>
      (next.elements.filter fun new => new.1 = old.1 ∧ new.2 ≠ old.2).map fun new =>
        ⟨.error, .modified, "annotation.value.modified",
          [.text name, .text old.1, .text old.2.typeName, .text old.2.text,
            .text new.2.typeName, .text new.2.text]⟩ := by
  rw [ofElements]
  apply List.flatMap_congr
  intro old _
  rw [filter_elements next old.1 (· ≠ old.2)]
  cases next.find? old.1 with
  | none => rfl
  | some value =>
    by_cases same : old.2 = value
    · simp [same]
    · simp [same, Ne.symm same, modified, Topic.annotationValue]

/-- The comparison is the one key by key, but for equal digests. -/
theorem ofAnnotationUse_eq : ofAnnotationUse previous next =
    if Entity.hash previous = Entity.hash next then [] else byKey previous next := by
  rw [ofAnnotationUse, unlessSame, ofElements_eq, ofMatching, keysOnlyIn_eq, keysOnlyIn_eq, byKey]
  rfl

/-- Nothing is found key by key in an annotation and itself, and in no others of
one name. -/
theorem byKey_eq_nil_iff {previous next : AnnotationUse} (sameName : previous.name = next.name) :
    byKey previous next = [] ↔ previous = next := by
  constructor
  · intro silent
    rw [byKey, ← keysOnlyIn_eq, ← keysOnlyIn_eq, ← ofElements_eq] at silent
    obtain ⟨keysNone, valuesNone⟩ := List.append_eq_nil_iff.mp silent
    obtain ⟨removedNone, addedNone⟩ := List.append_eq_nil_iff.mp keysNone
    have sameElements := elements_eq_of_silent (List.map_eq_nil_iff.mp removedNone)
      (List.map_eq_nil_iff.mp addedNone) valuesNone
    apply AnnotationUse.toValue_injective
    rw [AnnotationUse.toValue, AnnotationUse.toValue, sameName, sameElements]
  · rintro rfl
    have noKeys : ((keys previous).filter fun key => key ∉ keys previous) = [] := by
      apply List.filter_eq_nil_iff.mpr
      intro key member picked
      exact of_decide_eq_true picked member
    have noValues : ofElements previous.name previous previous = [] := by
      apply List.flatMap_eq_nil_iff.mpr
      intro element member
      rw [find?_of_mem previous member]
      exact if_pos rfl
    rw [byKey, noKeys, ← ofElements_eq, noValues]
    rfl

end Keys

/-! ## What the digests hide -/

section Hidden

variable {previous next : AnnotationUse}

/-- The comparison hides something exactly where annotations that differ have one
digest. -/
theorem ofAnnotationUse_eq_byKey_iff_hash (sameName : previous.name = next.name) :
    ofAnnotationUse previous next = byKey previous next ↔
      (Entity.hash previous = Entity.hash next → previous = next) := by
  rw [ofAnnotationUse_eq]
  split
  case isTrue sameHash =>
    rw [eq_comm, byKey_eq_nil_iff sameName]
    exact ⟨fun same _ => same, fun same => same sameHash⟩
  case isFalse otherHash => exact iff_of_true rfl fun sameHash => absurd sameHash otherHash

theorem hash_eq_iff_shown_eq (previousNamed : previous.Named) (nextNamed : next.Named)
    (sameName : previous.name = next.name)
    (free : Sha256.CollisionFree [Entity.content previous, Entity.content next]) :
    Entity.hash previous = Entity.hash next ↔ previous.shown = next.shown := by
  rw [← previousNamed.content_eq_iff nextNamed sameName]
  exact ⟨free _ (by simp) _ (by simp), congrArg Sha256.ofText⟩

/-- The comparison of annotations of one name is the one key by key, but where
annotations that differ have one digest: it then finds nothing.  If the names in
the values are names and the two contents do not share a digest, these are the
annotations that differ in nothing but the types of numbers or the bits of
numbers with one literal. -/
theorem ofAnnotationUse_eq_byKey_iff (sameName : previous.name = next.name) :
    (ofAnnotationUse previous next = byKey previous next ↔
        (Entity.hash previous = Entity.hash next → previous = next)) ∧
      (Entity.hash previous = Entity.hash next → ofAnnotationUse previous next = []) ∧
      (previous.Named → next.Named →
        Sha256.CollisionFree [Entity.content previous, Entity.content next] →
        (ofAnnotationUse previous next = byKey previous next ↔
          (previous.shown = next.shown → previous = next))) := by
  refine ⟨ofAnnotationUse_eq_byKey_iff_hash sameName, fun sameHash => ?_, ?_⟩
  · rw [ofAnnotationUse_eq, if_pos sameHash]
  · intro previousNamed nextNamed free
    rw [ofAnnotationUse_eq_byKey_iff_hash sameName,
      hash_eq_iff_shown_eq previousNamed nextNamed sameName free]

end Hidden

/-- An annotation with one element. -/
def tagged (value : ElementValue) : AnnotationUse :=
  ⟨"Tag", [("v", value)], List.pairwise_singleton _ _⟩

theorem named_tagged {value : ElementValue} (named : value.Named) : (tagged value).Named where
  keys := List.forall_mem_singleton.mpr (by decide : IsName "v")
  values := List.forall_mem_singleton.mpr named

/-- A number and the literal of an array type. -/
def sized (length : ElementLeaf) : ElementValue :=
  .array [.leaf length, .leaf (.classLiteral "java.lang.String[]")]

theorem named_sized (length : Int32) : (sized (.int length)).Named := by
  have isName : IsName "java.lang.String" := by decide
  have bare : Bare ("java.lang.String".toList ++ '[' :: ']' :: []) :=
    isName.bare.append (.brackets .nil)
  refine .array (List.forall_mem_cons.mpr ⟨.leaf trivial, List.forall_mem_singleton.mpr ?_⟩)
  exact .leaf ⟨bare, startsWith_cons (by decide) _⟩

theorem ofAnnotationUse_eq_byKey_iff_sized :
    let previous := tagged (sized (.int 1))
    let next := tagged (sized (.int 2))
    previous.name = next.name ∧ previous.Named ∧ next.Named ∧
      Sha256.CollisionFree [Entity.content previous, Entity.content next] ∧
      previous.shown ≠ next.shown ∧ ofAnnotationUse previous next = byKey previous next := by
  intro previous next
  have previousNamed : previous.Named := named_tagged (named_sized 1)
  have nextNamed : next.Named := named_tagged (named_sized 2)
  have free : Sha256.CollisionFree [Entity.content previous, Entity.content next] := by
    apply Sha256.CollisionFree.of_nodup
    decide +kernel
  have otherShown : previous.shown ≠ next.shown := by
    simp [previous, next, tagged, sized, AnnotationUse.shown, ElementValue.elementOutlines,
      ElementValue.outline, ElementValue.itemOutlines, ElementLeaf.shown]
  have sameName : previous.name = next.name := rfl
  have found := ofAnnotationUse_eq_byKey_iff sameName
  exact ⟨sameName, previousNamed, nextNamed, free, otherShown,
    (found.2.2 previousNamed nextNamed free).mpr fun sameShown => absurd sameShown otherShown⟩

/-- Two elements, and one whose key spells the first of them. -/
def twoElements : AnnotationUse :=
  ⟨"Tag", [("a", .leaf (.int 1)), ("b", .leaf (.int 2))], by decide⟩

def oneElement : AnnotationUse :=
  ⟨"Tag", [("a=1, b", .leaf (.int 2))], List.pairwise_singleton _ _⟩

/-- Key by key, a byte is told from an int and a number that is none from one of
other bits; the comparison finds neither.  Nor does it see where a key ends that
is no name. -/
theorem ofAnnotationUse_overlooks :
    ofAnnotationUse (tagged (.leaf (.byte 1))) (tagged (.leaf (.int 1))) = [] ∧
      byKey (tagged (.leaf (.byte 1))) (tagged (.leaf (.int 1))) =
        [⟨.error, .modified, "annotation.value.modified",
          [.text "Tag", .text "v", .text "byte", .text "1", .text "int", .text "1"]⟩] ∧
      ofAnnotationUse (tagged (.leaf (.float ⟨0x7fc00000⟩)))
        (tagged (.leaf (.float ⟨0x7fc00001⟩))) = [] ∧
      byKey (tagged (.leaf (.float ⟨0x7fc00000⟩))) (tagged (.leaf (.float ⟨0x7fc00001⟩))) =
        [⟨.error, .modified, "annotation.value.modified",
          [.text "Tag", .text "v", .text "float", .text "NaN", .text "float", .text "NaN"]⟩] ∧
      ofAnnotationUse oneElement twoElements = [] ∧
      byKey oneElement twoElements =
        [⟨.error, .removed, "annotation.value.removed", [.text "Tag", .text "a=1, b"]⟩,
          ⟨.error, .added, "annotation.value.added", [.text "Tag", .text "a"]⟩,
          ⟨.error, .added, "annotation.value.added", [.text "Tag", .text "b"]⟩] := by
  have hidden : ∀ {first second : AnnotationUse}, Entity.content first = Entity.content second →
      ofAnnotationUse first second = [] := by
    intro first second sameContent
    have sameHash : Entity.hash first = Entity.hash second :=
      congrArg Sha256.ofText sameContent
    rw [ofAnnotationUse_eq, if_pos sameHash]
  exact ⟨hidden (by decide), by decide, hidden (by decide), by decide, hidden (by decide),
    by decide⟩

end JvmDiff.Comparison
