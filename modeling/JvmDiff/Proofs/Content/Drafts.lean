import JvmDiff.Package
import JvmDiff.Proofs.Class.Blueprint
import JvmDiff.Proofs.Comparison.Silence

/-!
# Drafts

A draft says how a class or a package is declared, part by part and down to the elements of its
annotations, all in the order in which they are handed over.  Building a draft brings every part
to its canonical form, the innermost parts first.
-/

namespace JvmDiff

/-- An element value as declared: the elements of a nested annotation stand in
the order in which they are set. -/
inductive ElementDraft where
  | leaf (value : ElementLeaf)
  | array (items : List ElementDraft)
  | nested (descriptor : String) (elements : List (String × ElementDraft))

namespace ElementDraft

mutual

def value : ElementDraft → ElementValue
  | .leaf value => .leaf value
  | .array items => .array (itemValues items)
  | .nested descriptor elements =>
      ((AnnotationUse.ofDescriptor descriptor).insertAll (elementValues elements)).toValue

def itemValues : List ElementDraft → List ElementValue
  | [] => []
  | item :: items => item.value :: itemValues items

/-- The values of the elements of an annotation, each with its key. -/
def elementValues : List (String × ElementDraft) → List (String × ElementValue)
  | [] => []
  | (key, draft) :: elements => (key, draft.value) :: elementValues elements

end

theorem elementValues_eq_map (elements : List (String × ElementDraft)) :
    elementValues elements = elements.map fun element => (element.1, element.2.value) := by
  induction elements with
  | nil => rfl
  | cons element elements inductionHypothesis =>
    obtain ⟨key, draft⟩ := element
    rw [elementValues, List.map_cons, inductionHypothesis]

end ElementDraft

namespace AnnotationUse

/-- An annotation as declared. -/
structure Draft where
  descriptor : String
  elements : List (String × ElementDraft) := []

def Draft.build (draft : Draft) : AnnotationUse :=
  (ofDescriptor draft.descriptor).insertAll (ElementDraft.elementValues draft.elements)

/-! ## Elements that are set one after another -/

section Insertion

variable (key wanted : String) (value : ElementValue)

theorem find?_insertElement (elements : List (String × ElementValue)) :
    ((insertElement key value elements).find? fun element => element.1 = wanted) =
      if key = wanted then some (key, value)
      else elements.find? fun element => element.1 = wanted := by
  induction elements with
  | nil => by_cases same : key = wanted <;> simp [insertElement, same]
  | cons element elements inductionHypothesis =>
    obtain ⟨other, old⟩ := element
    rw [insertElement]
    split
    case isTrue replaced =>
      subst replaced
      by_cases same : key = wanted <;> simp [same]
    case isFalse different =>
      split
      case isTrue => by_cases same : key = wanted <;> simp [same]
      case isFalse =>
        rw [List.find?_cons, List.find?_cons, inductionHypothesis]
        by_cases found : other = wanted
        · subst found
          simp [different]
        · simp [found]

theorem find?_insert (usage : AnnotationUse) :
    (usage.insert key value).find? wanted =
      if key = wanted then some value else usage.find? wanted := by
  rw [find?, insert, find?_insertElement]
  by_cases same : key = wanted
  · rw [if_pos same, if_pos same, Option.map_some]
  · rw [if_neg same, if_neg same, find?]

/-- A key has the value that was set last, or the one that it had before. -/
theorem find?_insertAll (usage : AnnotationUse) (elements : List (String × ElementValue)) :
    (usage.insertAll elements).find? wanted =
      ((Matching.withLabel Prod.fst elements wanted).getLast?.map Prod.snd).or
        (usage.find? wanted) := by
  induction elements generalizing usage with
  | nil => rfl
  | cons element elements inductionHypothesis =>
    rw [insertAll, List.foldl_cons, ← insertAll, inductionHypothesis, find?_insert]
    by_cases same : element.1 = wanted
    · subst same
      rw [if_pos rfl, Matching.withLabel_cons_self, List.getLast?_cons]
      cases (Matching.withLabel Prod.fst elements element.1).getLast? <;> rfl
    · rw [if_neg same, Matching.withLabel_cons_of_ne _ _ (Ne.symm same)]

end Insertion

theorem name_insertAll (usage : AnnotationUse) (elements : List (String × ElementValue)) :
    (usage.insertAll elements).name = usage.name := by
  induction elements generalizing usage with
  | nil => rfl
  | cons element elements inductionHypothesis => exact inductionHypothesis _

/-- An annotation is its name with what its keys stand for. -/
theorem eq_of_find?_eq {first second : AnnotationUse} (sameName : first.name = second.name)
    (sameValues : ∀ key, first.find? key = second.find? key) : first = second := by
  have memberIff : ∀ usage : AnnotationUse, ∀ element : String × ElementValue,
      element ∈ usage.elements ↔ usage.find? element.1 = some element.2 := by
    intro usage element
    exact ⟨Comparison.find?_of_mem usage, Comparison.mem_of_find?⟩
  have sameElements : first.elements = second.elements := by
    apply Comparison.elements_eq_of_mem_iff
    intro element
    rw [memberIff, memberIff, sameValues]
  cases first
  cases second
  simp_all only

/-- Only the order of elements with one key counts. -/
theorem insertAll_eq_of_withLabel_eq (usage : AnnotationUse)
    {elements others : List (String × ElementValue)}
    (sameKeys : ∀ key, Matching.withLabel Prod.fst elements key =
      Matching.withLabel Prod.fst others key) :
    usage.insertAll elements = usage.insertAll others := by
  apply eq_of_find?_eq
  · rw [name_insertAll, name_insertAll]
  · intro key
    rw [find?_insertAll, find?_insertAll, sameKeys]

end AnnotationUse

/-! ## Drafts of members, classes and packages -/

/-- A field as declared. -/
structure Field.Draft where
  name : String
  type : String
  access : Access := Access.accPublic
  constant : Option Constant := none
  annotations : List AnnotationUse.Draft := []

def Field.Draft.declared (draft : Draft) : Declared where
  name := draft.name
  type := draft.type
  access := draft.access
  constant := draft.constant
  annotations := draft.annotations.map AnnotationUse.Draft.build

/-- A method or constructor as declared. -/
structure Member.Draft where
  name : String
  access : Access := Access.accPublic
  genericTypes : String := ""
  returnType : Option String := none
  arguments : String := ""
  exceptions : List String := []
  annotations : List AnnotationUse.Draft := []

def Member.Draft.declared (draft : Draft) : Declared where
  name := draft.name
  access := draft.access
  genericTypes := draft.genericTypes
  returnType := draft.returnType
  arguments := draft.arguments
  exceptions := draft.exceptions
  annotations := draft.annotations.map AnnotationUse.Draft.build

namespace Class

/-- A class and its parts as declared. -/
structure Draft where
  name : String
  access : Access := Access.accPublic
  version : UInt32 := 0
  typeParameters : String := ""
  superclass : Option String := none
  interfaces : List String := []
  annotations : List AnnotationUse.Draft := []
  fields : List Field.Draft := []
  constructors : List Member.Draft := []
  methods : List Member.Draft := []
  innerClasses : List (String × Access) := []

namespace Draft

def blueprint (draft : Draft) : Blueprint where
  name := draft.name
  access := draft.access
  version := draft.version
  typeParameters := draft.typeParameters
  superclass := draft.superclass
  interfaces := draft.interfaces
  annotations := draft.annotations.map AnnotationUse.Draft.build
  fields := draft.fields.map Field.Draft.declared
  constructors := draft.constructors.map Member.Draft.declared
  methods := draft.methods.map Member.Draft.declared
  innerClasses := draft.innerClasses

def build (draft : Draft) : Class :=
  draft.blueprint.build

theorem fields_build (draft : Draft) :
    draft.build.fields =
      if ClassKind.ofAccess draft.access = .enumeration then
        (draft.fields.map Field.Draft.declared).map Field.Declared.toField
      else Entity.sorted ((draft.fields.map Field.Draft.declared).map Field.Declared.toField) :=
  rfl

end Draft

end Class

namespace Package

/-- A package as declared: its annotations and the entries of its classes. -/
structure Draft where
  name : String
  annotations : List AnnotationUse.Draft := []
  classes : List (String × Access) := []

def Draft.build (draft : Draft) : Package :=
  Package.build draft.name (draft.annotations.map AnnotationUse.Draft.build)
    (draft.classes.map fun entry => InnerClass.ofName entry.1 entry.2)

end Package

end JvmDiff
