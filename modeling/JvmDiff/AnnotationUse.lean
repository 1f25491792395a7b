import JvmDiff.ElementValue
import JvmDiff.Entity

/-!
# Annotations

An annotation has the dotted name of its type and elements in ascending order of their keys,
one for each key.
-/

namespace JvmDiff

/-- An annotation on a package, a class or a member. -/
structure AnnotationUse where
  name : String
  elements : List (String × ElementValue)
  /-- The keys ascend, so that no key comes twice. -/
  ordered : elements.Pairwise fun first second => first.1 < second.1
deriving DecidableEq, Repr

namespace AnnotationUse

/-- The name of an annotation type: its descriptor without the marks around the
name, or a name as it is, with dots for slashes. -/
def typeName (descriptor : String) : String :=
  Text.dotted ((Text.unwrapped 'L' ';' descriptor).getD descriptor)

/-- An annotation of the described type without elements. -/
def ofDescriptor (descriptor : String) : AnnotationUse :=
  ⟨typeName descriptor, [], List.Pairwise.nil⟩

/-- The elements with one more, at its place in the order of keys; a key that is
there already takes the new value. -/
def insertElement (key : String) (value : ElementValue) :
    List (String × ElementValue) → List (String × ElementValue)
  | [] => [(key, value)]
  | (other, old) :: elements =>
      if key = other then (key, value) :: elements
      else if key < other then (key, value) :: (other, old) :: elements
      else (other, old) :: insertElement key value elements

/-- What stands in the list after an insertion is new or was there before. -/
theorem mem_insertElement {key : String} {value : ElementValue}
    {elements : List (String × ElementValue)} {element : String × ElementValue}
    (member : element ∈ insertElement key value elements) :
    element = (key, value) ∨ element ∈ elements := by
  induction elements with
  | nil => exact Or.inl (List.mem_singleton.mp member)
  | cons head elements inductionHypothesis =>
    rw [insertElement] at member
    split at member
    · rcases List.mem_cons.mp member with rfl | later
      · exact Or.inl rfl
      · exact Or.inr (List.mem_cons_of_mem _ later)
    · split at member
      · exact List.mem_cons.mp member
      · rcases List.mem_cons.mp member with rfl | later
        · exact Or.inr List.mem_cons_self
        · exact (inductionHypothesis later).imp_right (List.mem_cons_of_mem _)

/-- An insertion keeps the order of the keys. -/
theorem ordered_insertElement (key : String) (value : ElementValue)
    {elements : List (String × ElementValue)}
    (ordered : elements.Pairwise fun first second => first.1 < second.1) :
    (insertElement key value elements).Pairwise fun first second => first.1 < second.1 := by
  induction elements with
  | nil => exact List.pairwise_singleton _ _
  | cons head elements inductionHypothesis =>
    obtain ⟨headFirst, tailOrdered⟩ := List.pairwise_cons.mp ordered
    rw [insertElement]
    split
    case isTrue same =>
      exact List.pairwise_cons.mpr ⟨fun later member => same ▸ headFirst later member, tailOrdered⟩
    case isFalse different =>
      split
      case isTrue before =>
        refine List.pairwise_cons.mpr ⟨fun later member => ?_, ordered⟩
        rcases List.mem_cons.mp member with rfl | inTail
        · exact before
        · exact String.lt_trans before (headFirst later inTail)
      case isFalse notBefore =>
        have headBefore : head.1 < key :=
          String.not_le.mp fun keyFirst =>
            different (String.le_antisymm keyFirst (String.not_lt.mp notBefore))
        refine List.pairwise_cons.mpr ⟨fun later member => ?_, inductionHypothesis tailOrdered⟩
        rcases mem_insertElement member with rfl | inTail
        · exact headBefore
        · exact headFirst later inTail

def insert (usage : AnnotationUse) (key : String) (value : ElementValue) : AnnotationUse :=
  ⟨usage.name, insertElement key value usage.elements,
    ordered_insertElement key value usage.ordered⟩

/-- The annotation with the elements set one after another. -/
def insertAll (usage : AnnotationUse) (elements : List (String × ElementValue)) : AnnotationUse :=
  elements.foldl (fun result element => result.insert element.1 element.2) usage

/-- The value of the element with the key. -/
def find? (usage : AnnotationUse) (key : String) : Option ElementValue :=
  (usage.elements.find? fun element => element.1 = key).map Prod.snd

/-- The annotation as an element value of another. -/
def toValue (usage : AnnotationUse) : ElementValue :=
  .nested usage.name usage.elements

instance : Entity AnnotationUse where
  name := AnnotationUse.name
  content usage := usage.toValue.content

end AnnotationUse

end JvmDiff
