import JvmDiff.Access
import JvmDiff.AnnotationUse
import JvmDiff.Change.Topic
import JvmDiff.Matching

/-!
# Comparing the parts of two versions

The steps that the comparisons of all kinds of entities share: one value against another, one set
of flags against another, one list of parts against another.
-/

namespace JvmDiff.Comparison

/-- A change that is an error. -/
def modified (topic : Topic) (arguments : List Argument) : Change :=
  ⟨.error, .modified, topic.key, arguments⟩

/-- The changes of two entities, none when their digests are equal. -/
def unlessSame {α : Type} [Entity α] (previous next : α) (changes : List Change) :
    List Change :=
  if Entity.hash previous = Entity.hash next then [] else changes

def ofTexts (topic : Topic) (owner previous next : String) : List Change :=
  if previous = next then []
  else [modified topic [.text owner, .text previous, .text next]]

/-- A change when two sets of flags differ; it shows the keywords and the
numbers. -/
def ofAccess (topic : Topic) (owner : String) (previous next : Access) : List Change :=
  if previous = next then []
  else
    [modified topic
      [.text owner, .text previous.keywords, .ofNat previous.raw, .text next.keywords,
        .ofNat next.raw]]

/-- The changes of two matched lists of parts: those inside modified parts
first, then the removed parts, then the added ones. -/
def ofMatching {α : Type} (topics : PartTopics) (owner : String) (label : α → String)
    (inside : α → α → List Change) (matching : Matching α) : List Change :=
  (matching.modified.flatMap fun pair => inside pair.1 pair.2) ++
    (matching.removed.map fun part =>
      ⟨.error, .removed, topics.removed.key, [.text owner, .text (label part)]⟩) ++
    (matching.added.map fun part =>
      ⟨topics.addedSeverity, .added, topics.added.key, [.text owner, .text (label part)]⟩)

/-- The changes of two lists of entities, each shown by its name. -/
def ofEntities {α : Type} [Entity α] (topics : PartTopics) (owner : String)
    (inside : α → α → List Change) (previous next : List α) : List Change :=
  ofMatching topics owner Entity.name inside (Matching.ofEntities previous next)

/-- The changes of two lists of names. -/
def ofNames (topics : PartTopics) (owner : String) (previous next : List String) :
    List Change :=
  ofMatching topics owner id (fun _ _ => []) (Matching.ofTexts previous next)

/-- The changes of the values of one annotation, for keys that both versions
have. -/
def ofElements (name : String) (previous next : AnnotationUse) : List Change :=
  previous.elements.flatMap fun element =>
    match next.find? element.1 with
    | none => []
    | some value =>
        if element.2 = value then []
        else
          [modified Topic.annotationValue
            [.text name, .text element.1, .text element.2.typeName, .text element.2.text,
              .text value.typeName, .text value.text]]

/-- The keys of the first annotation that the second has not. -/
def keysOnlyIn (first second : AnnotationUse) : List String :=
  (first.elements.map Prod.fst).filter fun key => (second.find? key).isNone

/-- The changes of one annotation: keys that are gone, keys that are new, values
that are others. -/
def ofAnnotationUse (previous next : AnnotationUse) : List Change :=
  unlessSame previous next <|
    ofMatching Topic.annotationValues previous.name id (fun _ _ => [])
        ⟨[], [], keysOnlyIn previous next, keysOnlyIn next previous⟩ ++
      ofElements previous.name previous next

/-- The changes of two lists of annotations, each shown with the sign that
marks it in source code. -/
def ofAnnotations (topics : PartTopics) (owner : String) (previous next : List AnnotationUse) :
    List Change :=
  ofMatching topics owner (fun usage => "@" ++ usage.name) ofAnnotationUse
    (Matching.ofEntities previous next)

end JvmDiff.Comparison
