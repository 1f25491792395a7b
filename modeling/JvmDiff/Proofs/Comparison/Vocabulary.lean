import JvmDiff.Comparison.Classes
import Mathlib.Data.List.Basic

/-!
# What comparisons can tell

Whatever two versions are compared, every change has one of a few shapes: a value, a set of flags
or a version is another one, or a part is gone or new.  The shapes name their topics, so that a
statement about all changes is a statement about a few lists of topics.
-/

namespace JvmDiff.Comparison

/-- The topics of texts that are other ones. -/
def textTopics : List Topic :=
  [Topic.classType, Topic.classSuperclass, Topic.fieldType, Topic.methodType]

/-- The topics of flags that are other ones. -/
def accessTopics : List Topic :=
  [Topic.classModifiers, Topic.innerClassModifiers, Topic.fieldModifiers,
    Topic.constructorModifiers, Topic.methodModifiers]

/-- The topics of the parts that a class has, at any depth. -/
def classParts : List PartTopics :=
  [Topic.classInterfaces, Topic.classAnnotations, Topic.classFields, Topic.classConstructors,
    Topic.classMethods, Topic.classInnerClasses, Topic.fieldAnnotations,
    Topic.constructorExceptions, Topic.constructorAnnotations, Topic.methodExceptions,
    Topic.methodAnnotations, Topic.annotationValues]

/-- The shapes of changes, those about parts with one of the given topics. -/
inductive Told (parts : List PartTopics) : Change → Prop where
  | text {topic : Topic} (isTopic : topic ∈ textTopics) (owner previous next : String) :
      Told parts (modified topic [.text owner, .text previous, .text next])
  | access {topic : Topic} (isTopic : topic ∈ accessTopics) (owner : String)
      (previous next : Access) :
      Told parts
        (modified topic
          [.text owner, .text previous.keywords, .ofNat previous.raw, .text next.keywords,
            .ofNat next.raw])
  | version (owner : String) (previous next : UInt32) :
      Told parts
        ⟨.warning, .modified, Topic.classVersion.key,
          [.text owner, .ofNat previous.toNat, .ofNat next.toNat]⟩
  | constant (owner : String) (previous next : Option Constant) :
      Told parts
        (modified Topic.fieldValue
          [.text owner, .ofOption (previous.map Constant.text),
            .ofOption (next.map Constant.text)])
  | element (owner key : String) (previous next : ElementValue) :
      Told parts
        (modified Topic.annotationValue
          [.text owner, .text key, .text previous.typeName, .text previous.text,
            .text next.typeName, .text next.text])
  | removed {topics : PartTopics} (isPart : topics ∈ parts) (owner part : String) :
      Told parts ⟨.error, .removed, topics.removed.key, [.text owner, .text part]⟩
  | added {topics : PartTopics} (isPart : topics ∈ parts) (owner part : String) :
      Told parts ⟨topics.addedSeverity, .added, topics.added.key, [.text owner, .text part]⟩

def AllTold (parts : List PartTopics) (changes : List Change) : Prop :=
  ∀ change ∈ changes, Told parts change

section Parts

variable {parts : List PartTopics} {changes others : List Change}

theorem allTold_nil : AllTold parts [] :=
  List.forall_mem_nil _

theorem AllTold.append (told : AllTold parts changes) (othersTold : AllTold parts others) :
    AllTold parts (changes ++ others) :=
  List.forall_mem_append.mpr ⟨told, othersTold⟩

theorem allTold_singleton {change : Change} (told : Told parts change) : AllTold parts [change] :=
  List.forall_mem_singleton.mpr told

theorem AllTold.unlessSame {α : Type} [Entity α] {previous next : α}
    (told : AllTold parts changes) :
    AllTold parts (Comparison.unlessSame previous next changes) := by
  rw [Comparison.unlessSame]
  split
  · exact allTold_nil
  · exact told

theorem allTold_ofTexts {topic : Topic} (isTopic : topic ∈ textTopics)
    (owner previous next : String) : AllTold parts (ofTexts topic owner previous next) := by
  rw [ofTexts]
  split
  · exact allTold_nil
  · exact allTold_singleton (Told.text isTopic owner previous next)

theorem allTold_ofAccess {topic : Topic} (isTopic : topic ∈ accessTopics) (owner : String)
    (previous next : Access) : AllTold parts (ofAccess topic owner previous next) := by
  rw [ofAccess]
  split
  · exact allTold_nil
  · exact allTold_singleton (Told.access isTopic owner previous next)

theorem allTold_ofMatching {α : Type} {topics : PartTopics} (isPart : topics ∈ parts)
    (owner : String) (label : α → String) {inside : α → α → List Change}
    (insideTold : ∀ previous next, AllTold parts (inside previous next)) (matching : Matching α) :
    AllTold parts (ofMatching topics owner label inside matching) := by
  refine AllTold.append (AllTold.append ?_ ?_) ?_
  · intro change member
    obtain ⟨pair, _, inPair⟩ := List.mem_flatMap.mp member
    exact insideTold pair.1 pair.2 change inPair
  · intro change member
    obtain ⟨part, _, rfl⟩ := List.mem_map.mp member
    exact Told.removed isPart owner (label part)
  · intro change member
    obtain ⟨part, _, rfl⟩ := List.mem_map.mp member
    exact Told.added isPart owner (label part)

theorem allTold_ofNames {topics : PartTopics} (isPart : topics ∈ parts) (owner : String)
    (previous next : List String) : AllTold parts (ofNames topics owner previous next) :=
  allTold_ofMatching isPart owner id (fun _ _ => allTold_nil) _

theorem allTold_ofEntities {α : Type} [Entity α] {topics : PartTopics} (isPart : topics ∈ parts)
    (owner : String) {inside : α → α → List Change}
    (insideTold : ∀ previous next, AllTold parts (inside previous next))
    (previous next : List α) : AllTold parts (ofEntities topics owner inside previous next) :=
  allTold_ofMatching isPart owner Entity.name insideTold _

theorem allTold_ofElements (name : String) (previous next : AnnotationUse) :
    AllTold parts (ofElements name previous next) := by
  intro change member
  obtain ⟨element, _, inElement⟩ := List.mem_flatMap.mp member
  split at inElement
  case h_1 => exact absurd inElement List.not_mem_nil
  case h_2 value _ =>
    split at inElement
    case isTrue => exact absurd inElement List.not_mem_nil
    case isFalse =>
      rw [List.mem_singleton.mp inElement]
      exact Told.element name element.1 element.2 value

theorem allTold_ofAnnotations {topics : PartTopics} (isPart : topics ∈ parts)
    (values : Topic.annotationValues ∈ parts) (owner : String)
    (previous next : List AnnotationUse) :
    AllTold parts (ofAnnotations topics owner previous next) := by
  apply allTold_ofMatching isPart
  intro previousUse nextUse
  apply AllTold.unlessSame
  apply AllTold.append
  · exact allTold_ofMatching values previousUse.name id (fun _ _ => allTold_nil) _
  · exact allTold_ofElements previousUse.name previousUse nextUse

end Parts

/-! ## Classes -/

theorem allTold_ofField (previous next : Field) : AllTold classParts (ofField previous next) := by
  apply AllTold.unlessSame
  refine AllTold.append (AllTold.append (AllTold.append ?access ?type) ?constant) ?annotations
  case access => exact allTold_ofAccess (by decide) _ _ _
  case type => exact allTold_ofTexts (by decide) _ _ _
  case constant =>
    split
    · exact allTold_nil
    · exact allTold_singleton (Told.constant previous.name previous.constant next.constant)
  case annotations => exact allTold_ofAnnotations (by decide) (by decide) _ _ _

theorem allTold_ofConstructor (previous next : Constructor) :
    AllTold classParts (ofConstructor previous next) := by
  apply AllTold.unlessSame
  refine AllTold.append (AllTold.append ?access ?exceptions) ?annotations
  case access => exact allTold_ofAccess (by decide) _ _ _
  case exceptions => exact allTold_ofNames (by decide) _ _ _
  case annotations => exact allTold_ofAnnotations (by decide) (by decide) _ _ _

theorem allTold_ofMethod (previous next : Method) :
    AllTold classParts (ofMethod previous next) := by
  apply AllTold.unlessSame
  refine AllTold.append (AllTold.append (AllTold.append ?access ?type) ?exceptions) ?annotations
  case access => exact allTold_ofAccess (by decide) _ _ _
  case type => exact allTold_ofTexts (by decide) _ _ _
  case exceptions => exact allTold_ofNames (by decide) _ _ _
  case annotations => exact allTold_ofAnnotations (by decide) (by decide) _ _ _

theorem allTold_ofInnerClass (previous next : InnerClass) :
    AllTold classParts (ofInnerClass previous next) :=
  AllTold.unlessSame (allTold_ofAccess (by decide) _ _ _)

theorem allTold_ofHead (previous next : Class) : AllTold classParts (ofHead previous next) := by
  refine AllTold.append (AllTold.append (AllTold.append ?type ?version) ?access) ?superclass
  case type => exact allTold_ofTexts (by decide) _ _ _
  case version =>
    split
    · exact allTold_nil
    · exact allTold_singleton (Told.version previous.name previous.version next.version)
  case access => exact allTold_ofAccess (by decide) _ _ _
  case superclass => exact allTold_ofTexts (by decide) _ _ _

/-- A comparison of classes tells about classes and what is inside them only. -/
theorem allTold_ofClass (previous next : Class) : AllTold classParts (ofClass previous next) := by
  apply AllTold.unlessSame
  refine AllTold.append (AllTold.append (AllTold.append (AllTold.append (AllTold.append
    (AllTold.append ?head ?interfaces) ?annotations) ?fields) ?constructors) ?methods)
    ?innerClasses
  case head => exact allTold_ofHead previous next
  case interfaces => exact allTold_ofNames (by decide) _ _ _
  case annotations => exact allTold_ofAnnotations (by decide) (by decide) _ _ _
  case fields => exact allTold_ofEntities (by decide) _ allTold_ofField _ _
  case constructors => exact allTold_ofEntities (by decide) _ allTold_ofConstructor _ _
  case methods => exact allTold_ofEntities (by decide) _ allTold_ofMethod _ _
  case innerClasses => exact allTold_ofEntities (by decide) _ allTold_ofInnerClass _ _

/-! ## Keys -/

/-- The topics of changes that are not about parts. -/
def valueTopics : List Topic :=
  textTopics ++ accessTopics ++ [Topic.classVersion, Topic.fieldValue, Topic.annotationValue]

def topicsOf (parts : List PartTopics) : List Topic :=
  valueTopics ++ parts.flatMap Topic.both

theorem Told.exists_topic {parts : List PartTopics} {change : Change} (told : Told parts change) :
    ∃ topic ∈ topicsOf parts, change.key = topic.key := by
  cases told with
  | text isTopic =>
    exact ⟨_, List.mem_append_left _ (List.mem_append_left _ (List.mem_append_left _ isTopic)), rfl⟩
  | access isTopic =>
    exact ⟨_, List.mem_append_left _ (List.mem_append_left _ (List.mem_append_right _ isTopic)),
      rfl⟩
  | version => exact ⟨Topic.classVersion, List.mem_append_left _ (by decide), rfl⟩
  | constant => exact ⟨Topic.fieldValue, List.mem_append_left _ (by decide), rfl⟩
  | element => exact ⟨Topic.annotationValue, List.mem_append_left _ (by decide), rfl⟩
  | removed isPart =>
    exact ⟨_, List.mem_append_right _
      (List.mem_flatMap.mpr ⟨_, isPart, List.mem_cons_self⟩), rfl⟩
  | added isPart =>
    exact ⟨_, List.mem_append_right _
      (List.mem_flatMap.mpr ⟨_, isPart, List.mem_cons_of_mem _ List.mem_cons_self⟩), rfl⟩

end JvmDiff.Comparison
