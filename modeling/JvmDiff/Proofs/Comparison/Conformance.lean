import JvmDiff.Change.Message
import JvmDiff.Proofs.Change.Template
import JvmDiff.Proofs.Comparison.Vocabulary

/-!
# Changes keep to the table of topics

Whatever is compared, every change has the key of a topic, the kind and the severity that go with
the key, and as many arguments as the template of the topic has places, so that its message is the
template with all arguments in their places.
-/

namespace JvmDiff

/-- The last part of a key for changes of the kind. -/
def ChangeKind.segment : ChangeKind → String
  | .added => "added"
  | .removed => "removed"
  | .modified => "modified"

/-- The change is one of those that the table of topics provides for. -/
structure Change.Conforms (change : Change) : Prop where
  listed : ∃ topic ∈ Topic.all, topic.key = change.key
  segment : Text.afterLastDot change.key = change.kind.segment
  warning : change.severity = .warning ↔ change.key = "class.version.modified"
  info : change.severity = .info ↔ change.key = "package.class.added"
  /-- The template has a place for each argument and none beyond the last, and the
  message is the template with the places filled. -/
  told : ∃ template pieces, Topic.template? change.key = some template ∧
    Message.Consists template pieces ∧ change.arguments ≠ [] ∧
    (∀ number, .place number ∈ pieces ↔ number < change.arguments.length) ∧
    change.message = String.ofList (pieces.flatMap (Message.Piece.filled change.arguments))

namespace Topic

/-- The key of the topic goes with changes of the kind and the severity. -/
def Suits (topic : Topic) (kind : ChangeKind) (severity : Severity) : Prop :=
  topic ∈ all ∧ Text.afterLastDot topic.key = kind.segment ∧
    (severity = .warning ↔ topic.key = "class.version.modified") ∧
    (severity = .info ↔ topic.key = "package.class.added")

instance (topic : Topic) (kind : ChangeKind) (severity : Severity) :
    Decidable (topic.Suits kind severity) :=
  inferInstanceAs (Decidable (topic ∈ all ∧ Text.afterLastDot topic.key = kind.segment ∧
    (severity = .warning ↔ topic.key = "class.version.modified") ∧
    (severity = .info ↔ topic.key = "package.class.added")))

/-- No two topics have one key. -/
theorem template?_key : ∀ topic ∈ all, template? topic.key = some topic.template := by
  decide +kernel

theorem Suits.conforms {topic : Topic} {kind : ChangeKind} {severity : Severity}
    {arguments : List Argument} (suits : topic.Suits kind severity) (someArgument : arguments ≠ [])
    (takes : Message.Takes topic.template arguments.length) :
    Change.Conforms ⟨severity, kind, topic.key, arguments⟩ := by
  obtain ⟨listed, segment, warning, info⟩ := suits
  obtain ⟨pieces, consists, places⟩ := takes
  have known := template?_key topic listed
  refine ⟨⟨topic, listed, rfl⟩, segment, warning, info,
    topic.template, pieces, known, consists, someArgument, places, ?_⟩
  rw [Change.message, Message.render, known]
  exact consists.fill_eq arguments

end Topic

namespace Comparison

/-! ## What the topics take -/

theorem takes_textTopics : ∀ topic ∈ textTopics, Message.Takes topic.template 3 := by
  intro topic isTopic
  simp only [textTopics, List.mem_cons, List.not_mem_nil, or_false] at isTopic
  rcases isTopic with rfl | rfl | rfl | rfl
  all_goals exact Topic.takes_changed _ _ (Topic.takes_heading _ (by decide)) (by decide)

theorem takes_accessTopics : ∀ topic ∈ accessTopics, Message.Takes topic.template 5 := by
  intro topic isTopic
  simp only [accessTopics, List.mem_cons, List.not_mem_nil, or_false] at isTopic
  rcases isTopic with rfl | rfl | rfl | rfl | rfl
  all_goals exact Topic.takes_modifiers _ (Topic.takes_heading _ (by decide))

/-- The topics of the parts that packages have. -/
def packageParts : List PartTopics :=
  [Topic.packageAnnotations, Topic.packageClasses, Topic.annotationValues]

theorem takes_parts : ∀ topics ∈ classParts ++ packageParts,
    Message.Takes topics.removed.template 2 ∧ Message.Takes topics.added.template 2 := by
  intro topics isParts
  simp only [classParts, packageParts, List.cons_append, List.nil_append, List.mem_cons,
    List.not_mem_nil, or_false] at isParts
  rcases isParts with rfl | rfl | rfl | rfl | rfl | rfl | rfl | rfl | rfl | rfl | rfl | rfl | rfl |
    rfl | rfl
  all_goals exact Topic.takes_parts _ _ (Topic.takes_heading _ (by decide)) (by decide)

/-! ## What comparisons tell conforms -/

theorem Told.conforms {parts : List PartTopics} {change : Change} (told : Told parts change)
    (areParts : parts ⊆ classParts ++ packageParts) : change.Conforms := by
  -- The columns of the table are checked for all topics of a family at once.
  cases told with
  | text isTopic owner previous next =>
    have suits : ∀ topic ∈ textTopics, topic.Suits .modified .error := by decide +kernel
    exact (suits _ isTopic).conforms (List.cons_ne_nil _ _) (takes_textTopics _ isTopic)
  | access isTopic owner previous next =>
    have suits : ∀ topic ∈ accessTopics, topic.Suits .modified .error := by decide +kernel
    exact (suits _ isTopic).conforms (List.cons_ne_nil _ _) (takes_accessTopics _ isTopic)
  | version owner previous next =>
    have suits : Topic.classVersion.Suits .modified .warning := by decide +kernel
    exact suits.conforms (List.cons_ne_nil _ _)
      (Topic.takes_changed _ _ (Topic.takes_heading _ (by decide)) (by decide))
  | constant owner previous next =>
    have suits : Topic.fieldValue.Suits .modified .error := by decide +kernel
    exact suits.conforms (List.cons_ne_nil _ _)
      (Topic.takes_changed _ _ (Topic.takes_heading _ (by decide)) (by decide))
  | element owner key previous next =>
    have suits : Topic.annotationValue.Suits .modified .error := by decide +kernel
    exact suits.conforms (List.cons_ne_nil _ _) Topic.takes_annotationValue
  | removed isPart owner part =>
    have suits : ∀ topics ∈ classParts ++ packageParts, topics.removed.Suits .removed .error := by
      decide +kernel
    exact (suits _ (areParts isPart)).conforms (List.cons_ne_nil _ _)
      (takes_parts _ (areParts isPart)).1
  | added isPart owner part =>
    have suits : ∀ topics ∈ classParts ++ packageParts,
        topics.added.Suits .added topics.addedSeverity := by
      decide +kernel
    exact (suits _ (areParts isPart)).conforms (List.cons_ne_nil _ _)
      (takes_parts _ (areParts isPart)).2

/-- A comparison of packages tells about packages and their annotations only. -/
theorem allTold_ofPackage (previous next : Package) :
    AllTold packageParts (ofPackage previous next) := by
  apply AllTold.unlessSame
  apply AllTold.append
  · exact allTold_ofAnnotations (by decide) (by decide) _ _ _
  · exact allTold_ofEntities (by decide) _ (fun _ _ => allTold_nil) _ _

def AllConform (changes : List Change) : Prop :=
  ∀ change ∈ changes, change.Conforms

theorem AllTold.allConform {parts : List PartTopics} {changes : List Change}
    (told : AllTold parts changes) (areParts : parts ⊆ classParts ++ packageParts) :
    AllConform changes :=
  fun change member => (told change member).conforms areParts

/-- Every change of two classes or two packages, however deep inside them,
conforms to the table of topics. -/
theorem allConform_ofClass_ofPackage :
    (∀ previous next : Class, AllConform (ofClass previous next)) ∧
      ∀ previous next : Package, AllConform (ofPackage previous next) := by
  constructor
  · intro previous next
    exact (allTold_ofClass previous next).allConform (List.subset_append_left _ _)
  · intro previous next
    exact (allTold_ofPackage previous next).allConform (List.subset_append_right _ _)

end Comparison

end JvmDiff
