import JvmDiff.Proofs.Assembly.Handles
import JvmDiff.Proofs.Entity.Order
import JvmDiff.Proofs.Snapshot.Sources

/-!
# The names in an assembled class

A part of a class is taken in only under a name that is not blank.  An annotation is asked for its
descriptor, of which the name is the part between the marks, and the annotations inside a value are
not asked at all.  So every name of an annotation, at any depth, can be traced to an accepted event,
and a blank one to an event of a certain form.
-/

namespace JvmDiff

/-! ## Blank names -/

namespace Text

theorem isBlank_append (first second : String) :
    isBlank (first ++ second) = (isBlank first && isBlank second) := by
  rw [isBlank, String.toList_append, List.all_append]
  rfl

/-- Neither slashes nor dots are white space. -/
theorem isBlank_dotted (name : String) : isBlank (dotted name) = isBlank name := by
  have sameChar : (isBlankChar ∘ fun c => if c = '/' then '.' else c) = isBlankChar := by
    funext c
    by_cases slash : c = '/'
    · subst slash
      decide
    · exact congrArg isBlankChar (if_neg slash)
  rw [isBlank, dotted, String.toList_ofList, List.all_map, sameChar]
  rfl

theorem isDotted_of_isBlank {name : String} (blank : isBlank name = true) : IsDotted name := by
  intro member
  exact absurd (List.all_eq_true.mp blank '/' member) (by decide)

/-- A text is what stands between its marks, with the marks around it. -/
theorem eq_of_unwrapped {first last : Char} {text inner : String}
    (between : unwrapped first last text = some inner) :
    text = String.singleton first ++ inner ++ String.singleton last := by
  rw [unwrapped] at between
  split at between
  case h_1 => cases between
  case h_2 c rest chars =>
    split at between
    case isFalse => cases between
    case isTrue marked =>
      cases between
      obtain ⟨rfl, ends⟩ := marked
      apply String.toList_inj.mp
      rw [chars, String.toList_append, String.toList_append, String.toList_singleton,
        String.toList_singleton, String.toList_ofList, List.append_assoc,
        List.dropLast_append_getLast? last ends]
      rfl

end Text

/-- Only a descriptor with nothing but white space between its marks gives a blank
name without being blank. -/
theorem AnnotationUse.eq_of_isBlank_typeName {descriptor : String}
    (named : Text.isBlank descriptor = false)
    (blank : Text.isBlank (typeName descriptor) = true) :
    descriptor = "L" ++ typeName descriptor ++ ";" := by
  rw [typeName, Text.isBlank_dotted] at blank
  cases between : Text.unwrapped 'L' ';' descriptor with
  | none =>
    rw [between, Option.getD_none, named] at blank
    cases blank
  | some inner =>
    rw [between, Option.getD_some] at blank
    rw [typeName, between, Option.getD_some, Text.dotted_eq_self (Text.isDotted_of_isBlank blank)]
    exact Text.eq_of_unwrapped between

/-- Parentheses keep an identity from being blank. -/
theorem Member.isBlank_identity (name arguments : String) :
    Text.isBlank (identity name arguments) = false := by
  have parenthesis : Text.isBlank "(" = false := by decide
  rw [identity, Text.isBlank_append, Text.isBlank_append, Text.isBlank_append, parenthesis,
    Bool.and_false, Bool.false_and, Bool.false_and]

/-! ## The names of a class and its parts -/

namespace ElementValue

mutual

/-- The names of the annotations in a value, at any depth. -/
def annotationNames : ElementValue → List String
  | .leaf _ => []
  | .array items => itemNames items
  | .nested name elements => name :: elementNames elements

/-- The names of the annotations in the items of an array. -/
def itemNames : List ElementValue → List String
  | [] => []
  | item :: items => item.annotationNames ++ itemNames items

/-- The names of the annotations in the elements of an annotation. -/
def elementNames : List (String × ElementValue) → List String
  | [] => []
  | (_, value) :: elements => value.annotationNames ++ elementNames elements

end

theorem mem_elementNames {name : String} {elements : List (String × ElementValue)} :
    name ∈ elementNames elements ↔ ∃ element ∈ elements, name ∈ element.2.annotationNames := by
  induction elements with
  | nil => simp [elementNames]
  | cons element elements inductionHypothesis =>
    rw [elementNames, List.mem_append, inductionHypothesis, List.exists_mem_cons_iff]

end ElementValue

namespace AnnotationUse

/-- The name of an annotation and those of the annotations in its elements. -/
def names (usage : AnnotationUse) : List String :=
  usage.name :: ElementValue.elementNames usage.elements

theorem mem_names_insert {usage : AnnotationUse} {key name : String} {value : ElementValue}
    (member : name ∈ (usage.insert key value).names) :
    name ∈ usage.names ∨ name ∈ value.annotationNames := by
  rcases List.mem_cons.mp member with rfl | inside
  · exact Or.inl List.mem_cons_self
  · obtain ⟨element, elementMember, inElement⟩ := ElementValue.mem_elementNames.mp inside
    rcases mem_insertElement elementMember with rfl | old
    · exact Or.inr inElement
    · exact Or.inl (List.mem_cons_of_mem _ (ElementValue.mem_elementNames.mpr ⟨_, old, inElement⟩))

end AnnotationUse

namespace Class

/-- The names of a class, its members and its inner classes. -/
def partNames (c : Class) : List String :=
  c.name :: (c.fields.map Field.name ++ c.constructors.map Constructor.identity ++
    c.methods.map Method.simpleName ++ c.methods.map Method.identity ++
    c.innerClasses.map InnerClass.name)

/-- The annotations of a class and of its members. -/
def annotationUses (c : Class) : List AnnotationUse :=
  c.annotations ++ c.fields.flatMap Field.annotations ++
    c.constructors.flatMap Constructor.annotations ++ c.methods.flatMap Method.annotations

/-- The names of all annotations in a class, those inside others among them. -/
def annotationNames (c : Class) : List String :=
  c.annotationUses.flatMap AnnotationUse.names

/-- No name of the class or of its parts is blank, and the names of its annotations
are among given ones. -/
structure NamesFrom (given : String → Prop) (c : Class) : Prop where
  parts : ∀ name ∈ c.partNames, Text.isBlank name = false
  annotations : ∀ name ∈ c.annotationNames, given name

end Class

namespace Assembly

/-! ## What an event brings in -/

/-- The exchange takes in an annotation with the name, or a value with such an
annotation inside. -/
inductive Exchange.Brings (name : String) : Exchange → Prop where
  | annotationUse {target : Target} {descriptor : String} {handle : Nat} :
      Text.isBlank descriptor = false → AnnotationUse.typeName descriptor = name →
      Brings name ⟨.within (.annotationUse target descriptor), .ok (.annotationUse handle)⟩
  | annotationValue {handle : Nat} {key : String} {value : ElementValue} :
      name ∈ value.annotationNames →
      Brings name ⟨.within (.annotationValue handle key value), .ok .done⟩

theorem event_mem_of_mem_transcript {assembly : Assembly} {events : List Event}
    {exchange : Exchange} (member : exchange ∈ assembly.transcript events) :
    exchange.event ∈ events := by
  induction events generalizing assembly with
  | nil => cases member
  | cons event events inductionHypothesis =>
    rcases List.mem_cons.mp member with rfl | later
    · exact List.mem_cons_self
    · exact List.mem_cons_of_mem _ (inductionHypothesis later)

/-- Among the exchanges an annotation is accepted whose descriptor has the name
between its marks, or a value with an annotation of the name inside. -/
def LetIn (exchanges : List Exchange) (name : String) : Prop :=
  (∃ target handle,
    ⟨.within (.annotationUse target ("L" ++ name ++ ";")), .ok (.annotationUse handle)⟩ ∈
      exchanges) ∨
    ∃ handle key value, ⟨.within (.annotationValue handle key value), .ok .done⟩ ∈ exchanges ∧
      name ∈ value.annotationNames

theorem letIn_of_brings {exchanges : List Exchange} {exchange : Exchange} {name : String}
    (member : exchange ∈ exchanges) (brings : exchange.Brings name)
    (blank : Text.isBlank name = true) : LetIn exchanges name := by
  cases brings with
  | annotationUse named shown =>
    subst shown
    rw [AnnotationUse.eq_of_isBlank_typeName named blank] at member
    exact Or.inl ⟨_, _, member⟩
  | annotationValue inside => exact Or.inr ⟨_, _, _, member, inside⟩

theorem requireName_of_isBlank (part : Part) {name : String} (blank : Text.isBlank name = true) :
    requireName part name = .error (.missingName part) :=
  if_pos blank

namespace OpenClass

variable {c next : OpenClass} {event : ClassEvent} {answer : Answer} {given : String → Prop}

theorem isNamed_of_accept (accepts : c.accept event = .ok (answer, next)) :
    event.isNamed = true := by
  by_contra unnamed
  cases event with
  | field header =>
    have blank : Text.isBlank header.name = true := by simpa [ClassEvent.isNamed] using unnamed
    rw [OpenClass.accept, declareField, requireName_of_isBlank .field blank] at accepts
    cases accepts
  | method header =>
    have blank : Text.isBlank header.name = true := by simpa [ClassEvent.isNamed] using unnamed
    rw [OpenClass.accept, declareMethod, requireName_of_isBlank .method blank] at accepts
    cases accepts
  | annotationUse target descriptor =>
    have blank : Text.isBlank descriptor = true := by simpa [ClassEvent.isNamed] using unnamed
    rw [OpenClass.accept, requireName_of_isBlank .annotationUse blank] at accepts
    cases accepts
  | annotationValue handle key value => exact unnamed rfl
  | innerClass name access =>
    have blank : Text.isBlank name = true := by simpa [ClassEvent.isNamed] using unnamed
    rw [OpenClass.accept, requireName_of_isBlank .innerClass blank] at accepts
    cases accepts

/-- The class and its parts have names that are not blank, and the names of its
annotations are among given ones. -/
structure NamesFrom (given : String → Prop) (c : OpenClass) : Prop where
  head : Text.isBlank c.head.name = false
  fields : ∀ field ∈ c.fields, Text.isBlank field.name = false
  members : ∀ member ∈ c.members, Text.isBlank member.name = false
  innerClasses : ∀ entry ∈ c.head.innerClasses, Text.isBlank entry.name = false
  annotations : ∀ entry ∈ c.annotations, ∀ name ∈ entry.2.names, given name

namespace NamesFrom

theorem of_openClass {header : ClassHeader} (opened : openClass header = .ok c) :
    c.NamesFrom given := by
  have reflects := Reflects.of_openClass opened
  have named : Text.isBlank header.name = false := by
    by_contra blank
    rw [openClass, requireName_of_isBlank .wholeClass (by simpa using blank)] at opened
    cases opened
  constructor
  case head => rw [reflects.head]; exact named
  case fields => rw [reflects.fields]; simp [accepted]
  case members => rw [reflects.members]; simp [accepted]
  case innerClasses => rw [reflects.head]; simp [accepted, ClassHeader.head]
  case annotations => rw [reflects.annotations]; simp [accepted]

theorem setElement (names : c.NamesFrom given) (handle : Nat) (key : String)
    {value : ElementValue} (brought : ∀ name ∈ value.annotationNames, given name) :
    (c.setElement handle key value).NamesFrom given := by
  refine { names with annotations := fun entry member name inEntry => ?_ }
  obtain ⟨position, inside, rfl⟩ := List.getElem_of_mem member
  have within : position < c.annotations.length := by
    simpa [OpenClass.setElement] using inside
  have old := names.annotations _ (List.getElem_mem within)
  simp only [OpenClass.setElement, List.getElem_modify] at inEntry
  split at inEntry
  case isTrue =>
    rcases AnnotationUse.mem_names_insert inEntry with earlier | new
    · exact old name earlier
    · exact brought name new
  case isFalse => exact old name inEntry

/-- One accepted event. -/
theorem accept (names : c.NamesFrom given) (accepts : c.accept event = .ok (answer, next))
    (brought : ∀ name, Exchange.Brings name ⟨.within event, .ok answer⟩ → given name) :
    next.NamesFrom given := by
  have isNamed := isNamed_of_accept accepts
  cases event with
  | field header =>
    rcases accept_field accepts with ⟨_, _, rfl⟩ | ⟨type, _, _, rfl⟩
    · exact names
    · have named : Text.isBlank header.name = false := by simpa [ClassEvent.isNamed] using isNamed
      exact { names with
        fields := List.forall_mem_append.mpr ⟨names.fields, List.forall_mem_singleton.mpr named⟩ }
  | method header =>
    rcases accept_method accepts with ⟨_, _, rfl⟩ | ⟨types, _, _, rfl⟩
    · exact names
    · have named : Text.isBlank (header.declared c.head.access types).name = false := by
        rw [MethodHeader.name_declared]
        simpa [ClassEvent.isNamed] using isNamed
      exact { names with
        members := List.forall_mem_append.mpr
          ⟨names.members, List.forall_mem_singleton.mpr named⟩ }
  | annotationUse target descriptor =>
    obtain ⟨_, rfl, rfl⟩ := accept_annotationUse accepts
    have named : Text.isBlank descriptor = false := by simpa [ClassEvent.isNamed] using isNamed
    refine { names with
      annotations := List.forall_mem_append.mpr
        ⟨names.annotations, List.forall_mem_singleton.mpr fun name member => ?_⟩ }
    obtain rfl := List.mem_singleton.mp member
    exact brought _ (.annotationUse named rfl)
  | annotationValue handle key value =>
    obtain ⟨_, rfl, rfl⟩ := accept_annotationValue accepts
    exact names.setElement handle key fun name inside => brought name (.annotationValue inside)
  | innerClass name access =>
    obtain ⟨rfl, ⟨_, rfl⟩ | ⟨_, rfl⟩⟩ := accept_innerClass accepts
    · exact names
    · have named : Text.isBlank (InnerClass.ofName name access).name = false := by
        rw [InnerClass.ofName, Text.isBlank_dotted]
        simpa [ClassEvent.isNamed] using isNamed
      exact { names with
        innerClasses := List.forall_mem_append.mpr
          ⟨names.innerClasses, List.forall_mem_singleton.mpr named⟩ }

end NamesFrom

/-! ## The end of a class -/

theorem exists_of_mem_fields_close {field : Field} (member : field ∈ c.close.fields) :
    ∃ declared ∈ c.fields, ∃ handle, field =
      Field.Declared.toField { declared with annotations := c.annotationsOf (.field handle) } := by
  have inMap : field ∈ (c.fields.mapIdx fun handle declared =>
      ({ declared with annotations := c.annotationsOf (.field handle) } : Field.Declared)).map
        Field.Declared.toField := by
    rw [close] at member
    simp only [Class.Declared.toClass] at member
    split at member
    case isTrue => exact member
    case isFalse => exact Entity.mem_sorted.mp member
  obtain ⟨annotated, annotatedMember, rfl⟩ := List.mem_map.mp inMap
  obtain ⟨handle, inside, rfl⟩ := List.mem_mapIdx.mp annotatedMember
  exact ⟨_, List.getElem_mem inside, handle, rfl⟩

theorem exists_of_mem_annotatedMembers {annotated : Member.Declared}
    (member : annotated ∈ c.annotatedMembers) :
    ∃ declared ∈ c.members, ∃ handle,
      annotated = { declared with annotations := c.annotationsOf (.member handle) } := by
  obtain ⟨handle, inside, rfl⟩ := List.mem_mapIdx.mp member
  exact ⟨_, List.getElem_mem inside, handle, rfl⟩

theorem exists_of_mem_constructors_close {constructor : Constructor}
    (member : constructor ∈ c.close.constructors) :
    ∃ annotated ∈ c.annotatedMembers, constructor = annotated.toConstructor := by
  rw [close, List.partition_eq_filter_filter] at member
  obtain ⟨annotated, isConstructor, rfl⟩ := List.mem_map.mp (Entity.mem_sorted.mp member)
  exact ⟨annotated, List.mem_of_mem_filter isConstructor, rfl⟩

theorem exists_of_mem_methods_close {method : Method} (member : method ∈ c.close.methods) :
    ∃ annotated ∈ c.annotatedMembers, method = annotated.toMethod := by
  rw [close, List.partition_eq_filter_filter] at member
  obtain ⟨annotated, isMethod, rfl⟩ := List.mem_map.mp (Entity.mem_sorted.mp member)
  exact ⟨annotated, List.mem_of_mem_filter isMethod, rfl⟩

namespace NamesFrom

theorem sorted_annotationsOf (names : c.NamesFrom given) (target : Target) :
    ∀ usage ∈ Entity.sorted (c.annotationsOf target), ∀ name ∈ usage.names, given name := by
  intro usage member
  obtain ⟨entry, attached, rfl⟩ := List.mem_map.mp (Entity.mem_sorted.mp member)
  exact names.annotations entry (List.mem_of_mem_filter attached)

theorem annotatedMembers (names : c.NamesFrom given) :
    ∀ annotated ∈ c.annotatedMembers, Text.isBlank annotated.name = false ∧
      ∀ usage ∈ Entity.sorted annotated.annotations, ∀ name ∈ usage.names, given name := by
  intro annotated member
  obtain ⟨declared, declaredMember, handle, rfl⟩ := exists_of_mem_annotatedMembers member
  exact ⟨names.members declared declaredMember, names.sorted_annotationsOf _⟩

theorem close (names : c.NamesFrom given) : c.close.NamesFrom given := by
  constructor
  case parts =>
    simp only [Class.partNames, List.forall_mem_cons, List.forall_mem_append, List.forall_mem_map]
    refine ⟨?className, ⟨⟨⟨?fields, ?constructors⟩, ?simpleNames⟩, ?identities⟩, ?innerClasses⟩
    case className => exact (Text.isBlank_dotted _).trans names.head
    case fields =>
      intro field member
      obtain ⟨declared, declaredMember, _, rfl⟩ := exists_of_mem_fields_close member
      exact names.fields declared declaredMember
    case constructors =>
      intro constructor member
      obtain ⟨annotated, _, rfl⟩ := exists_of_mem_constructors_close member
      exact Member.isBlank_identity _ _
    case simpleNames =>
      intro method member
      obtain ⟨annotated, isMember, rfl⟩ := exists_of_mem_methods_close member
      exact (names.annotatedMembers annotated isMember).1
    case identities =>
      intro method member
      obtain ⟨annotated, _, rfl⟩ := exists_of_mem_methods_close member
      exact Member.isBlank_identity _ _
    case innerClasses =>
      exact fun entry member => names.innerClasses entry (Entity.mem_sorted.mp member)
  case annotations =>
    simp only [Class.annotationNames, Class.annotationUses, List.forall_mem_flatMap,
      List.forall_mem_append]
    refine ⟨⟨⟨?wholeClass, ?fields⟩, ?constructors⟩, ?methods⟩
    case wholeClass => exact names.sorted_annotationsOf .wholeClass
    case fields =>
      intro field member
      obtain ⟨_, _, handle, rfl⟩ := exists_of_mem_fields_close member
      exact names.sorted_annotationsOf (.field handle)
    case constructors =>
      intro constructor member
      obtain ⟨annotated, isMember, rfl⟩ := exists_of_mem_constructors_close member
      exact (names.annotatedMembers annotated isMember).2
    case methods =>
      intro method member
      obtain ⟨annotated, isMember, rfl⟩ := exists_of_mem_methods_close member
      exact (names.annotatedMembers annotated isMember).2

end NamesFrom

end OpenClass

/-! ## Runs -/

/-- What `OpenClass.NamesFrom` says, of all open classes. -/
def NamesFrom (given : String → Prop) (assembly : Assembly) : Prop :=
  ∀ c ∈ assembly.openClasses, c.NamesFrom given

namespace NamesFrom

variable {given : String → Prop} {assembly : Assembly} {result : Class}

theorem step (names : assembly.NamesFrom given) {event : Event}
    (brought : ∀ name, Exchange.Brings name ⟨event, (assembly.step event).1⟩ → given name) :
    (assembly.step event).2.NamesFrom given := by
  obtain ⟨openClasses⟩ := assembly
  cases event with
  | beginClass header =>
    simp only [Assembly.step]
    cases opened : openClass header with
    | error error => exact names
    | ok c => exact List.forall_mem_cons.mpr ⟨.of_openClass opened, names⟩
  | within event =>
    cases openClasses with
    | nil => exact names
    | cons c outer =>
      simp only [Assembly.step] at brought ⊢
      cases accepts : c.accept event with
      | error error => exact names
      | ok accepted =>
        rw [accepts] at brought
        obtain ⟨innermost, around⟩ := List.forall_mem_cons.mp names
        exact List.forall_mem_cons.mpr ⟨innermost.accept accepts brought, around⟩
  | endClass =>
    cases openClasses with
    | nil => exact names
    | cons c outer => exact (List.forall_mem_cons.mp names).2

theorem ended (names : assembly.NamesFrom given)
    (ends : (assembly.step .endClass).1 = .ok (.ended result)) : result.NamesFrom given := by
  obtain ⟨_ | ⟨c, outer⟩⟩ := assembly
  · cases ends
  · cases ends
    exact (List.forall_mem_cons.mp names).1.close

theorem run (names : assembly.NamesFrom given) {events : List Event}
    (brought : ∀ exchange ∈ assembly.transcript events, ∀ name, exchange.Brings name → given name)
    (ends : ⟨.endClass, .ok (.ended result)⟩ ∈ assembly.transcript events) :
    result.NamesFrom given := by
  -- On the events; the classes that are open after the first are those the rest starts with.
  induction events generalizing assembly with
  | nil => cases ends
  | cons event events inductionHypothesis =>
    obtain ⟨first, later⟩ := List.forall_mem_cons.mp brought
    rcases List.mem_cons.mp ends with now | after
    · obtain ⟨rfl, response⟩ := Exchange.mk.inj now
      exact names.ended response.symm
    · exact inductionHypothesis (names.step first) later after

end NamesFrom

/-- The classes that a run from the start builds have no blank names but those of
annotations that its events let in. -/
theorem namesFrom_letIn {events : List Event} {result : Class}
    (ends : ⟨.endClass, .ok (.ended result)⟩ ∈ ({} : Assembly).transcript events) :
    result.NamesFrom fun name =>
      Text.isBlank name = true → LetIn (({} : Assembly).transcript events) name := by
  have empty : NamesFrom (fun name =>
      Text.isBlank name = true → LetIn (({} : Assembly).transcript events) name) {} :=
    fun c member => absurd member List.not_mem_nil
  exact empty.run (fun exchange member name brings => letIn_of_brings member brings) ends

end Assembly

end JvmDiff
