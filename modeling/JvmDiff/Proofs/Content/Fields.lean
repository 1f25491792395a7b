import JvmDiff.Proofs.Class.Blueprint
import JvmDiff.Proofs.Content.Constants
import JvmDiff.Proofs.Content.Members

/-!
# Fields read back from the content of a class

The constant of a field stands in the content of a class as it is, whatever it holds.  A string that
spells the end of a field and the beginning of what may follow one can therefore pass for further
fields.  Without such strings, the content of a class without annotations gives away its fields.
-/

namespace JvmDiff

open Text

/-! ## Texts that stand before a brace -/

/-- What may follow the brace at the end of a field, if the content goes on:
another field, or the end of the list of fields and a further list. -/
def continuations : List String :=
  [",F\x7bN=", "]#CT=[", "]#M=[", "]#IC=["]

/-- The text spells no end of a field together with something that may follow. -/
def Text.Contained (text : String) : Prop :=
  ∀ continuation ∈ continuations, ¬ '\x7d' :: continuation.toList <:+: text.toList

instance : DecidablePred Text.Contained := fun text =>
  inferInstanceAs
    (Decidable (∀ continuation ∈ continuations, ¬ '\x7d' :: continuation.toList <:+: text.toList))

/-- The rest of a content after the brace at the end of a field. -/
def FollowsField (rest : List Char) : Prop :=
  rest = [']', '\x7d'] ∨ ∃ continuation ∈ continuations, continuation.toList <+: rest

theorem FollowsField.two_le_length {rest : List Char} (follows : FollowsField rest) :
    2 ≤ rest.length := by
  rcases follows with rfl | ⟨continuation, member, isPrefix⟩
  · exact le_refl 2
  · have long : ∀ continuation ∈ continuations, 2 ≤ continuation.toList.length := by decide
    exact (long continuation member).trans isPrefix.length_le

/-- A prefix without the mark ends before it. -/
theorem prefix_of_prefix_append_cons {mark : Char} {start text rest : List Char}
    (free : mark ∉ start) (isPrefix : start <+: text ++ mark :: rest) : start <+: text := by
  obtain ⟨after, same⟩ := isPrefix
  rcases List.append_eq_append_iff.mp same with ⟨between, textIs, _⟩ | ⟨between, startIs, restIs⟩
  · exact ⟨between, textIs.symm⟩
  · cases between with
    | nil => rw [startIs, List.append_nil]
    | cons c between =>
        injection restIs with sameMark _
        rw [startIs, ← sameMark] at free
        exact absurd (by simp) free

/-- A contained text does not reach over the end of a shorter one. -/
theorem no_overrun {text overhang : List Char} {longer : String} {rest other : List Char}
    (contained : Contained longer) (longerIs : longer.toList = text ++ overhang)
    (follows : FollowsField rest) (otherFollows : FollowsField other)
    (same : '\x7d' :: rest = overhang ++ '\x7d' :: other) : overhang = [] := by
  cases overhang with
  | nil => rfl
  | cons c overhang =>
      injection same with brace sameRest
      have otherLength := otherFollows.two_le_length
      rcases follows with rfl | ⟨continuation, member, isPrefix⟩
      · have length := congrArg List.length sameRest
        simp at length
        omega
      · -- No continuation holds a brace, so it ends before the next one.
        have noBrace : '\x7d' ∉ continuation.toList := by
          have none : ∀ continuation ∈ continuations, '\x7d' ∉ continuation.toList := by decide
          exact none continuation member
        have within : continuation.toList <+: overhang := by
          rw [sameRest] at isPrefix
          exact prefix_of_prefix_append_cons noBrace isPrefix
        have inside : '\x7d' :: continuation.toList <:+: longer.toList := by
          rw [longerIs, ← brace]
          exact ((List.prefix_cons_inj _).mpr within).isInfix.trans (List.suffix_append _ _).isInfix
        exact absurd inside (contained continuation member)

theorem append_inj_of_contained {first second : String} {rest other : List Char}
    (firstContained : Contained first) (secondContained : Contained second)
    (follows : FollowsField rest) (otherFollows : FollowsField other)
    (same : first.toList ++ '\x7d' :: rest = second.toList ++ '\x7d' :: other) :
    first = second ∧ rest = other := by
  rcases List.append_eq_append_iff.mp same with
    ⟨overhang, secondIs, restIs⟩ | ⟨overhang, firstIs, restIs⟩
  · have nothing := no_overrun secondContained secondIs follows otherFollows restIs
    rw [nothing, List.append_nil] at secondIs
    rw [nothing, List.nil_append] at restIs
    injection restIs with _ sameRest
    exact ⟨(String.toList_inj.mp secondIs).symm, sameRest⟩
  · have nothing := no_overrun firstContained firstIs otherFollows follows restIs
    rw [nothing, List.append_nil] at firstIs
    rw [nothing, List.nil_append] at restIs
    injection restIs with _ sameRest
    exact ⟨String.toList_inj.mp firstIs, sameRest.symm⟩

/-! ## One field -/

/-- A string constant is contained. -/
def Constant.IsContained : Constant → Prop
  | .string value => Contained value
  | _ => True

/-- A field without annotations that has a plain name and type, and a constant
for its type. -/
structure Field.Readable (field : Field) : Prop where
  annotations : field.annotations = []
  name : IsPlain field.name
  type : IsPlain field.type
  suits : ∀ constant, field.constant = some constant → constant.Suits field.type
  contained : ∀ constant, field.constant = some constant → constant.IsContained

/-- What a content says of a constant. -/
def constantPart : Option Constant → List Char
  | none => []
  | some constant => "#V=".toList ++ constant.text.toList

theorem Field.Readable.toList_content {field : Field} (readable : field.Readable)
    (rest : List Char) :
    field.content.toList ++ rest =
      "F\x7bN=".toList ++ (field.name.toList ++ ("#T=".toList ++ (field.type.toList ++
        ("#D=".toList ++ ((toString field.access.raw).toList ++
          (constantPart field.constant ++ '\x7d' :: rest)))))) := by
  rw [content, readable.annotations]
  cases held : field.constant with
  | none => simp [contentPart, constantPart]
  | some constant => simp [contentPart, constantPart]

/-- The constant of a field of known type. -/
theorem constantPart_inj {type : String} {first second : Option Constant}
    (firstSuits : ∀ constant, first = some constant → constant.Suits type)
    (secondSuits : ∀ constant, second = some constant → constant.Suits type)
    (firstContained : ∀ constant, first = some constant → constant.IsContained)
    (secondContained : ∀ constant, second = some constant → constant.IsContained)
    {rest other : List Char} (follows : FollowsField rest) (otherFollows : FollowsField other)
    (same : constantPart first ++ '\x7d' :: rest = constantPart second ++ '\x7d' :: other) :
    first = second ∧ rest = other := by
  cases first with
  | none =>
      cases second with
      | none =>
          injection same with _ sameRest
          exact ⟨rfl, sameRest⟩
      | some _ => simp [constantPart] at same
  | some constant =>
      cases second with
      | none => simp [constantPart] at same
      | some otherConstant =>
          have suits := firstSuits constant rfl
          have otherSuits := secondSuits otherConstant rfl
          simp only [constantPart, List.append_assoc] at same
          have afterLabel := List.append_cancel_left same
          -- A string ends where what follows a field begins, any other constant at the brace.
          have sameText : constant.text = otherConstant.text ∧ rest = other := by
            by_cases isString : type = "java.lang.String"
            · subst isString
              obtain ⟨value, rfl⟩ := Constant.eq_string_of_suits suits
              obtain ⟨otherValue, rfl⟩ := Constant.eq_string_of_suits otherSuits
              exact append_inj_of_contained (firstContained _ rfl) (secondContained _ rfl) follows
                otherFollows afterLabel
            · obtain ⟨sameText, sameEnd⟩ := append_inj_of_plain
                (Constant.text_plain suits isString) (Constant.text_plain otherSuits isString)
                (atMark_end rest) (atMark_end other) afterLabel
              injection sameEnd with _ sameRest
              exact ⟨sameText, sameRest⟩
          rw [Constant.text_inj suits otherSuits sameText.1]
          exact ⟨rfl, sameText.2⟩

/-- A field is told from what follows it. -/
theorem Field.Readable.content_inj {first second : Field} (firstReadable : first.Readable)
    (secondReadable : second.Readable) {rest other : List Char} (follows : FollowsField rest)
    (otherFollows : FollowsField other)
    (same : first.content.toList ++ rest = second.content.toList ++ other) :
    first = second ∧ rest = other := by
  rw [firstReadable.toList_content, secondReadable.toList_content] at same
  have typeMark : ∀ after, AtMark ("#T=".toList ++ after) := fun _ => atMark_label _
  have accessMark : ∀ after, AtMark ("#D=".toList ++ after) := fun _ => atMark_label _
  have constantMark : ∀ constant after, AtMark (constantPart constant ++ '\x7d' :: after) := by
    intro constant after
    cases constant with
    | none => exact atMark_end after
    | some constant => exact atMark_label _
  obtain ⟨sameName, fromType⟩ := append_inj_of_plain firstReadable.name secondReadable.name
    (typeMark _) (typeMark _) (List.append_cancel_left same)
  obtain ⟨sameType, fromAccess⟩ := append_inj_of_plain firstReadable.type secondReadable.type
    (accessMark _) (accessMark _) (List.append_cancel_left fromType)
  obtain ⟨sameRaw, fromConstant⟩ := append_inj_of_plain (isPlain_natural first.access.raw)
    (isPlain_natural second.access.raw) (constantMark _ _) (constantMark _ _)
    (List.append_cancel_left fromAccess)
  have secondSuits := secondReadable.suits
  rw [← sameType] at secondSuits
  obtain ⟨sameConstant, sameRest⟩ := constantPart_inj firstReadable.suits secondSuits
    firstReadable.contained secondReadable.contained follows otherFollows fromConstant
  have sameAccess := Access.eq_of_toString_raw_eq sameRaw
  have sameAnnotations : first.annotations = second.annotations :=
    firstReadable.annotations.trans secondReadable.annotations.symm
  refine ⟨?_, sameRest⟩
  cases first
  cases second
  simp_all

/-! ## The list of fields -/

/-- A content from the end of one field on: further fields, and the rest. -/
def following (rest : List Char) : List Field → List Char
  | [] => ']' :: rest
  | field :: fields => ',' :: (field.content.toList ++ following rest fields)

theorem following_eq_behind (rest : List Char) (fields : List Field) :
    following rest fields =
      behind [','] (fun field => field.content.toList) (']' :: rest) fields := by
  induction fields with
  | nil => rfl
  | cons field fields inductionHypothesis =>
    rw [following, inductionHypothesis, behind, List.singleton_append]

theorem toList_contentList_cons (field : Field) (fields : List Field) (rest : List Char) :
    (Entity.contentList (field :: fields)).toList ++ rest =
      '[' :: (field.content.toList ++ following rest fields) := by
  rw [toList_contentList, intercalate_behind, following_eq_behind]
  rfl

/-- The end of a content, or one of the labelled lists. -/
def Proceeds (labels : List String) (rest : List Char) : Prop :=
  rest = ['\x7d'] ∨ ∃ label ∈ labels, ("#" ++ label ++ "=[").toList <+: rest

theorem proceeds_contentPart {α : Type} [Entity α] (label : String) (parts : List α)
    {labels : List String} {rest : List Char} (proceeds : Proceeds labels rest) :
    Proceeds (label :: labels)
      ((contentPart label Entity.contentList parts).toList ++ rest) := by
  cases parts with
  | nil =>
      rcases proceeds with ended | ⟨other, member, isPrefix⟩
      · exact Or.inl ended
      · exact Or.inr ⟨other, List.mem_cons_of_mem label member, isPrefix⟩
  | cons part parts =>
      refine Or.inr ⟨label, List.mem_cons_self, ?_⟩
      simp only [contentPart, Entity.contentList, bracketed, String.toList_append,
        List.append_assoc, List.prefix_append_right_inj]
      exact List.prefix_append _ _

/-- A content proceeds with nothing but what it may proceed with. -/
theorem Proceeds.not_prefix {labels : List String} {rest foreign : List Char}
    (proceeds : Proceeds labels rest) (notEnd : ¬ foreign <+: ['\x7d'])
    (unlike : ∀ label ∈ labels, ¬ foreign <+: ("#" ++ label ++ "=[").toList ∧
      ¬ ("#" ++ label ++ "=[").toList <+: foreign) : ¬ foreign <+: rest := by
  intro isPrefix
  rcases proceeds with rfl | ⟨label, member, isOther⟩
  · exact notEnd isPrefix
  · rcases List.prefix_or_prefix_of_prefix isPrefix isOther with inside | around
    · exact (unlike label member).1 inside
    · exact (unlike label member).2 around

/-- The labels of the lists that may follow the fields of a class. -/
def laterLabels : List String :=
  ["CT", "M", "IC"]

theorem followsField_following {rest : List Char} (proceeds : Proceeds laterLabels rest)
    (fields : List Field) : FollowsField (following rest fields) := by
  cases fields with
  | nil =>
      rcases proceeds with rfl | ⟨label, member, isPrefix⟩
      · exact Or.inl rfl
      · have among : ∀ label ∈ laterLabels, "]" ++ ("#" ++ label ++ "=[") ∈ continuations := by
          decide
        refine Or.inr ⟨_, among label member, ?_⟩
        rw [String.toList_append]
        exact (List.prefix_append_right_inj [']']).mpr isPrefix
  | cons field fields =>
      refine Or.inr ⟨",F\x7bN=", by decide, ?_⟩
      simp only [following, Field.content, String.toList_append, List.append_assoc]
      exact (List.prefix_cons_inj ',').mpr (List.prefix_append _ _)

/-- A list of fields is told from what follows it. -/
theorem following_inj {first second : List Field} {rest other : List Char}
    (firstReadable : ∀ field ∈ first, field.Readable)
    (secondReadable : ∀ field ∈ second, field.Readable)
    (proceeds : Proceeds laterLabels rest) (otherProceeds : Proceeds laterLabels other)
    (same : following rest first = following other second) : first = second ∧ rest = other := by
  have restFollows := followsField_following proceeds
  have otherFollows := followsField_following otherProceeds
  simp only [following_eq_behind] at same restFollows otherFollows
  obtain ⟨sameFields, sameEnd⟩ := behind_inj FollowsField
    (fun field member next nextMember {_ _} =>
      (firstReadable field member).content_inj (secondReadable next nextMember))
    restFollows otherFollows (by simp) (by simp) same
  exact ⟨sameFields, (List.cons.inj sameEnd).2⟩

namespace Class

/-! ## The parts of a class before its fields -/

/-- The content of a class after its fields. -/
def afterFields (c : Class) : List Char :=
  (contentPart "CT" Entity.contentList c.constructors).toList ++
    ((contentPart "M" Entity.contentList c.methods).toList ++
      ((contentPart "IC" Entity.contentList c.innerClasses).toList ++ ['\x7d']))

/-- The content of a class from its fields on. -/
def fromFields (c : Class) : List Char :=
  (contentPart "F" Entity.contentList c.fields).toList ++ c.afterFields

/-- The content of a class from its interfaces on. -/
def fromInterfaces (c : Class) : List Char :=
  (contentPart "I" bracketed c.interfaces).toList ++ c.fromFields

theorem proceeds_afterFields (c : Class) : Proceeds laterLabels c.afterFields :=
  proceeds_contentPart "CT" c.constructors
    (proceeds_contentPart "M" c.methods
      (proceeds_contentPart "IC" c.innerClasses (Or.inl rfl)))

theorem atMark_fromFields (c : Class) : AtMark c.fromFields := by
  apply atMark_contentPart
  apply atMark_contentPart
  apply atMark_contentPart
  apply atMark_contentPart
  exact atMark_end []

theorem proceeds_fromFields (c : Class) : Proceeds ("F" :: laterLabels) c.fromFields :=
  proceeds_contentPart "F" c.fields c.proceeds_afterFields

theorem fields_eq_of_fromFields_eq {first second : Class}
    (firstReadable : ∀ field ∈ first.fields, field.Readable)
    (secondReadable : ∀ field ∈ second.fields, field.Readable)
    (same : first.fromFields = second.fromFields) : first.fields = second.fields := by
  have noFields : ∀ c : Class, ¬ "#F=[".toList <+: c.afterFields :=
    fun c => c.proceeds_afterFields.not_prefix (by decide) (by decide)
  have shown : ∀ {c : Class} {field fields}, c.fields = field :: fields →
      c.fromFields =
        "#F=[".toList ++ (field.content.toList ++ following c.afterFields fields) := by
    intro c field fields held
    rw [fromFields, held]
    simp only [contentPart, String.toList_append, List.append_assoc, toList_contentList_cons]
    rfl
  cases firstHeld : first.fields with
  | nil =>
      cases secondHeld : second.fields with
      | nil => rfl
      | cons field fields =>
          rw [shown secondHeld, fromFields, firstHeld] at same
          exact absurd ⟨_, same.symm⟩ (noFields first)
  | cons field fields =>
      cases secondHeld : second.fields with
      | nil =>
          rw [shown firstHeld, fromFields, secondHeld] at same
          exact absurd ⟨_, same⟩ (noFields second)
      | cons otherField otherFields =>
          rw [shown firstHeld, shown secondHeld] at same
          rw [firstHeld] at firstReadable
          rw [secondHeld] at secondReadable
          have afterLabel := congrArg (List.cons ',') (List.append_cancel_left same)
          exact (following_inj firstReadable secondReadable first.proceeds_afterFields
            second.proceeds_afterFields afterLabel).1

theorem fromFields_eq_of_fromInterfaces_eq {first second : Class}
    (firstPlain : ∀ interface ∈ first.interfaces, IsPlain interface)
    (secondPlain : ∀ interface ∈ second.interfaces, IsPlain interface)
    (same : first.fromInterfaces = second.fromInterfaces) :
    first.fromFields = second.fromFields := by
  have noInterfaces : ∀ c : Class, ¬ "#I=".toList <+: c.fromFields :=
    fun c => c.proceeds_fromFields.not_prefix (by decide) (by decide)
  have shown : ∀ {c : Class} {interface interfaces}, c.interfaces = interface :: interfaces →
      c.fromInterfaces = "#I=".toList ++ ((bracketed c.interfaces).toList ++ c.fromFields) := by
    intro c interface interfaces held
    rw [fromInterfaces, held]
    simp only [contentPart, String.toList_append, List.append_assoc]
    rfl
  cases firstHeld : first.interfaces with
  | nil =>
      cases secondHeld : second.interfaces with
      | nil =>
          rw [fromInterfaces, fromInterfaces, firstHeld, secondHeld] at same
          exact same
      | cons interface interfaces =>
          rw [shown secondHeld, fromInterfaces, firstHeld] at same
          exact absurd ⟨_, same.symm⟩ (noInterfaces first)
  | cons interface interfaces =>
      cases secondHeld : second.interfaces with
      | nil =>
          rw [shown firstHeld, fromInterfaces, secondHeld] at same
          exact absurd ⟨_, same⟩ (noInterfaces second)
      | cons otherInterface otherInterfaces =>
          rw [shown firstHeld, shown secondHeld] at same
          exact (append_inj_of_plain (isPlain_bracketed firstPlain)
            (isPlain_bracketed secondPlain) first.atMark_fromFields second.atMark_fromFields
            (List.append_cancel_left same)).2

/-- A class without annotations that has plain names and types, and fields
that can be read back. -/
structure Readable (c : Class) : Prop where
  annotations : c.annotations = []
  name : IsPlain c.name
  typeParameters : IsPlain c.typeParameters
  superclass : IsPlain c.superclass
  interfaces : ∀ interface ∈ c.interfaces, IsPlain interface
  fields : ∀ field ∈ c.fields, field.Readable

theorem Readable.toList_content {c : Class} (readable : c.Readable) :
    c.content.toList =
      "C\x7bN=".toList ++ (c.name.toList ++ ("#T=".toList ++ (c.kind.contentName.toList ++
        ("#V=".toList ++ ((toString c.version.toNat).toList ++
          ((contentText "P" c.typeParameters).toList ++ ("#S=".toList ++
            (c.superclass.toList ++ ("#D=".toList ++
              ((toString c.access.raw).toList ++ c.fromInterfaces)))))))))) := by
  have ended : "\x7d".toList = ['\x7d'] := by decide
  unfold content
  simp only [readable.annotations, contentPart, String.toList_append, String.toList_empty,
    List.nil_append, List.append_assoc, fromInterfaces, fromFields, afterFields, ended]

theorem isPlain_contentName : ∀ kind : ClassKind, IsPlain kind.contentName
  | .ordinary => by decide
  | .interface => by decide
  | .enumeration => by decide
  | .annotationType => by decide

theorem Readable.fields_inj {first second : Class} (firstReadable : first.Readable)
    (secondReadable : second.Readable) (same : first.content = second.content) :
    first.fields = second.fields := by
  have spelled := congrArg String.toList same
  rw [firstReadable.toList_content, secondReadable.toList_content] at spelled
  have interfacesMark : ∀ c : Class, AtMark c.fromInterfaces :=
    fun c => atMark_contentPart "I" bracketed c.interfaces c.atMark_fromFields
  -- From the left, every part is plain and ends at the next label.
  have fromKind := (append_inj_of_plain firstReadable.name secondReadable.name
    (atMark_text (by decide) _) (atMark_text (by decide) _) (List.append_cancel_left spelled)).2
  have fromVersion := (append_inj_of_plain (isPlain_contentName first.kind)
    (isPlain_contentName second.kind) (atMark_text (by decide) _) (atMark_text (by decide) _)
    (List.append_cancel_left fromKind)).2
  have fromParameters := (append_inj_of_plain (isPlain_natural first.version.toNat)
    (isPlain_natural second.version.toNat)
    (atMark_contentText "P" first.typeParameters (atMark_text (by decide) _))
    (atMark_contentText "P" second.typeParameters (atMark_text (by decide) _))
    (List.append_cancel_left fromVersion)).2
  have fromSuperclass := List.append_cancel_left (contentText_inj firstReadable.typeParameters
    secondReadable.typeParameters (atMark_text (by decide) _) (atMark_text (by decide) _)
    (by simp) (by simp) fromParameters).2
  have fromAccess := (append_inj_of_plain firstReadable.superclass secondReadable.superclass
    (atMark_text (by decide) _) (atMark_text (by decide) _) fromSuperclass).2
  have sameInterfaces := (append_inj_of_plain (isPlain_natural first.access.raw)
    (isPlain_natural second.access.raw) (interfacesMark first) (interfacesMark second)
    (List.append_cancel_left fromAccess)).2
  have sameFields := fromFields_eq_of_fromInterfaces_eq firstReadable.interfaces
    secondReadable.interfaces sameInterfaces
  exact fields_eq_of_fromFields_eq firstReadable.fields secondReadable.fields sameFields

end Class

end JvmDiff
