import JvmDiff.Comparison.Classes
import JvmDiff.Proofs.Content.Fields

/-!
# Forged fields

A string constant stands in the content of its class without quotes.  Every field that follows a
string constant can therefore be moved into the constant without a trace in the content, and a
comparison, which goes by the content, takes the two classes for the same.  Constants that spell no
end of a field cannot be forged in this way: then the content gives away the fields.
-/

namespace JvmDiff

open Text

/-! ## A field inside a constant -/

/-- Two neighbours of a list may as well be one text with the separator in it. -/
theorem intercalate_merge (separator first second : String) (before after : List String) :
    separator.intercalate (before ++ (first ++ separator ++ second) :: after) =
      separator.intercalate (before ++ first :: second :: after) := by
  have merged : separator.intercalate ((first ++ separator ++ second) :: after) =
      separator.intercalate (first :: second :: after) := by
    cases after with
    | nil => simp [String.intercalate_cons_cons]
    | cons _ _ => simp [String.intercalate_cons_cons, String.append_assoc]
  by_cases atStart : before = []
  · rw [atStart]
    exact merged
  · rw [String.intercalate_append_of_ne_nil atStart (by simp),
      String.intercalate_append_of_ne_nil atStart (by simp), merged]

/-- A longer constant spells out any other field after its own. -/
theorem Field.exists_content_merge {field : Field} {value : String}
    (constant : field.constant = some (.string value)) (other : Field) :
    ∃ forged : String, content { field with constant := some (.string forged) } =
      field.content ++ "," ++ other.content := by
  obtain ⟨start, startIs⟩ : ∃ start, other.content = start ++ "\x7d" := ⟨_, rfl⟩
  refine ⟨value ++ "\x7d," ++ start, ?_⟩
  rw [startIs]
  simp only [content, constant, Constant.text, String.append_assoc]
  rfl

/-- A field after a string constant can be dropped and the constant be changed
so that the class keeps its content. -/
theorem Class.exists_content_eq_without_field (c : Class) {before after : List Field}
    {field other : Field} {value : String} (fields : c.fields = before ++ field :: other :: after)
    (constant : field.constant = some (.string value)) :
    ∃ forged : String,
      content { c with
        fields := before ++ { field with constant := some (.string forged) } :: after } =
        c.content := by
  obtain ⟨forged, merged⟩ := Field.exists_content_merge constant other
  refine ⟨forged, ?_⟩
  have sameList : Entity.contentList
      (before ++ { field with constant := some (.string forged) } :: after) =
        Entity.contentList c.fields := by
    have mergedContent : Entity.content { field with constant := some (.string forged) } =
        Entity.content field ++ "," ++ Entity.content other := merged
    simp only [fields, Entity.contentList, bracketed, List.map_append, List.map_cons,
      mergedContent, intercalate_merge]
  have samePart : contentPart "F" Entity.contentList
      (before ++ { field with constant := some (.string forged) } :: after) =
        contentPart "F" Entity.contentList c.fields := by
    rw [fields] at *
    cases before <;> simpa [contentPart] using sameList
  unfold content
  rw [samePart]

/-! ## Classes that show their fields -/

/-- A field without annotations that has a plain name and type, and a constant
for its type if it is static and final. -/
structure Field.Declared.IsRegular (field : Declared) : Prop where
  annotations : field.annotations = []
  name : IsPlain field.name
  type : IsPlain field.type
  suits : field.access.isStaticFinal →
    ∀ constant ∈ field.constant, constant.Suits field.type

instance : DecidablePred Field.Declared.IsRegular := fun field =>
  decidable_of_iff
    (field.annotations = [] ∧ IsPlain field.name ∧ IsPlain field.type ∧
      (field.access.isStaticFinal → ∀ constant ∈ field.constant, constant.Suits field.type))
    ⟨fun ⟨annotations, name, type, suits⟩ => ⟨annotations, name, type, suits⟩,
      fun regular => ⟨regular.annotations, regular.name, regular.type, regular.suits⟩⟩

instance : DecidablePred Constant.IsContained := fun constant =>
  match constant with
  | .string value => inferInstanceAs (Decidable (Contained value))
  | .int _ | .long _ | .float _ | .double _ => inferInstanceAs (Decidable True)

theorem Field.Declared.IsRegular.readable {field : Declared} (regular : field.IsRegular)
    (contained : ∀ constant ∈ field.toField.constant, constant.IsContained) :
    field.toField.Readable where
  annotations := by
    rw [toField, regular.annotations, Entity.sorted_nil]
  name := regular.name
  type := regular.type
  suits := by
    intro constant held
    rw [toField] at held
    split at held
    case isTrue kept => exact regular.suits kept constant held
    case isFalse => exact absurd held (by simp)
  contained := contained

namespace Class.Blueprint

/-- A class without annotations that has plain names and types and regular
fields. -/
structure IsRegular (blueprint : Blueprint) : Prop where
  annotations : blueprint.annotations = []
  name : Text.IsPlain blueprint.name
  typeParameters : Text.IsPlain blueprint.typeParameters
  superclass : ∀ superclass ∈ blueprint.superclass, Text.IsPlain superclass
  interfaces : ∀ interface ∈ blueprint.interfaces, Text.IsPlain interface
  fields : ∀ field ∈ blueprint.fields, field.IsRegular

instance : DecidablePred IsRegular := fun blueprint =>
  decidable_of_iff
    (blueprint.annotations = [] ∧ Text.IsPlain blueprint.name ∧
      Text.IsPlain blueprint.typeParameters ∧
      (∀ superclass ∈ blueprint.superclass, Text.IsPlain superclass) ∧
      (∀ interface ∈ blueprint.interfaces, Text.IsPlain interface) ∧
      ∀ field ∈ blueprint.fields, field.IsRegular)
    ⟨fun ⟨annotations, name, typeParameters, superclass, interfaces, fields⟩ =>
        ⟨annotations, name, typeParameters, superclass, interfaces, fields⟩,
      fun regular =>
        ⟨regular.annotations, regular.name, regular.typeParameters, regular.superclass,
          regular.interfaces, regular.fields⟩⟩

theorem isPlain_superclassName {declared : Declared}
    (plain : ∀ superclass ∈ declared.superclass, Text.IsPlain superclass) :
    Text.IsPlain declared.superclassName := by
  have root : Text.IsPlain objectName := by decide
  rw [Declared.superclassName]
  split
  case h_1 => exact root
  case h_2 superclass held =>
    split
    case isTrue => exact root
    case isFalse => exact isPlain_dotted (plain superclass held)

/-- The built class can be read back if no string constant spells the end of a
field. -/
theorem IsRegular.readable {blueprint : Blueprint} (regular : blueprint.IsRegular)
    (contained : ∀ field ∈ blueprint.build.fields, ∀ constant ∈ field.constant,
      constant.IsContained) : blueprint.build.Readable where
  annotations := by
    change Entity.sorted blueprint.annotations = []
    rw [regular.annotations, Entity.sorted_nil]
  name := isPlain_dotted regular.name
  typeParameters := regular.typeParameters
  superclass := isPlain_superclassName regular.superclass
  interfaces := by
    intro interface member
    have listed := (Text.sorted_perm _).mem_iff.mp member
    obtain ⟨original, originalListed, rfl⟩ := List.mem_map.mp listed
    exact isPlain_dotted (regular.interfaces original originalListed)
  fields := by
    intro field member
    obtain ⟨original, originalListed, rfl⟩ :=
      List.mem_map.mp (blueprint.fields_perm.mem_iff.mp member)
    exact (regular.fields original originalListed).readable (contained _ member)

/-- Two classes with one content have the same fields, in the same order, as
long as no string constant spells the end of a field and what may follow it. -/
theorem fields_eq_of_content_eq (previous next : Blueprint) (previousRegular : previous.IsRegular)
    (nextRegular : next.IsRegular)
    (contained : ∀ field ∈ previous.build.fields ++ next.build.fields,
      ∀ constant ∈ field.constant, constant.IsContained)
    (same : previous.build.content = next.build.content) :
    previous.build.fields = next.build.fields :=
  Readable.fields_inj
    (previousRegular.readable fun field member =>
      contained field (List.mem_append_left _ member))
    (nextRegular.readable fun field member =>
      contained field (List.mem_append_right _ member)) same

/-- An enumeration declared in two ways, with braces in a string constant. -/
theorem fields_eq_of_content_eq_braces :
    let fields : List Field.Declared :=
      [{ name := "PATTERN", type := "java.lang.String", access := ⟨25⟩,
          constant := some (.string "F\x7bN=a#V=b\x7d,\x7d") },
        { name := "LIMIT", type := "int", access := ⟨25⟩, constant := some (.int 7) }]
    let previous : Blueprint :=
      { name := "model/Color", access := ⟨16385⟩, superclass := some "java/lang/Enum",
        fields := fields }
    let next : Blueprint :=
      { name := "model.Color", access := ⟨16385⟩, version := defaultVersion,
        superclass := some "java.lang.Enum", fields := fields }
    previous.IsRegular ∧ next.IsRegular ∧
      (∀ field ∈ previous.build.fields ++ next.build.fields,
        ∀ constant ∈ field.constant, constant.IsContained) ∧
      previous.build.content = next.build.content ∧
      previous.build.fields = next.build.fields := by
  intro fields previous next
  have previousRegular : previous.IsRegular := by decide +kernel
  have nextRegular : next.IsRegular := by decide +kernel
  have contained : ∀ field ∈ previous.build.fields ++ next.build.fields,
      ∀ constant ∈ field.constant, constant.IsContained := by
    decide +kernel
  have same : previous.build.content = next.build.content := by decide +kernel
  exact ⟨previousRegular, nextRegular, contained, same,
    fields_eq_of_content_eq previous next previousRegular nextRegular contained same⟩

/-- A constant that holds the second field of another class.  The comparison
finds no difference between the two. -/
theorem content_eq_of_forged_field :
    let greeting (value : String) : Field.Declared :=
      { name := "a", type := "java.lang.String", access := ⟨25⟩,
        constant := some (.string value) }
    let counter : Field.Declared := { name := "b", type := "int" }
    let previous : Blueprint :=
      { name := "Box", fields := [greeting "x\x7d,F\x7bN=b#T=int#D=1"] }
    let next : Blueprint := { name := "Box", fields := [greeting "x", counter] }
    previous.IsRegular ∧ next.IsRegular ∧ previous.build.content = next.build.content ∧
      Comparison.ofClass previous.build next.build = [] ∧
      previous.build.fields ≠ next.build.fields := by
  intro greeting counter previous next
  have previousRegular : previous.IsRegular := by decide +kernel
  have nextRegular : next.IsRegular := by decide +kernel
  have nextBuilt := next.build_of_ascends (by decide +kernel)
  have sameContent : previous.build.content = next.build.content := by
    rw [nextBuilt]
    decide +kernel
  have silent : Comparison.ofClass previous.build next.build = [] := by
    have sameHash : Entity.hash previous.build = Entity.hash next.build :=
      congrArg Sha256.ofText sameContent
    rw [Comparison.ofClass, Comparison.unlessSame, if_pos sameHash]
  have different : previous.build.fields ≠ next.build.fields := by
    rw [nextBuilt]
    decide +kernel
  exact ⟨previousRegular, nextRegular, sameContent, silent, different⟩

end Class.Blueprint

end JvmDiff
