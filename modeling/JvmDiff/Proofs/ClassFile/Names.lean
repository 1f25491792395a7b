import JvmDiff.Proofs.Assembly.Names
import JvmDiff.Proofs.ClassFile.Outcome
import JvmDiff.Proofs.ClassFile.Telling

/-!
# The names in a class that is read

What holds of the names in a class that a run of events builds holds of a class that is read from
a file.  The events that let in a blank name tell annotations and values that the file lists.
-/

namespace JvmDiff.ClassFile

/-- One of the entries has the name between the marks of its descriptor, or inside
one of its elements. -/
def Spells (entries : List AnnotationEntry) (name : String) : Prop :=
  ∃ entry ∈ entries,
    entry.descriptor = "L" ++ name ++ ";" ∨ name ∈ ElementValue.elementNames entry.elements

/-- Events that are listed let in only names that the entries spell. -/
theorem spells_of_letIn {entries : List AnnotationEntry} {events : List Assembly.Event}
    (listed : ∀ event ∈ events, Listed entries event) {assembly : Assembly} {name : String}
    (letIn : Assembly.LetIn (assembly.transcript events) name) : Spells entries name := by
  rcases letIn with ⟨target, handle, member⟩ | ⟨handle, key, value, member, inside⟩
  · obtain ⟨entry, entryMember, spelled⟩ :=
      listed _ (Assembly.event_mem_of_mem_transcript member)
    exact ⟨entry, entryMember, Or.inl spelled⟩
  · obtain ⟨entry, entryMember, element⟩ :=
      listed _ (Assembly.event_mem_of_mem_transcript member)
    exact ⟨entry, entryMember,
      Or.inr (ElementValue.mem_elementNames.mpr ⟨_, element, inside⟩)⟩

/-- Neither a run of events nor the reading of a file builds a class with a blank name of
the class, a member or an inner class.  The name of an annotation, at any depth, is
blank only where a run let it in and where a file spells it: between the marks of a
descriptor, or as the name of an annotation inside a value. -/
theorem blank_names_let_in (events : List Assembly.Event) (bytes : List UInt8) (c : Class) :
    (⟨.endClass, .ok (.ended c)⟩ ∈ ({} : Assembly).transcript events →
      (∀ name ∈ c.partNames, Text.isBlank name = false) ∧
        ∀ name ∈ c.annotationNames, Text.isBlank name = true →
          Assembly.LetIn (({} : Assembly).transcript events) name) ∧
      (readClass bytes = .ok c →
        (∀ name ∈ c.partNames, Text.isBlank name = false) ∧
          ∃ written, WrittenClass.ofBytes bytes = .ok written ∧
            ∀ name ∈ c.annotationNames, Text.isBlank name = true →
              Spells written.annotationEntries name) := by
  constructor
  · intro ends
    obtain ⟨parts, annotations⟩ := Assembly.namesFrom_letIn ends
    exact ⟨parts, annotations⟩
  · intro reads
    obtain ⟨written, told, lists, listed, ends⟩ := exists_run_of_readClass reads
    obtain ⟨parts, annotations⟩ := Assembly.namesFrom_letIn ends
    refine ⟨parts, written, lists, fun name member blank => ?_⟩
    exact spells_of_letIn listed (annotations name member blank)

/-- A class with an annotated field and an annotation inside another. -/
def taggedRun : List Assembly.Event :=
  [.beginClass { name := "org/Box" },
    .within (.field { name := "size", descriptor := "I" }),
    .within (.annotationUse (.field 0) "LTag;"),
    .within (.annotationValue 0 "by" (.nested "By" [])),
    .endClass]

theorem blank_names_let_in_tagged :
    ∃ result c, ⟨.endClass, .ok (.ended result)⟩ ∈ ({} : Assembly).transcript taggedRun ∧
      readClass (named "org/Box").bytes = .ok c ∧
      (∀ name ∈ result.partNames ++ c.partNames, Text.isBlank name = false) ∧
      ∀ name ∈ result.annotationNames, Text.isBlank name = true →
        Assembly.LetIn (({} : Assembly).transcript taggedRun) name := by
  obtain ⟨result, ends⟩ : ∃ result,
      (({} : Assembly).transcript taggedRun).getLast? = some ⟨.endClass, .ok (.ended result)⟩ :=
    ⟨_, rfl⟩
  have reads : (readClass (named "org/Box").bytes).toOption.isSome = true := by decide +kernel
  cases known : readClass (named "org/Box").bytes with
  | error problem => rw [known] at reads; cases reads
  | ok c =>
    have member := List.mem_of_getLast? ends
    have built := (blank_names_let_in taggedRun [] result).1 member
    have read := (blank_names_let_in [] (named "org/Box").bytes c).2 known
    exact ⟨result, c, member, rfl, List.forall_mem_append.mpr ⟨built.1, read.1⟩, built.2⟩

/-- A descriptor with nothing between its marks is not blank, but names nothing. -/
theorem nameless_annotation_built :
    ¬∀ (events : List Assembly.Event) (result : Class),
      ⟨.endClass, .ok (.ended result)⟩ ∈ ({} : Assembly).transcript events →
        ∀ name ∈ result.partNames ++ result.annotationNames, Text.isBlank name = false := by
  intro claimed
  obtain ⟨result, ends, named⟩ : ∃ result,
      (({} : Assembly).transcript
        [.beginClass { name := "org/Box" }, .within (.annotationUse .wholeClass "L;"),
          .endClass]).getLast? = some ⟨.endClass, .ok (.ended result)⟩ ∧
        "" ∈ result.annotationNames :=
    ⟨_, rfl, by decide +kernel⟩
  have notBlank := claimed _ result (List.mem_of_getLast? ends) "" (List.mem_append_right _ named)
  exact absurd notBlank (by decide)

end JvmDiff.ClassFile
