import JvmDiff.ClassFile.Read
import JvmDiff.Proofs.Assembly.Nesting

/-!
# Reading a class file as a run

Reading a file tells it to an assembly, so a class that is read is one that a run of events builds.
The annotations and values in the events are those that the file lists.
-/

namespace JvmDiff.ClassFile

/-- The annotations that a file lists, on members and on the class. -/
def WrittenClass.annotationEntries (written : WrittenClass) : List AnnotationEntry :=
  (written.fields ++ written.methods).flatMap (fun member => member.attributes.annotations) ++
    written.attributes.annotations

/-- What an event says of annotations is in one of the entries. -/
def Listed (entries : List AnnotationEntry) : Assembly.Event → Prop
  | .within (.annotationUse _ descriptor) => ∃ entry ∈ entries, entry.descriptor = descriptor
  | .within (.annotationValue _ key value) => ∃ entry ∈ entries, (key, value) ∈ entry.elements
  | _ => True

/-! ## Tellings as runs -/

namespace Telling

variable {α β : Type} {kind : Assembly.Event → Prop}

theorem exists_of_bind {told : Telling α} {rest : α → Telling β} {assembly last : Assembly}
    {answer : β} (succeeds : (told >>= rest) assembly = .ok (answer, last)) :
    ∃ first between, told assembly = .ok (first, between) ∧
      rest first between = .ok (answer, last) := by
  change (told assembly >>= fun (first, between) => rest first between) = _ at succeeds
  cases started : told assembly with
  | error error => rw [started] at succeeds; cases succeeds
  | ok begun =>
    rw [started] at succeeds
    exact ⟨begun.1, begun.2, rfl, succeeds⟩

/-- What is told to the end is a run of events of the kind. -/
def IsRun (kind : Assembly.Event → Prop) (told : Telling α) : Prop :=
  ∀ (assembly last : Assembly) (answer : α), told assembly = .ok (answer, last) →
    ∃ events, (∀ event ∈ events, kind event) ∧ assembly.after events = last

/-- What is told to the end is a run of events of the kind and the end of a class. -/
def IsRunToEnd (kind : Assembly.Event → Prop) (told : Telling Class) : Prop :=
  ∀ (assembly last : Assembly) (result : Class), told assembly = .ok (result, last) →
    ∃ events, (∀ event ∈ events, kind event) ∧
      ((assembly.after events).step .endClass).1 = .ok (.ended result)

theorem isRun_pure (answer : α) : IsRun kind (pure answer : Telling α) := by
  intro assembly _ _ told
  cases told
  exact ⟨[], fun _ member => absurd member List.not_mem_nil, rfl⟩

theorem isRun_tell {event : Assembly.Event} (isKind : kind event) : IsRun kind (tell event) := by
  intro assembly last answer told
  refine ⟨[event], List.forall_mem_singleton.mpr isKind, ?_⟩
  change (assembly.step event).2 = last
  rw [tell] at told
  split at told
  case h_1 => cases told
  case h_2 stepped =>
    cases told
    rw [stepped]

theorem IsRun.bind {told : Telling α} {rest : α → Telling β} (first : IsRun kind told)
    (later : ∀ answer, IsRun kind (rest answer)) : IsRun kind (told >>= rest) := by
  intro assembly last answer succeeds
  obtain ⟨_, between, begun, continued⟩ := exists_of_bind succeeds
  obtain ⟨events, isKind, rfl⟩ := first _ _ _ begun
  obtain ⟨more, moreKind, rfl⟩ := later _ _ _ _ continued
  exact ⟨events ++ more, List.forall_mem_append.mpr ⟨isKind, moreKind⟩,
    Assembly.after_append assembly events more⟩

theorem IsRunToEnd.bind {told : Telling α} {rest : α → Telling Class} (first : IsRun kind told)
    (later : ∀ answer, IsRunToEnd kind (rest answer)) : IsRunToEnd kind (told >>= rest) := by
  intro assembly last result succeeds
  obtain ⟨_, between, begun, continued⟩ := exists_of_bind succeeds
  obtain ⟨events, isKind, rfl⟩ := first _ _ _ begun
  obtain ⟨more, moreKind, ended⟩ := later _ _ _ _ continued
  refine ⟨events ++ more, List.forall_mem_append.mpr ⟨isKind, moreKind⟩, ?_⟩
  rw [Assembly.after_append]
  exact ended

theorem isRun_forM {parts : List α} {tellPart : α → Telling Unit}
    (each : ∀ part ∈ parts, IsRun kind (tellPart part)) : IsRun kind (parts.forM tellPart) := by
  induction parts with
  | nil => exact isRun_pure ()
  | cons part parts inductionHypothesis =>
    obtain ⟨first, others⟩ := List.forall_mem_cons.mp each
    exact first.bind fun _ => inductionHypothesis others

/-! ### The parts of a class -/

section Parts

variable {entries : List AnnotationEntry}

theorem isRun_annotationUse (target : Assembly.Target) {entry : AnnotationEntry}
    (member : entry ∈ entries) : IsRun (Listed entries) (annotationUse target entry) := by
  refine .bind (isRun_tell ⟨entry, member, rfl⟩) fun answer => ?_
  cases answer with
  | annotationUse handle =>
    refine isRun_forM fun element inEntry => ?_
    exact .bind (isRun_tell ⟨entry, member, inEntry⟩) fun _ => isRun_pure ()
  | done | skipped | field | member | ended => exact isRun_pure ()

theorem isRun_annotations (target : Assembly.Target) {annotations : List AnnotationEntry}
    (among : annotations ⊆ entries) :
    IsRun (Listed entries) (annotations.forM (annotationUse target)) :=
  isRun_forM fun _ member => isRun_annotationUse target (among member)

theorem isRun_field {written : WrittenMember} (among : written.attributes.annotations ⊆ entries) :
    IsRun (Listed entries) (field written) := by
  refine .bind (isRun_tell trivial) fun answer => ?_
  cases answer with
  | field handle => exact isRun_annotations (.field handle) among
  | done | skipped | member | annotationUse | ended => exact isRun_pure ()

theorem isRun_method {written : WrittenMember} (among : written.attributes.annotations ⊆ entries) :
    IsRun (Listed entries) (method written) := by
  refine .bind (isRun_tell trivial) fun answer => ?_
  cases answer with
  | member handle => exact isRun_annotations (.member handle) among
  | done | skipped | field | annotationUse | ended => exact isRun_pure ()

theorem isRun_innerClass (entry : InnerEntry) : IsRun (Listed entries) (innerClass entry) :=
  .bind (isRun_tell trivial) fun _ => isRun_pure ()

end Parts

theorem isRunToEnd_wholeClass (written : WrittenClass) :
    IsRunToEnd (Listed written.annotationEntries) (wholeClass written) := by
  have ofMember : ∀ member ∈ written.fields ++ written.methods,
      member.attributes.annotations ⊆ written.annotationEntries := fun member isMember _ isEntry =>
    List.mem_append_left _ (List.mem_flatMap.mpr ⟨member, isMember, isEntry⟩)
  obtain ⟨ofField, ofMethod⟩ := List.forall_mem_append.mp ofMember
  refine .bind (isRun_tell trivial) fun _ => ?_
  refine .bind (isRun_forM fun member isField => isRun_field (ofField member isField)) fun _ => ?_
  refine .bind (isRun_forM fun member isMethod => isRun_method (ofMethod member isMethod))
    fun _ => ?_
  refine .bind (isRun_annotations .wholeClass (List.subset_append_right _ _)) fun _ => ?_
  refine .bind (isRun_forM fun entry _ => isRun_innerClass entry) fun _ => ?_
  intro assembly last result told
  refine ⟨[], fun _ member => absurd member List.not_mem_nil, ?_⟩
  obtain ⟨openClasses⟩ := assembly
  cases openClasses with
  | nil => cases told
  | cons c outer =>
    cases told
    rfl

end Telling

/-- A class that is read is what telling the listed parts comes to. -/
theorem told_of_readClass {bytes : List UInt8} {c : Class} (reads : readClass bytes = .ok c) :
    ∃ written last, WrittenClass.ofBytes bytes = .ok written ∧
      Telling.wholeClass written {} = .ok (c, last) := by
  rw [readClass] at reads
  split at reads
  case h_1 => cases reads
  case h_2 written lists =>
    split at reads
    case h_1 => cases reads
    case h_2 result assembled =>
      cases reads
      rw [WrittenClass.assemble] at assembled
      cases told : Telling.wholeClass written {} with
      | error error => rw [told] at assembled; cases assembled
      | ok outcome =>
        rw [told] at assembled
        cases assembled
        exact ⟨written, outcome.2, lists, told⟩

/-- A class that is read is built by a run whose annotations the file lists. -/
theorem exists_run_of_readClass {bytes : List UInt8} {c : Class} (reads : readClass bytes = .ok c) :
    ∃ written events, WrittenClass.ofBytes bytes = .ok written ∧
      (∀ event ∈ events, Listed written.annotationEntries event) ∧
      ⟨.endClass, .ok (.ended c)⟩ ∈ ({} : Assembly).transcript events := by
  obtain ⟨written, last, lists, told⟩ := told_of_readClass reads
  obtain ⟨events, listed, ended⟩ := Telling.isRunToEnd_wholeClass written _ _ _ told
  refine ⟨written, events ++ [.endClass], lists, ?_, ?_⟩
  · exact List.forall_mem_append.mpr ⟨listed, List.forall_mem_singleton.mpr trivial⟩
  · rw [Assembly.transcript_append]
    refine List.mem_append_right _ (List.mem_singleton.mpr ?_)
    rw [← ended]

end JvmDiff.ClassFile
