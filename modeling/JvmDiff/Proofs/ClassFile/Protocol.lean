import JvmDiff.Proofs.Assembly.Handles
import JvmDiff.Proofs.ClassFile.Outcome

/-!
# Reading keeps to the protocol of assembling

Telling a file begins one class, refers only to handles that were answered, and ends the class.  So
an assembly refuses an event of it for what the event says, never for its place among the others.
-/

namespace JvmDiff

namespace Assembly

/-! ## Errors of content -/

/-- The error is about what an event says, not about its place among the others. -/
def Error.IsOfContent : Error → Prop
  | .malformedSignature _ | .missingName _ => True
  | .noOpenClass _ | .unbalancedEnd | .unknownHandle _ _ => False

theorem Error.problemKind_of_isOfContent {error : Error} (ofContent : error.IsOfContent) :
    error.problemKind = .malformedSignature ∨ error.problemKind = .missingName := by
  cases error with
  | malformedSignature => exact Or.inl rfl
  | missingName => exact Or.inr rfl
  | noOpenClass | unbalancedEnd | unknownHandle => exact ofContent.elim

/-- If there is an error, it is one of content. -/
def FailsOnContent {α : Type} (result : Except Error α) : Prop :=
  ∀ error, result = .error error → error.IsOfContent

namespace FailsOnContent

variable {α β : Type}

theorem ok (value : α) : FailsOnContent (.ok value) := by
  intro _ fails
  cases fails

theorem bind {result : Except Error α} {rest : α → Except Error β}
    (first : FailsOnContent result) (later : ∀ value, FailsOnContent (rest value)) :
    FailsOnContent (result >>= rest) := by
  cases result with
  | error error =>
    intro _ fails
    cases fails
    exact first error rfl
  | ok value => exact later value

theorem requireName (part : Part) (name : String) : FailsOnContent (requireName part name) := by
  rw [Assembly.requireName]
  split
  case isTrue =>
    intro _ fails
    cases fails
    exact trivial
  case isFalse => exact ok ()

theorem decoded (result : Except Signature.Malformed α) : FailsOnContent (decoded result) := by
  cases result with
  | error malformed =>
    intro _ fails
    cases fails
    exact trivial
  | ok value => exact ok value

theorem openClass (header : ClassHeader) : FailsOnContent (openClass header) := by
  rw [Assembly.openClass]
  refine .bind (.requireName _ _) fun _ => ?_
  cases Signature.stated? header.signature with
  | none => exact ok _
  | some signature => exact .bind (.decoded _) fun read => ok _

theorem declareField (c : OpenClass) (header : FieldHeader) :
    FailsOnContent (c.declareField header) := by
  rw [OpenClass.declareField]
  refine .bind (.requireName _ _) fun _ => ?_
  split
  case isTrue => exact ok none
  case isFalse => exact .bind (.decoded _) fun type => ok _

theorem declareMethod (c : OpenClass) (header : MethodHeader) :
    FailsOnContent (c.declareMethod header) := by
  rw [OpenClass.declareMethod]
  refine .bind (.requireName _ _) fun _ => ?_
  split
  case isTrue => exact ok none
  case isFalse =>
    refine .bind (.decoded _) fun types => ?_
    split
    case isTrue => exact ok _
    case isFalse => exact ok _

/-- An open class refuses what refers to none of its handles, or to one that it has, for
its content only. -/
theorem accept (c : OpenClass) (event : ClassEvent)
    (known : ∀ handle, event.handle? = some handle → c.Has handle) :
    FailsOnContent (c.accept event) := by
  cases event with
  | field header =>
    refine .bind (.declareField c header) fun field? => ?_
    cases field? with
    | none => exact ok _
    | some field => exact ok _
  | method header =>
    refine .bind (.declareMethod c header) fun member? => ?_
    cases member? with
    | none => exact ok _
    | some member => exact ok _
  | annotationUse target descriptor =>
    refine .bind (.requireName _ _) fun _ => ?_
    have found : c.requireTarget target = .ok () := by
      cases target with
      | wholeClass => rfl
      | field handle => exact if_pos (known (.field handle) rfl)
      | member handle => exact if_pos (known (.member handle) rfl)
    rw [found]
    exact ok _
  | annotationValue handle key value =>
    have found : handle < c.annotations.length := known (.annotationUse handle) rfl
    rw [OpenClass.accept, if_pos found]
    exact ok _
  | innerClass name access =>
    refine .bind (.requireName _ _) fun _ => ?_
    split
    case isTrue => exact ok _
    case isFalse => exact ok _

end FailsOnContent

end Assembly

namespace ClassFile

open Assembly (Handle OpenClass FailsOnContent ClassEvent)

namespace Telling

variable {α β : Type} {known : Handle → Prop}

/-! ## Telling the parts of one class -/

/-- What was told is refused for its content, or else what follows is as described. -/
def LeadsTo (after : α → Assembly → Prop) : Except Assembly.Error (α × Assembly) → Prop
  | .error error => error.IsOfContent
  | .ok (answer, last) => after answer last

theorem LeadsTo.bind {between : α → Assembly → Prop} {after : β → Assembly → Prop}
    {assembly : Assembly} {told : Telling α} {rest : α → Telling β}
    (first : LeadsTo between (told assembly))
    (later : ∀ answer next, between answer next → LeadsTo after (rest answer next)) :
    LeadsTo after ((told >>= rest) assembly) := by
  change LeadsTo after (told assembly >>= fun (answer, next) => rest answer next)
  cases begun : told assembly with
  | error error => rwa [begun] at first
  | ok outcome =>
    rw [begun] at first
    exact later outcome.1 outcome.2 first

theorem LeadsTo.mono {before after : α → Assembly → Prop}
    {outcome : Except Assembly.Error (α × Assembly)} (leads : LeadsTo before outcome)
    (implies : ∀ answer last, before answer last → after answer last) : LeadsTo after outcome := by
  cases outcome with
  | error error => exact leads
  | ok ended => exact implies ended.1 ended.2 leads

/-- One class is open, which has the handles that an earlier one had. -/
def StillOpen (earlier : OpenClass) (assembly : Assembly) : Prop :=
  ∃ c : OpenClass, assembly = ⟨[c]⟩ ∧ ∀ handle, earlier.Has handle → c.Has handle

theorem StillOpen.trans {first second : OpenClass} {assembly : Assembly}
    (keeps : ∀ handle, first.Has handle → second.Has handle)
    (isOpen : StillOpen second assembly) : StillOpen first assembly := by
  obtain ⟨c, only, keepsOn⟩ := isOpen
  exact ⟨c, only, fun handle has => keepsOn handle (keeps handle has)⟩

/-- Told to an only open class that has the known handles, it is refused for its content or
leaves the class open. -/
def Conforms (known : Handle → Prop) (told : Telling α) : Prop :=
  ∀ c : OpenClass, (∀ handle, known handle → c.Has handle) →
    LeadsTo (fun _ => StillOpen c) (told ⟨[c]⟩)

/-- Told to an only open class, it is refused for its content or ends the class. -/
def ConformsToEnd (told : Telling α) : Prop :=
  ∀ c : OpenClass, LeadsTo (fun _ last => last = {}) (told ⟨[c]⟩)

theorem conforms_pure (answer : α) : Conforms known (pure answer : Telling α) :=
  fun c _ => ⟨c, rfl, fun _ has => has⟩

theorem leadsTo_tell {event : ClassEvent} {c : OpenClass}
    (refers : ∀ handle, event.handle? = some handle → c.Has handle) :
    LeadsTo
      (fun answer last => ∃ next : OpenClass, last = ⟨[next]⟩ ∧
        ∀ handle, c.Has handle ∨ answer.handle? = some handle → next.Has handle)
      (tell (.within event) ⟨[c]⟩) := by
  simp only [tell, Assembly.step]
  cases accepts : c.accept event with
  | error error => exact FailsOnContent.accept c event refers error accepts
  | ok accepted =>
    exact ⟨accepted.2, rfl, fun handle => (OpenClass.has_of_accept accepts handle).mpr⟩

/-- After an event that refers to known handles only, the handle that was answered is known
as well. -/
theorem Conforms.tell_bind {event : ClassEvent} {rest : Assembly.Answer → Telling α}
    (refers : ∀ handle, event.handle? = some handle → known handle)
    (later : ∀ answer, Conforms (fun handle => known handle ∨ answer.handle? = some handle)
      (rest answer)) :
    Conforms known (tell (.within event) >>= rest) := by
  intro c has
  refine (leadsTo_tell fun handle refersTo => has handle (refers handle refersTo)).bind ?_
  rintro answer _ ⟨next, rfl, keeps⟩
  have hasNext : ∀ handle, known handle ∨ answer.handle? = some handle → next.Has handle :=
    fun handle isKnown => keeps handle (isKnown.imp_left (has handle))
  refine (later answer next hasNext).mono fun _ _ isOpen => isOpen.trans fun handle has => ?_
  exact keeps handle (Or.inl has)

theorem Conforms.bind {told : Telling α} {rest : α → Telling β} (first : Conforms known told)
    (later : ∀ answer, Conforms known (rest answer)) : Conforms known (told >>= rest) := by
  intro c has
  refine (first c has).bind ?_
  rintro answer _ ⟨next, rfl, keeps⟩
  have hasNext : ∀ handle, known handle → next.Has handle :=
    fun handle isKnown => keeps handle (has handle isKnown)
  exact (later answer next hasNext).mono fun _ _ isOpen => isOpen.trans keeps

theorem ConformsToEnd.bind {told : Telling α} {rest : α → Telling β}
    (first : Conforms (fun _ => False) told) (later : ∀ answer, ConformsToEnd (rest answer)) :
    ConformsToEnd (told >>= rest) := by
  intro c
  refine (first c fun _ none => none.elim).bind ?_
  rintro answer _ ⟨next, rfl, _⟩
  exact later answer next

theorem conforms_forM {parts : List α} {tellPart : α → Telling Unit}
    (each : ∀ part, Conforms known (tellPart part)) : Conforms known (parts.forM tellPart) := by
  induction parts with
  | nil => exact conforms_pure ()
  | cons part parts inductionHypothesis => exact (each part).bind fun _ => inductionHypothesis

/-! ### The parts -/

theorem conforms_annotationUse {target : Assembly.Target} (entry : AnnotationEntry)
    (refers : ∀ handle,
      (ClassEvent.annotationUse target entry.descriptor).handle? = some handle → known handle) :
    Conforms known (annotationUse target entry) := by
  refine .tell_bind refers fun answer => ?_
  cases answer with
  | annotationUse handle =>
    refine conforms_forM fun element => .tell_bind ?_ fun _ => conforms_pure ()
    intro _ isHandle
    exact Or.inr isHandle
  | done | skipped | field | member | ended => exact conforms_pure ()

theorem conforms_field (written : WrittenMember) : Conforms known (field written) := by
  refine .tell_bind (fun _ none => by cases none) fun answer => ?_
  cases answer with
  | field handle =>
    refine conforms_forM fun entry => conforms_annotationUse entry ?_
    intro _ isHandle
    exact Or.inr isHandle
  | done | skipped | member | annotationUse | ended => exact conforms_pure ()

theorem conforms_method (written : WrittenMember) : Conforms known (method written) := by
  refine .tell_bind (fun _ none => by cases none) fun answer => ?_
  cases answer with
  | member handle =>
    refine conforms_forM fun entry => conforms_annotationUse entry ?_
    intro _ isHandle
    exact Or.inr isHandle
  | done | skipped | field | annotationUse | ended => exact conforms_pure ()

theorem conforms_innerClass (entry : InnerEntry) : Conforms known (innerClass entry) :=
  .tell_bind (fun _ none => by cases none) fun _ => conforms_pure ()

theorem conforms_classAnnotation (entry : AnnotationEntry) :
    Conforms known (annotationUse .wholeClass entry) :=
  conforms_annotationUse entry fun _ none => by cases none

/-! ## Telling a whole class -/

theorem leadsTo_wholeClass (written : WrittenClass) :
    LeadsTo (fun _ last => last = {}) (wholeClass written {}) := by
  have begun : ∀ header, LeadsTo (fun _ last => ∃ c : OpenClass, last = ⟨[c]⟩)
      (tell (.beginClass header) {}) := by
    intro header
    simp only [tell, Assembly.step]
    cases opened : Assembly.openClass header with
    | error error => exact FailsOnContent.openClass header error opened
    | ok c => exact ⟨c, rfl⟩
  refine (begun _).bind ?_
  rintro _ _ ⟨c, rfl⟩
  refine ConformsToEnd.bind (conforms_forM conforms_field) (fun _ => ?_) c
  refine .bind (conforms_forM conforms_method) fun _ => ?_
  refine .bind (conforms_forM conforms_classAnnotation) fun _ => ?_
  refine .bind (conforms_forM conforms_innerClass) fun _ => ?_
  exact fun last => rfl

end Telling

theorem Error.problemKind_mem (error : Error) :
    error.problemKind ∈ [.malformedClassFile, .unsupportedConstant, .malformedSignature] := by
  cases error with
  | notConstant | descriptor => simp [problemKind]
  | truncated | badMagic | emptyPool | unknownTag | wideOverrun | invalidIndex | wrongEntry
  | leadByte | truncatedText | unpairedSurrogate | attributeTrail | invalidChar
  | unknownElementTag | classTrail => exact List.mem_cons_self

theorem isOfContent_of_assemble {written : WrittenClass} {error : Assembly.Error}
    (fails : written.assemble = .error error) : error.IsOfContent := by
  have leads := Telling.leadsTo_wholeClass written
  rw [WrittenClass.assemble] at fails
  cases told : Telling.wholeClass written {} with
  | error refused =>
    rw [told] at leads fails
    cases fails
    exact leads
  | ok outcome =>
    rw [told] at fails
    cases fails

/-- However a class is listed, telling it to an assembly fails for the content of an event only,
and leaves no class open when it succeeds.  So reading never misuses the assembly: of its
problems none is an invalid model, and those of telling the class have its name. -/
theorem readClass_keeps_protocol :
    (∀ written : WrittenClass,
      match Telling.wholeClass written {} with
      | .error error => error.IsOfContent
      | .ok (_, last) => last = {}) ∧
      ∀ (bytes : List UInt8) (problem : Problem), readClass bytes = .error problem →
        problem.kind ∈ [.malformedClassFile, .unsupportedConstant, .malformedSignature,
          .missingName] ∧
        ∀ written, WrittenClass.ofBytes bytes = .ok written →
          problem.className = some (Text.dotted written.name) := by
  refine ⟨fun written => ?telling, fun bytes problem fails => ?reading⟩
  case telling =>
    have leads := Telling.leadsTo_wholeClass written
    cases told : Telling.wholeClass written {} with
    | error error => rwa [told] at leads
    | ok outcome => rwa [told] at leads
  case reading =>
    rw [readClass] at fails
    cases listed : WrittenClass.ofBytes bytes with
    | error error =>
      rw [listed] at fails
      cases fails
      have ofReading := List.mem_append_left [.missingName] error.problemKind_mem
      exact ⟨ofReading, fun _ lists => by cases lists⟩
    | ok written =>
      cases assembled : written.assemble with
      | error error =>
        simp only [listed, assembled] at fails
        cases fails
        have ofContent := isOfContent_of_assemble assembled
        refine ⟨?_, fun _ lists => by cases lists; rfl⟩
        change error.problemKind ∈ _
        rcases Assembly.Error.problemKind_of_isOfContent ofContent with signature | name
        · rw [signature]
          decide
        · rw [name]
          decide
      | ok result =>
        simp only [listed, assembled] at fails
        cases fails

/-- A class with a blank name is listed by its file, but cannot begin. -/
theorem readClass_keeps_protocol_blank :
    ∃ problem, readClass (named " ").bytes = .error problem ∧
      problem.kind ∈ [.malformedClassFile, .unsupportedConstant, .malformedSignature,
        .missingName] ∧
      ∃ written, WrittenClass.ofBytes (named " ").bytes = .ok written ∧
        problem.className = some (Text.dotted written.name) := by
  have lists : (WrittenClass.ofBytes (named " ").bytes).toOption.isSome = true := by
    decide +kernel
  have fails : (readClass (named " ").bytes).toOption.isNone = true := by decide +kernel
  cases listed : WrittenClass.ofBytes (named " ").bytes with
  | error error => rw [listed] at lists; cases lists
  | ok written =>
    cases read : readClass (named " ").bytes with
    | ok result => rw [read] at fails; cases fails
    | error problem =>
      obtain ⟨kind, className⟩ := readClass_keeps_protocol.2 _ problem read
      exact ⟨problem, rfl, kind, written, rfl, className written listed⟩

end ClassFile

end JvmDiff
