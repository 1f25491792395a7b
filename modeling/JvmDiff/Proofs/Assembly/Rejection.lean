import JvmDiff.Proofs.Assembly.Nesting

/-!
# Rejected events

An event that is refused, or that tells a member which is not part of the model, leaves the
assembly as it was.  This holds of handlers that work on the assembly in place, because each of
them makes its first change after its last check.  A run may therefore be read without its
rejected events: all others are answered as before, and the run leads to where it led.
-/

namespace JvmDiff.Assembly

/-! ## Handlers -/

/-- A handler reads and changes the assembly in place.  What it changed before an error
stays changed. -/
abbrev Handler (α : Type) :=
  ExceptT Error (StateM Assembly) α

namespace Handler

/-- The answer or the error, and the assembly that the handler leaves. -/
def perform {α : Type} (handler : Handler α) (assembly : Assembly) : Except Error α × Assembly :=
  handler.run.run assembly

/-- A check, which changes nothing. -/
def check {α : Type} (checked : Except Error α) : Handler α :=
  ExceptT.mk (pure checked)

/-- The innermost open class. -/
def innermost (kind : EventKind) : Handler OpenClass := do
  match (← get).openClasses with
  | [] => throw (.noOpenClass kind)
  | c :: _ => return c

/-- Changes the innermost open class. -/
def change (f : OpenClass → OpenClass) : Handler Unit :=
  modify fun assembly => ⟨assembly.openClasses.modifyHead f⟩

def beginClass (header : ClassHeader) : Handler Answer := do
  let c ← check (openClass header)
  modify fun assembly => ⟨c :: assembly.openClasses⟩
  return .done

def field (header : FieldHeader) : Handler Answer := do
  let c ← innermost .field
  check (requireName .field header.name)
  if c.skipsField header.name then
    return .skipped
  let type ← check (decoded (Signature.fieldType header.descriptor header.signature))
  change fun c => { c with fields := c.fields ++ [header.declared type] }
  return .field ((← innermost .field).fields.length - 1)

def method (header : MethodHeader) : Handler Answer := do
  let c ← innermost .method
  check (requireName .method header.name)
  if OpenClass.skipsMethod header.name then
    return .skipped
  let types ← check (decoded (Signature.methodType header.descriptor header.signature))
  let member := header.declared c.head.access types
  change fun c => { c with members := c.members ++ [member] }
  return .member ((← innermost .method).members.length - 1)

def annotationUse (target : Target) (descriptor : String) : Handler Answer := do
  let c ← innermost .annotationUse
  check (requireName .annotationUse descriptor)
  check (c.requireTarget target)
  change fun c =>
    { c with annotations := c.annotations ++ [(target, AnnotationUse.ofDescriptor descriptor)] }
  return .annotationUse ((← innermost .annotationUse).annotations.length - 1)

def annotationValue (handle : Nat) (key : String) (value : ElementValue) : Handler Answer := do
  let c ← innermost .annotationValue
  if handle < c.annotations.length then
    change fun c => c.setElement handle key value
    return .done
  else
    throw (.unknownHandle .annotationUse handle)

def innerClass (name : String) (access : Access) : Handler Answer := do
  let _ ← innermost .innerClass
  check (requireName .innerClass name)
  if OpenClass.skipsInnerClass name then
    return .done
  let entry := InnerClass.ofName name access
  change fun c => { c with head := { c.head with innerClasses := c.head.innerClasses ++ [entry] } }
  return .done

def endClass : Handler Answer := do
  match (← get).openClasses with
  | [] => throw .unbalancedEnd
  | c :: outer =>
      set (⟨outer⟩ : Assembly)
      return .ended c.close

/-- The handler of an event. -/
def ofEvent : Event → Handler Answer
  | .beginClass header => beginClass header
  | .within (.field header) => field header
  | .within (.method header) => method header
  | .within (.annotationUse target descriptor) => annotationUse target descriptor
  | .within (.annotationValue handle key value) => annotationValue handle key value
  | .within (.innerClass name access) => innerClass name access
  | .endClass => endClass

/-! ### What a handler does -/

section Perform

variable {α β : Type} {c : OpenClass} {outer : List OpenClass}

theorem perform_check (assembly : Assembly) (checked : Except Error α) (later : α → Handler β) :
    (check checked >>= later).perform assembly =
      match checked with
      | .error error => (.error error, assembly)
      | .ok value => (later value).perform assembly := by
  cases checked with
  | error error => rfl
  | ok value => rfl

theorem perform_innermost (kind : EventKind) (later : OpenClass → Handler β) :
    (innermost kind >>= later).perform ⟨c :: outer⟩ = (later c).perform ⟨c :: outer⟩ :=
  rfl

/-- The last part of a class has the handle that was free before it was added. -/
theorem answer_last {γ : Type} (answer : Nat → Answer) (parts : List γ) (part : γ)
    (assembly : Assembly) :
    (Except.ok (ε := Error) (answer ((parts ++ [part]).length - 1)), assembly) =
      (Except.ok (answer parts.length), assembly) := by
  rw [List.length_append, List.length_singleton, Nat.add_sub_cancel]

theorem perform_beginClass (assembly : Assembly) (header : ClassHeader) :
    (beginClass header).perform assembly = assembly.step (.beginClass header) := by
  rw [beginClass, perform_check, step]
  cases openClass header with
  | error error => rfl
  | ok c => rfl

theorem step_within (c : OpenClass) (outer : List OpenClass) (event : ClassEvent) :
    step ⟨c :: outer⟩ (.within event) =
      match c.accept event with
      | .error error => (.error error, ⟨c :: outer⟩)
      | .ok (answer, next) => (.ok answer, ⟨next :: outer⟩) :=
  rfl

theorem perform_field (header : FieldHeader) :
    (field header).perform ⟨c :: outer⟩ = step ⟨c :: outer⟩ (.within (.field header)) := by
  rw [field, perform_innermost, perform_check, step_within, OpenClass.accept,
    OpenClass.declareField]
  cases requireName .field header.name with
  | error error => rfl
  | ok _ =>
    cases skips : c.skipsField header.name with
    | true => rfl
    | false =>
      cases Signature.fieldType header.descriptor header.signature with
      | error malformed => rfl
      | ok type =>
        exact answer_last .field c.fields (header.declared type) _

theorem declareMethod_eq_declared (header : MethodHeader) :
    c.declareMethod header = do
      requireName .method header.name
      if OpenClass.skipsMethod header.name then
        return none
      let types ← decoded (Signature.methodType header.descriptor header.signature)
      return some (header.declared c.head.access types) := by
  by_cases isConstructor : header.name = Member.constructorName
  · simp only [OpenClass.declareMethod, MethodHeader.declared, if_pos isConstructor]
    rfl
  · simp only [OpenClass.declareMethod, MethodHeader.declared, if_neg isConstructor,
      OpenClass.methodAccess_eq]
    rfl

theorem perform_method (header : MethodHeader) :
    (method header).perform ⟨c :: outer⟩ = step ⟨c :: outer⟩ (.within (.method header)) := by
  rw [method, perform_innermost, perform_check, step_within, OpenClass.accept,
    declareMethod_eq_declared]
  cases requireName .method header.name with
  | error error => rfl
  | ok _ =>
    cases OpenClass.skipsMethod header.name with
    | true => rfl
    | false =>
      cases Signature.methodType header.descriptor header.signature with
      | error malformed => rfl
      | ok types =>
        exact answer_last .member c.members (header.declared c.head.access types) _

theorem perform_annotationUse (target : Target) (descriptor : String) :
    (annotationUse target descriptor).perform ⟨c :: outer⟩ =
      step ⟨c :: outer⟩ (.within (.annotationUse target descriptor)) := by
  rw [annotationUse, perform_innermost, perform_check, step_within, OpenClass.accept]
  cases requireName .annotationUse descriptor with
  | error error => rfl
  | ok _ =>
    simp only [perform_check]
    cases c.requireTarget target with
    | error error => rfl
    | ok _ =>
      exact answer_last .annotationUse c.annotations
        (target, AnnotationUse.ofDescriptor descriptor) _

theorem perform_annotationValue (handle : Nat) (key : String) (value : ElementValue) :
    (annotationValue handle key value).perform ⟨c :: outer⟩ =
      step ⟨c :: outer⟩ (.within (.annotationValue handle key value)) := by
  rw [annotationValue, perform_innermost, step_within, OpenClass.accept]
  split
  case isTrue => rfl
  case isFalse => rfl

theorem perform_innerClass (name : String) (access : Access) :
    (innerClass name access).perform ⟨c :: outer⟩ =
      step ⟨c :: outer⟩ (.within (.innerClass name access)) := by
  rw [innerClass, perform_innermost, perform_check, step_within, OpenClass.accept]
  cases requireName .innerClass name with
  | error error => rfl
  | ok _ =>
    cases OpenClass.skipsInnerClass name with
    | true => rfl
    | false => rfl

/-- A handler that works in place takes its event as `Assembly.step` does. -/
theorem perform_ofEvent (assembly : Assembly) (event : Event) :
    (ofEvent event).perform assembly = assembly.step event := by
  cases event with
  | beginClass header => exact perform_beginClass assembly header
  | within event =>
    obtain ⟨_ | ⟨c, outer⟩⟩ := assembly
    · cases event with
      | field | method | annotationUse | annotationValue | innerClass => rfl
    · cases event with
      | field header => exact perform_field header
      | method header => exact perform_method header
      | annotationUse target descriptor => exact perform_annotationUse target descriptor
      | annotationValue handle key value => exact perform_annotationValue handle key value
      | innerClass name access => exact perform_innerClass name access
  | endClass =>
    obtain ⟨_ | ⟨c, outer⟩⟩ := assembly
    · rfl
    · rfl

end Perform

end Handler

/-! ## Rejections -/

/-- The response refuses the event, or says that the member is not part of the model. -/
def isRejection : Except Error Answer → Bool
  | .error _ => true
  | .ok .skipped => true
  | .ok _ => false

theorem OpenClass.eq_of_accept_skipped {c next : OpenClass} {event : ClassEvent}
    (skips : c.accept event = .ok (.skipped, next)) : next = c := by
  cases event with
  | field header =>
    rcases accept_field skips with ⟨_, _, unchanged⟩ | ⟨_, _, numbered, _⟩
    · exact unchanged
    · cases numbered
  | method header =>
    rcases accept_method skips with ⟨_, _, unchanged⟩ | ⟨_, _, numbered, _⟩
    · exact unchanged
    · cases numbered
  | annotationUse target descriptor => cases (accept_annotationUse skips).2.1
  | annotationValue handle key value => cases (accept_annotationValue skips).2.1
  | innerClass name access => cases (accept_innerClass skips).1

theorem step_of_isRejection {assembly : Assembly} {event : Event}
    (rejects : isRejection (assembly.step event).1 = true) :
    (assembly.step event).2 = assembly := by
  obtain ⟨openClasses⟩ := assembly
  cases event with
  | beginClass header =>
    simp only [step] at rejects ⊢
    cases opened : openClass header with
    | error error => rfl
    | ok c =>
      rw [opened] at rejects
      cases rejects
  | within event =>
    cases openClasses with
    | nil => rfl
    | cons c outer =>
      rw [Handler.step_within] at rejects ⊢
      cases accepts : c.accept event with
      | error error => rfl
      | ok accepted =>
        obtain ⟨answer, next⟩ := accepted
        rw [accepts] at rejects
        cases answer with
        | skipped => rw [OpenClass.eq_of_accept_skipped accepts]
        | done | field | member | annotationUse | ended => cases rejects
  | endClass =>
    cases openClasses with
    | nil => rfl
    | cons c outer => cases rejects

/-! ## Runs without rejected events -/

theorem after_cons (assembly : Assembly) (event : Event) (events : List Event) :
    assembly.after (event :: events) = (assembly.step event).2.after events :=
  rfl

/-- Exchanges that remain of a run when some of its rejected events are passed over. -/
inductive Heeded : Assembly → List Event → List Exchange → Prop where
  | nil (assembly : Assembly) : Heeded assembly [] []
  | keep {assembly : Assembly} {event : Event} {events : List Event} {kept : List Exchange} :
      Heeded (assembly.step event).2 events kept →
      Heeded assembly (event :: events) (⟨event, (assembly.step event).1⟩ :: kept)
  | passOver {assembly : Assembly} {event : Event} {events : List Event} {kept : List Exchange} :
      isRejection (assembly.step event).1 = true →
      Heeded (assembly.step event).2 events kept →
      Heeded assembly (event :: events) kept

/-- The events that remain are answered as they were in the whole run, and lead to
where it leads. -/
theorem Heeded.replay {assembly : Assembly} {events : List Event} {kept : List Exchange}
    (heeded : Heeded assembly events kept) :
    assembly.transcript (kept.map Exchange.event) = kept ∧
      assembly.after (kept.map Exchange.event) = assembly.after events := by
  induction heeded with
  | nil => exact ⟨rfl, rfl⟩
  | keep _ inductionHypothesis =>
    rw [List.map_cons, transcript, inductionHypothesis.1]
    exact ⟨rfl, inductionHypothesis.2⟩
  | passOver rejects _ inductionHypothesis =>
    rw [step_of_isRejection rejects] at inductionHypothesis
    rw [after_cons, step_of_isRejection rejects]
    exact inductionHypothesis

/-- A handler that reads and changes the assembly in place, with its checks and changes in the
order in which they are made, leaves the assembly as it was when it rejects the event.  So
the event changes neither the answers to what follows nor where that leads, and a run may
be read without any of its rejected events. -/
theorem rejected_events_leave_no_trace (assembly : Assembly) :
    (∀ event, (Handler.ofEvent event).perform assembly = assembly.step event) ∧
      (∀ event, isRejection (assembly.step event).1 = true →
        ((Handler.ofEvent event).perform assembly).2 = assembly ∧
          ∀ later, assembly.transcript (event :: later) =
              ⟨event, (assembly.step event).1⟩ :: assembly.transcript later ∧
            assembly.after (event :: later) = assembly.after later) ∧
      ∀ events kept, Heeded assembly events kept →
        assembly.transcript (kept.map Exchange.event) = kept ∧
          assembly.after (kept.map Exchange.event) = assembly.after events := by
  refine ⟨Handler.perform_ofEvent assembly, ?alone, ?run⟩
  case alone =>
    intro event rejects
    have unchanged := step_of_isRejection rejects
    refine ⟨by rw [Handler.perform_ofEvent, unchanged], fun later => ⟨?_, ?_⟩⟩
    · rw [transcript, unchanged]
    · rw [after_cons, unchanged]
  case run => exact fun events kept heeded => heeded.replay

/-- In an open class: a method that is left out, a value of an annotation that is not there and
a class without a name, before the class ends. -/
theorem rejected_events_leave_no_trace_box :
    let lambda : Event := .within (.method { name := "lambda$0", descriptor := "()V" })
    let strayValue : Event := .within (.annotationValue 0 "key" (.leaf (.int 0)))
    let nameless : Event := .beginClass { name := " " }
    let ends : Exchange := ⟨.endClass, (openBox.step .endClass).1⟩
    isRejection (openBox.step lambda).1 = true ∧
      Heeded openBox [lambda, strayValue, nameless, .endClass] [ends] ∧
      ((Handler.ofEvent lambda).perform openBox).2 = openBox ∧
      openBox.transcript [.endClass] = [ends] ∧
      openBox.after [.endClass] = openBox.after [lambda, strayValue, nameless, .endClass] := by
  intro lambda strayValue nameless ends
  have skips : isRejection (openBox.step lambda).1 = true := by decide +kernel
  have misses : isRejection (openBox.step strayValue).1 = true := by decide +kernel
  have refuses : isRejection (openBox.step nameless).1 = true := by decide +kernel
  have heeded : Heeded openBox [lambda, strayValue, nameless, .endClass] [ends] := by
    refine .passOver skips ?_
    rw [step_of_isRejection skips]
    refine .passOver misses ?_
    rw [step_of_isRejection misses]
    refine .passOver refuses ?_
    rw [step_of_isRejection refuses]
    exact .keep (.nil _)
  have apart := rejected_events_leave_no_trace openBox
  exact ⟨skips, heeded, (apart.2.1 lambda skips).1, apart.2.2 _ _ heeded⟩

end JvmDiff.Assembly
