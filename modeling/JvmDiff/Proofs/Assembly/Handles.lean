import JvmDiff.Proofs.Assembly.Transcript
import Mathlib.Data.List.Forall2

/-!
# Handles and the classes they are given out for

A handle is the number of a part in its class, and an event that refers to a part gives the number
alone.  A ledger of a run tells for which class each handle was given out.  Against it can be said
what an assembly knows of handles: those that were given out for the innermost class, and those that
cannot be told from them.
-/

namespace JvmDiff.Assembly

/-! ## Handles -/

/-- The number of a part of a class that takes annotations or elements. -/
inductive Handle where
  | field (number : Nat)
  | member (number : Nat)
  | annotationUse (number : Nat)
deriving DecidableEq, Repr

def Handle.unknown : Handle → Error
  | .field number => .unknownHandle .field number
  | .member number => .unknownHandle .member number
  | .annotationUse number => .unknownHandle .annotationUse number

/-- The handle that an answer gives out. -/
def Answer.handle? : Answer → Option Handle
  | .field number => some (.field number)
  | .member number => some (.member number)
  | .annotationUse number => some (.annotationUse number)
  | .done | .skipped | .ended _ => none

namespace ClassEvent

/-- The handle of the part that an event refers to. -/
def handle? : ClassEvent → Option Handle
  | .annotationUse (.field number) _ => some (.field number)
  | .annotationUse (.member number) _ => some (.member number)
  | .annotationValue number _ _ => some (.annotationUse number)
  | .annotationUse .wholeClass _ | .field _ | .method _ | .innerClass _ _ => none

/-- The event gives the name that is required of it. -/
def isNamed : ClassEvent → Bool
  | .field header => !Text.isBlank header.name
  | .method header => !Text.isBlank header.name
  | .annotationUse _ descriptor => !Text.isBlank descriptor
  | .annotationValue _ _ _ => true
  | .innerClass name _ => !Text.isBlank name

end ClassEvent

namespace OpenClass

variable {c next : OpenClass} {event : ClassEvent} {answer : Answer} {handle : Handle}

/-- The class has a part with the handle. -/
def Has (c : OpenClass) : Handle → Prop
  | .field number => number < c.fields.length
  | .member number => number < c.members.length
  | .annotationUse number => number < c.annotations.length

theorem lt_length_concat {α : Type} (parts : List α) (part : α) (number : Nat) :
    number < (parts ++ [part]).length ↔ number < parts.length ∨ parts.length = number := by
  rw [List.length_append, List.length_singleton]
  omega

/-- An accepted event adds the part whose handle it answers, if it answers one. -/
theorem has_of_accept (accepts : c.accept event = .ok (answer, next)) (handle : Handle) :
    next.Has handle ↔ c.Has handle ∨ answer.handle? = some handle := by
  cases event with
  | field header =>
      rcases accept_field accepts with ⟨_, rfl, rfl⟩ | ⟨type, _, rfl, rfl⟩
      · simp [Answer.handle?]
      · cases handle with
        | field number => simp only [Has, lt_length_concat, Answer.handle?, Option.some.injEq,
            Handle.field.injEq]
        | member | annotationUse => simp [Has, Answer.handle?]
  | method header =>
      rcases accept_method accepts with ⟨_, rfl, rfl⟩ | ⟨types, _, rfl, rfl⟩
      · simp [Answer.handle?]
      · cases handle with
        | member number => simp only [Has, lt_length_concat, Answer.handle?, Option.some.injEq,
            Handle.member.injEq]
        | field | annotationUse => simp [Has, Answer.handle?]
  | annotationUse target descriptor =>
      obtain ⟨_, rfl, rfl⟩ := accept_annotationUse accepts
      cases handle with
      | annotationUse number => simp only [Has, lt_length_concat, Answer.handle?,
          Option.some.injEq, Handle.annotationUse.injEq]
      | field | member => simp [Has, Answer.handle?]
  | annotationValue number key value =>
      obtain ⟨_, rfl, rfl⟩ := accept_annotationValue accepts
      cases handle with
      | annotationUse number => simp [Has, Answer.handle?, setElement]
      | field | member => simp [Has, Answer.handle?, setElement]
  | innerClass name access =>
      obtain ⟨rfl, ⟨_, rfl⟩ | ⟨_, rfl⟩⟩ := accept_innerClass accepts
      · simp [Answer.handle?]
      · cases handle with
        | field | member | annotationUse => simp [Has, Answer.handle?]

theorem not_has_of_openClass {header : ClassHeader} (opened : openClass header = .ok c)
    (handle : Handle) : ¬c.Has handle := by
  have reflects := Reflects.of_openClass opened
  cases handle with
  | field number => simp [Has, reflects.fields, accepted]
  | member number => simp [Has, reflects.members, accepted]
  | annotationUse number => simp [Has, reflects.annotations, accepted]

theorem requireTarget_of_has {target : Target} {descriptor : String}
    (refers : (ClassEvent.annotationUse target descriptor).handle? = some handle) :
    (c.Has handle → c.requireTarget target = .ok ()) ∧
      (¬c.Has handle → c.requireTarget target = .error handle.unknown) := by
  cases target with
  | wholeClass => cases refers
  | field number =>
      cases refers
      exact ⟨fun known => if_pos known, fun missing => if_neg missing⟩
  | member number =>
      cases refers
      exact ⟨fun known => if_pos known, fun missing => if_neg missing⟩

theorem requireName_of_isNamed {target : Target} {descriptor : String}
    (named : (ClassEvent.annotationUse target descriptor).isNamed = true) :
    requireName .annotationUse descriptor = .ok () := by
  rw [ClassEvent.isNamed, Bool.not_eq_true'] at named
  rw [requireName, named]
  rfl

/-- Whether the class knows the handle does not matter for an annotation without a name. -/
theorem accept_of_not_isNamed (refers : event.handle? = some handle)
    (unnamed : event.isNamed = false) :
    c.accept event = .error (.missingName .annotationUse) := by
  cases event with
  | field | method | innerClass => cases refers
  | annotationUse target descriptor =>
      rw [ClassEvent.isNamed, Bool.not_eq_false'] at unnamed
      rw [accept, requireName, unnamed]
      rfl
  | annotationValue number key value => cases unnamed

theorem accept_of_not_has (refers : event.handle? = some handle) (named : event.isNamed = true)
    (missing : ¬c.Has handle) : c.accept event = .error handle.unknown := by
  cases event with
  | field | method | innerClass => cases refers
  | annotationUse target descriptor =>
      rw [accept, requireName_of_isNamed named, (requireTarget_of_has refers).2 missing]
      rfl
  | annotationValue number key value =>
      cases refers
      exact if_neg missing

/-- The answer to an event about a part of a class, and the class after it.  An annotation
is added behind the others for the part that the event names; an element is set on the
annotation with the number, and nothing else changes. -/
inductive Lands (c : OpenClass) : ClassEvent → Answer → OpenClass → Prop
  | annotationUse (target : Target) (descriptor : String) :
      Lands c (.annotationUse target descriptor) (.annotationUse c.annotations.length)
        { c with
          annotations := c.annotations ++ [(target, AnnotationUse.ofDescriptor descriptor)] }
  | annotationValue {before behind : List (Target × AnnotationUse)} {target : Target}
      {usage : AnnotationUse} (stands : c.annotations = before ++ (target, usage) :: behind)
      (key : String) (value : ElementValue) :
      Lands c (.annotationValue before.length key value) .done
        { c with annotations := before ++ (target, usage.insert key value) :: behind }

theorem accept_of_has (refers : event.handle? = some handle) (named : event.isNamed = true)
    (known : c.Has handle) :
    ∃ answer next, c.accept event = .ok (answer, next) ∧ c.Lands event answer next := by
  cases event with
  | field | method | innerClass => cases refers
  | annotationUse target descriptor =>
      refine ⟨_, _, ?_, .annotationUse target descriptor⟩
      rw [accept, requireName_of_isNamed named, (requireTarget_of_has refers).1 known]
      rfl
  | annotationValue number key value =>
      cases refers
      have inside : number < c.annotations.length := known
      obtain ⟨before, ⟨target, usage⟩, behind, stands, rfl, changed⟩ :=
        List.exists_of_modify (fun entry => (entry.1, entry.2.insert key value)) inside
      refine ⟨_, _, ?_, .annotationValue stands key value⟩
      rw [accept, if_pos inside, setElement, changed]

end OpenClass

/-! ## Ledgers -/

/-- Which handles were given out for which classes; classes are numbered in the
order in which they began. -/
structure Ledger where
  begun : Nat := 0
  /-- The classes that are open, the innermost first. -/
  openClasses : List Nat := []
  /-- The handles, each with the class that was innermost when it was given out. -/
  issued : List (Nat × Handle) := []

namespace Ledger

def innermost? (ledger : Ledger) : Option Nat :=
  ledger.openClasses.head?

/-- An accepted event with the handle in its answer. -/
def issue (ledger : Ledger) (handle? : Option Handle) : Ledger :=
  match ledger.innermost?, handle? with
  | some current, some handle => { ledger with issued := (current, handle) :: ledger.issued }
  | _, _ => ledger

def record (ledger : Ledger) : Exchange → Ledger
  | ⟨_, .error _⟩ => ledger
  | ⟨.beginClass _, .ok _⟩ =>
      { ledger with
        begun := ledger.begun + 1
        openClasses := ledger.begun :: ledger.openClasses }
  | ⟨.within _, .ok answer⟩ => ledger.issue answer.handle?
  | ⟨.endClass, .ok _⟩ => { ledger with openClasses := ledger.openClasses.tail }

/-- The ledger of a run that starts without any class. -/
def ofRun (events : List Event) : Ledger :=
  (transcript {} events).foldl record {}

/-- The ledger is one of the assembly: the handles given out for an open class are
those of its parts, and no class has the number of another. -/
structure Covers (ledger : Ledger) (assembly : Assembly) : Prop where
  parts : List.Forall₂
    (fun number (c : OpenClass) => ∀ handle, (number, handle) ∈ ledger.issued ↔ c.Has handle)
    ledger.openClasses assembly.openClasses
  distinct : ledger.openClasses.Nodup
  openBegun : ∀ number ∈ ledger.openClasses, number < ledger.begun
  issuedBegun : ∀ entry ∈ ledger.issued, entry.1 < ledger.begun

theorem covers_empty : Covers {} {} :=
  ⟨List.Forall₂.nil, List.nodup_nil, fun _ member => absurd member List.not_mem_nil,
    fun _ member => absurd member List.not_mem_nil⟩

namespace Covers

variable {ledger : Ledger} {assembly : Assembly}

theorem beginClass (covers : ledger.Covers assembly) {header : ClassHeader} {c : OpenClass}
    (opened : openClass header = .ok c) :
    Covers
      { ledger with begun := ledger.begun + 1, openClasses := ledger.begun :: ledger.openClasses }
      ⟨c :: assembly.openClasses⟩ := by
  refine ⟨List.Forall₂.cons ?_ covers.parts, ?_, ?_, ?_⟩
  · -- The number is new, so no handle was given out for it.
    intro handle
    refine iff_of_false (fun member => ?_) (OpenClass.not_has_of_openClass opened handle)
    exact Nat.lt_irrefl _ (covers.issuedBegun _ member)
  · refine List.nodup_cons.mpr ⟨fun member => ?_, covers.distinct⟩
    exact Nat.lt_irrefl _ (covers.openBegun _ member)
  · intro number member
    rcases List.mem_cons.mp member with rfl | earlier
    · exact Nat.lt_succ_self _
    · exact Nat.lt_succ_of_lt (covers.openBegun number earlier)
  · intro entry member
    exact Nat.lt_succ_of_lt (covers.issuedBegun entry member)

theorem within {c next : OpenClass} {outer : List OpenClass} (covers : ledger.Covers ⟨c :: outer⟩)
    {event : ClassEvent} {answer : Answer} (accepts : c.accept event = .ok (answer, next)) :
    (ledger.issue answer.handle?).Covers ⟨next :: outer⟩ := by
  obtain ⟨begun, numbers, issued⟩ := ledger
  obtain ⟨parts, distinct, openBegun, issuedBegun⟩ := covers
  cases parts with
  | @cons current _ others _ known knownOthers =>
  have added := OpenClass.has_of_accept accepts
  -- Only the innermost class gets a part, so the handle is taken down for it alone.
  cases given : answer.handle? with
  | none =>
      refine ⟨List.Forall₂.cons (fun handle => ?_) knownOthers, distinct, openBegun, issuedBegun⟩
      rw [added, given, or_iff_left (Option.some_ne_none handle).symm]
      exact known handle
  | some new =>
      obtain ⟨notOthers, _⟩ := List.nodup_cons.mp distinct
      have apart : ∀ number ∈ others, number ≠ current := by
        rintro number member rfl
        exact notOthers member
      refine ⟨List.Forall₂.cons (fun handle => ?_) ?_, distinct, openBegun, ?_⟩
      · rw [added, given, Option.some.injEq, ← known handle]
        change (current, handle) ∈ (current, new) :: issued ↔ _
        rw [List.mem_cons, Prod.mk.injEq, or_comm, eq_comm (a := handle)]
        simp
      · refine ((List.forall₂_and_left _ _).mpr ⟨apart, knownOthers⟩).imp ?_
        rintro number other ⟨different, knownOther⟩ handle
        rw [← knownOther handle]
        change (number, handle) ∈ (current, new) :: issued ↔ _
        simp [different]
      · intro entry member
        change entry ∈ (current, new) :: issued at member
        rcases List.mem_cons.mp member with rfl | earlier
        · exact openBegun current List.mem_cons_self
        · exact issuedBegun entry earlier

theorem endClass {c : OpenClass} {outer : List OpenClass} (covers : ledger.Covers ⟨c :: outer⟩) :
    Covers { ledger with openClasses := ledger.openClasses.tail } ⟨outer⟩ := by
  obtain ⟨begun, numbers, issued⟩ := ledger
  obtain ⟨parts, distinct, openBegun, issuedBegun⟩ := covers
  cases parts with
  | cons _ knownOthers =>
  refine ⟨knownOthers, (List.nodup_cons.mp distinct).2, ?_, issuedBegun⟩
  exact fun number member => openBegun number (List.mem_cons_of_mem _ member)

theorem step (covers : ledger.Covers assembly) (event : Event) :
    (ledger.record ⟨event, (assembly.step event).1⟩).Covers (assembly.step event).2 := by
  obtain ⟨openClasses⟩ := assembly
  cases event with
  | beginClass header =>
      simp only [Assembly.step]
      cases opened : openClass header with
      | error error => exact covers
      | ok c => exact covers.beginClass opened
  | within event =>
      cases openClasses with
      | nil => exact covers
      | cons c outer =>
          simp only [Assembly.step]
          cases accepts : c.accept event with
          | error error => exact covers
          | ok accepted => exact covers.within accepts
  | endClass =>
      cases openClasses with
      | nil => exact covers
      | cons c outer => exact covers.endClass

theorem run (covers : ledger.Covers assembly) (events : List Event) :
    ((assembly.transcript events).foldl record ledger).Covers (assembly.after events) := by
  induction events generalizing ledger assembly with
  | nil => exact covers
  | cons event events inductionHypothesis => exact inductionHypothesis (covers.step event)

end Covers

theorem covers_ofRun (events : List Event) : (ofRun events).Covers (({} : Assembly).after events) :=
  covers_empty.run events

end Ledger

/-! ## References to parts -/

/-- The innermost open class has a part with the handle. -/
def Knows (assembly : Assembly) (handle : Handle) : Prop :=
  ∃ c ∈ assembly.openClasses.head?, c.Has handle

/-- The handle was given out for the class that is the innermost now. -/
def Ledger.Gave (ledger : Ledger) (handle : Handle) : Prop :=
  ∃ current ∈ ledger.innermost?, (current, handle) ∈ ledger.issued

theorem Ledger.Covers.gave_iff {ledger : Ledger} {assembly : Assembly}
    (covers : ledger.Covers assembly) (handle : Handle) :
    ledger.Gave handle ↔ assembly.Knows handle := by
  obtain ⟨begun, numbers, issued⟩ := ledger
  obtain ⟨openClasses⟩ := assembly
  obtain ⟨parts, _, _, _⟩ := covers
  cases parts with
  | nil => simp [Gave, innermost?, Knows]
  | @cons current c _ _ known _ => simpa [Gave, innermost?, Knows] using known handle

section Step

variable {event : ClassEvent} {handle : Handle}

/-- Where no class is open, no event about a part is accepted. -/
theorem step_of_depth_eq_zero {assembly : Assembly} (closed : assembly.depth = 0)
    (event : ClassEvent) :
    assembly.step (.within event) = (.error (.noOpenClass event.kind), assembly) := by
  obtain ⟨_ | ⟨c, outer⟩⟩ := assembly
  · rfl
  · cases closed

theorem step_of_refused {assembly : Assembly} (isOpen : 0 < assembly.depth) {error : Error}
    (refused : ∀ c ∈ assembly.openClasses.head?, c.accept event = .error error) :
    assembly.step (.within event) = (.error error, assembly) := by
  obtain ⟨_ | ⟨c, outer⟩⟩ := assembly
  · exact absurd isOpen (Nat.lt_irrefl 0)
  · simp only [step, refused c rfl]

theorem step_of_not_isNamed (refers : event.handle? = some handle) {assembly : Assembly}
    (isOpen : 0 < assembly.depth) (unnamed : event.isNamed = false) :
    assembly.step (.within event) = (.error (.missingName .annotationUse), assembly) :=
  step_of_refused isOpen fun _ _ => OpenClass.accept_of_not_isNamed refers unnamed

theorem step_of_not_knows (refers : event.handle? = some handle) {assembly : Assembly}
    (isOpen : 0 < assembly.depth) (named : event.isNamed = true)
    (missing : ¬assembly.Knows handle) :
    assembly.step (.within event) = (.error handle.unknown, assembly) := by
  apply step_of_refused isOpen
  intro c innermost
  exact OpenClass.accept_of_not_has refers named fun has => missing ⟨c, innermost, has⟩

theorem step_of_knows (refers : event.handle? = some handle) {assembly : Assembly}
    (named : event.isNamed = true) (knows : assembly.Knows handle) :
    ∃ c outer answer next, assembly.openClasses = c :: outer ∧
      assembly.step (.within event) = (.ok answer, ⟨next :: outer⟩) ∧
      c.Lands event answer next := by
  obtain ⟨_ | ⟨c, outer⟩⟩ := assembly
  · obtain ⟨_, member, _⟩ := knows
    cases member
  obtain ⟨_, ⟨⟩, has⟩ := knows
  obtain ⟨answer, next, accepts, lands⟩ := OpenClass.accept_of_has refers named has
  exact ⟨c, outer, answer, next, rfl, by simp only [step, accepts], lands⟩

theorem tail_step_within (assembly : Assembly) (event : ClassEvent) :
    (assembly.step (.within event)).2.openClasses.tail = assembly.openClasses.tail := by
  obtain ⟨_ | ⟨c, outer⟩⟩ := assembly
  · rfl
  simp only [step]
  cases c.accept event with
  | error error => rfl
  | ok accepted => rfl

end Step

/-- In every run, an event that refers to a part by its handle lands on that part of the
innermost class if the handle was given out for this class.  If it was not, the event is
refused and changes nothing, whatever other class the handle was given out for.  An
annotation without a name is refused in any case, and so is an event where no class is
open.  Never a class other than the innermost is reached. -/
theorem handle_known_iff_given_for_innermost (events : List Event) {event : ClassEvent}
    {handle : Handle} (refers : event.handle? = some handle) :
    let assembly := ({} : Assembly).after events
    let ledger := Ledger.ofRun events
    (assembly.depth = 0 →
        assembly.step (.within event) = (.error (.noOpenClass event.kind), assembly)) ∧
      (0 < assembly.depth → event.isNamed = false →
        assembly.step (.within event) = (.error (.missingName .annotationUse), assembly)) ∧
      (0 < assembly.depth → event.isNamed = true → ¬ledger.Gave handle →
        assembly.step (.within event) = (.error handle.unknown, assembly)) ∧
      (event.isNamed = true → ledger.Gave handle →
        ∃ c outer answer next, assembly.openClasses = c :: outer ∧
          assembly.step (.within event) = (.ok answer, ⟨next :: outer⟩) ∧
          c.Lands event answer next) ∧
      (assembly.step (.within event)).2.openClasses.tail = assembly.openClasses.tail := by
  intro assembly ledger
  have gave : ledger.Gave handle ↔ assembly.Knows handle :=
    (Ledger.covers_ofRun events).gave_iff handle
  rw [gave]
  exact ⟨fun closed => step_of_depth_eq_zero closed event, step_of_not_isNamed refers,
    step_of_not_knows refers, step_of_knows refers, tail_step_within assembly event⟩

/-- A class with a field and a class inside it. -/
def boxWithPart : List Event :=
  [.beginClass { name := "org/Box" },
    .within (.field { name := "size", descriptor := "I" }),
    .beginClass { name := "org/Box$Part" }]

/-- While the inner class has no field, it does not know the field of the outer one. -/
theorem handle_known_iff_given_for_innermost_part :
    let event : ClassEvent := .annotationUse (.field 0) "LTag;"
    let assembly := ({} : Assembly).after boxWithPart
    event.handle? = some (.field 0) ∧ (Ledger.ofRun boxWithPart).issued = [(0, .field 0)] ∧
      0 < assembly.depth ∧ event.isNamed = true ∧ ¬(Ledger.ofRun boxWithPart).Gave (.field 0) ∧
      assembly.step (.within event) = (.error (.unknownHandle .field 0), assembly) := by
  intro event assembly
  have innermost : (Ledger.ofRun boxWithPart).innermost? = some 1 := by decide +kernel
  have issued : (Ledger.ofRun boxWithPart).issued = [(0, .field 0)] := by decide +kernel
  have foreign : ¬(Ledger.ofRun boxWithPart).Gave (.field 0) := by
    rw [Ledger.Gave, innermost, issued]
    decide
  have refers : event.handle? = some (.field 0) := rfl
  have isOpen : 0 < assembly.depth := by decide +kernel
  have named : event.isNamed = true := by decide
  have judged := handle_known_iff_given_for_innermost boxWithPart refers
  exact ⟨refers, issued, isOpen, named, foreign, judged.2.2.1 isOpen named foreign⟩

/-- A handle that was given out for one class can be accepted for another: the field of
the outer class is taken for the field of the inner one with the same number. -/
theorem foreign_handle_accepted :
    ¬∀ (events : List Event) (event : ClassEvent) (handle : Handle) (issuer current : Nat),
      event.handle? = some handle → event.isNamed = true →
        (issuer, handle) ∈ (Ledger.ofRun events).issued →
          (Ledger.ofRun events).innermost? = some current → issuer ≠ current →
            (({} : Assembly).after events).step (.within event) =
              (.error handle.unknown, ({} : Assembly).after events) := by
  intro claimed
  let events := boxWithPart ++ [.within (.field { name := "weight", descriptor := "J" })]
  let event : ClassEvent := .annotationUse (.field 0) "LTag;"
  have refused := claimed events event (.field 0) 0 1 rfl (by decide) (by decide +kernel)
    (by decide +kernel) (by decide)
  have accepts :
      ((({} : Assembly).after events).step (.within event)).1.toOption.isSome = true := by
    decide +kernel
  rw [refused] at accepts
  cases accepts

end JvmDiff.Assembly
