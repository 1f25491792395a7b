import JvmDiff.Proofs.Assembly.Acceptance
import JvmDiff.Proofs.Class.Blueprint

/-!
# Transcripts of assemblies

A transcript lists events with the responses to them.  The class that a sequence of events
assembles can be read off its transcript alone: its parts are those of the accepted events, and
each annotation belongs to the part whose handle it names.
-/

namespace JvmDiff.Assembly

/-- An event and the response to it. -/
structure Exchange where
  event : Event
  response : Except Error Answer
deriving Repr

namespace Exchange

/-- An accepted field with its handle. -/
def field? : Exchange → Option (Nat × FieldHeader)
  | ⟨.within (.field header), .ok (.field handle)⟩ => some (handle, header)
  | _ => none

/-- An accepted method or constructor with its handle. -/
def member? : Exchange → Option (Nat × MethodHeader)
  | ⟨.within (.method header), .ok (.member handle)⟩ => some (handle, header)
  | _ => none

/-- An accepted annotation: its handle, its target and its descriptor. -/
def annotationUse? : Exchange → Option (Nat × Target × String)
  | ⟨.within (.annotationUse target descriptor), .ok (.annotationUse handle)⟩ =>
      some (handle, target, descriptor)
  | _ => none

/-- An accepted element value with the handle of its annotation. -/
def value? : Exchange → Option (Nat × String × ElementValue)
  | ⟨.within (.annotationValue handle key value), .ok .done⟩ => some (handle, key, value)
  | _ => none

/-- An accepted inner class, unless it is there for lambda expressions only. -/
def innerClass? : Exchange → Option (String × Access)
  | ⟨.within (.innerClass name access), .ok .done⟩ =>
      if name = "java/lang/invoke/MethodHandles$Lookup" then none else some (name, access)
  | _ => none

end Exchange

/-- The exchanges that a sequence of events leads to. -/
def transcript (assembly : Assembly) : List Event → List Exchange
  | [] => []
  | event :: events =>
      ⟨event, (assembly.step event).1⟩ :: transcript (assembly.step event).2 events

/-- The assembly after a sequence of events. -/
def after (assembly : Assembly) (events : List Event) : Assembly :=
  events.foldl (fun assembly event => (assembly.step event).2) assembly

/-! ## The class of a transcript -/

/-- What the signature of a class says, if there is one. -/
def ClassHeader.said? (header : ClassHeader) : Option Signature.ClassSignature :=
  (Signature.stated? header.signature).bind fun signature =>
    (Signature.decodeClass signature).toOption

/-- The type of a field that was accepted. -/
def FieldHeader.type (header : FieldHeader) : String :=
  (Signature.fieldType header.descriptor header.signature).toOption.getD ""

/-- The types of a method that was accepted. -/
def MethodHeader.types (header : MethodHeader) : Signature.MethodSignature :=
  (Signature.methodType header.descriptor header.signature).toOption.getD ⟨"", "", "", []⟩

/-- What was accepted, in the order of events. -/
structure Accepted where
  fields : List (Nat × FieldHeader)
  members : List (Nat × MethodHeader)
  annotationUses : List (Nat × Target × String)
  values : List (Nat × String × ElementValue)
  innerClasses : List (String × Access)

def accepted (exchanges : List Exchange) : Accepted where
  fields := exchanges.filterMap Exchange.field?
  members := exchanges.filterMap Exchange.member?
  annotationUses := exchanges.filterMap Exchange.annotationUse?
  values := exchanges.filterMap Exchange.value?
  innerClasses := exchanges.filterMap Exchange.innerClass?

namespace Accepted

variable (parts : Accepted)

/-- The elements set on the annotation with a handle, in the order of events. -/
def elementsOf (handle : Nat) : List (String × ElementValue) :=
  (parts.values.filter fun value => value.1 = handle).map Prod.snd

/-- An accepted annotation with all of its elements. -/
def usage (use : Nat × Target × String) : AnnotationUse :=
  (AnnotationUse.ofDescriptor use.2.2).insertAll (parts.elementsOf use.1)

/-- The accepted annotations of a target. -/
def annotationsOn (target : Target) : List AnnotationUse :=
  (parts.annotationUses.filter fun use => use.2.1 = target).map parts.usage

/-- The class that a header begins and the accepted parts fill. -/
def blueprint (header : ClassHeader) : Class.Blueprint where
  name := header.name
  access := header.access
  version := header.version
  typeParameters := (header.said?.map Signature.ClassSignature.typeParameters).getD ""
  superclass := header.superclass
  interfaces :=
    (header.said?.map Signature.ClassSignature.interfaces).getD header.interfaces
  annotations := parts.annotationsOn .wholeClass
  fields := parts.fields.map fun (handle, field) =>
    { field.declared field.type with annotations := parts.annotationsOn (.field handle) }
  constructors :=
    (parts.members.filter fun (_, member) => member.name = Member.constructorName).map
      fun (handle, member) =>
        { member.constructor member.types with
          annotations := parts.annotationsOn (.member handle) }
  methods :=
    (parts.members.filter fun (_, member) => member.name ≠ Member.constructorName).map
      fun (handle, member) =>
        { member.method header.access member.types with
          annotations := parts.annotationsOn (.member handle) }
  innerClasses := parts.innerClasses

end Accepted

/-! ## Handles as positions -/

section Numbered

variable {α β : Type}

/-- The numbers count the entries from zero. -/
def Numbered (entries : List (Nat × β)) : Prop :=
  entries.map Prod.fst = List.range entries.length

theorem numbered_append {entries : List (Nat × β)} (numbered : Numbered entries) (entry : β) :
    Numbered (entries ++ [(entries.length, entry)]) := by
  rw [Numbered] at *
  simp [numbered, List.range_succ]

theorem fst_getElem_of_numbered {entries : List (Nat × β)} (numbered : Numbered entries)
    {position : Nat} (inside : position < entries.length) :
    (entries[position]).1 = position := by
  have shown : (entries.map Prod.fst)[position]? = some position := by
    rw [numbered, List.getElem?_range inside]
  simpa [inside] using shown

theorem mapIdx_of_numbered {γ : Type} {entries : List (Nat × β)} (numbered : Numbered entries)
    (f : Nat → α → γ) (g : Nat × β → α) :
    (entries.map g).mapIdx f = entries.map fun entry => f entry.1 (g entry) := by
  apply List.ext_getElem
  · simp
  · intro position inside _
    have within : position < entries.length := by
      simpa using inside
    simp [fst_getElem_of_numbered numbered within]

theorem modify_of_numbered {entries : List (Nat × β)} (numbered : Numbered entries)
    (handle : Nat) (f : α → α) (g : Nat × β → α) :
    (entries.map g).modify handle f =
      entries.map fun entry => if entry.1 = handle then f (g entry) else g entry := by
  apply List.ext_getElem
  · simp
  · intro position inside _
    have within : position < entries.length := by
      simpa using inside
    simp only [List.getElem_modify, List.getElem_map, fst_getElem_of_numbered numbered within]
    by_cases same : handle = position
    · simp [same]
    · simp [same, Ne.symm same]

end Numbered

/-! ## One more exchange -/

section Append

variable (exchanges : List Exchange)

theorem accepted_concat (exchange : Exchange) :
    accepted (exchanges ++ [exchange]) =
      { fields := (accepted exchanges).fields ++ exchange.field?.toList
        members := (accepted exchanges).members ++ exchange.member?.toList
        annotationUses := (accepted exchanges).annotationUses ++ exchange.annotationUse?.toList
        values := (accepted exchanges).values ++ exchange.value?.toList
        innerClasses := (accepted exchanges).innerClasses ++ exchange.innerClass?.toList } := by
  have singleton {β : Type} (part? : Exchange → Option β) :
      [exchange].filterMap part? = (part? exchange).toList := by
    cases shown : part? exchange <;> simp [shown]
  simp only [accepted, List.filterMap_append, singleton]

/-- An exchange that brings no part changes nothing. -/
theorem accepted_of_silent {exchange : Exchange} (field : exchange.field? = none)
    (member : exchange.member? = none) (annotationUse : exchange.annotationUse? = none)
    (value : exchange.value? = none) (innerClass : exchange.innerClass? = none) :
    accepted (exchanges ++ [exchange]) = accepted exchanges := by
  rw [accepted_concat, field, member, annotationUse, value, innerClass]
  simp only [Option.toList_none, List.append_nil]

theorem accepted_field (header : FieldHeader) (handle : Nat) :
    accepted (exchanges ++ [⟨.within (.field header), .ok (.field handle)⟩]) =
      { accepted exchanges with
        fields := (accepted exchanges).fields ++ [(handle, header)] } := by
  rw [accepted_concat]
  change Accepted.mk (_ ++ [(handle, header)]) (_ ++ []) (_ ++ []) (_ ++ []) (_ ++ []) = _
  simp only [List.append_nil]

theorem accepted_member (header : MethodHeader) (handle : Nat) :
    accepted (exchanges ++ [⟨.within (.method header), .ok (.member handle)⟩]) =
      { accepted exchanges with
        members := (accepted exchanges).members ++ [(handle, header)] } := by
  rw [accepted_concat]
  change Accepted.mk (_ ++ []) (_ ++ [(handle, header)]) (_ ++ []) (_ ++ []) (_ ++ []) = _
  simp only [List.append_nil]

theorem accepted_annotationUse (target : Target) (descriptor : String) (handle : Nat) :
    accepted
        (exchanges ++
          [⟨.within (.annotationUse target descriptor), .ok (.annotationUse handle)⟩]) =
      { accepted exchanges with
        annotationUses := (accepted exchanges).annotationUses ++
          [(handle, target, descriptor)] } := by
  rw [accepted_concat]
  change Accepted.mk (_ ++ []) (_ ++ []) (_ ++ [(handle, target, descriptor)]) (_ ++ [])
    (_ ++ []) = _
  simp only [List.append_nil]

theorem accepted_value (handle : Nat) (key : String) (value : ElementValue) :
    accepted (exchanges ++ [⟨.within (.annotationValue handle key value), .ok .done⟩]) =
      { accepted exchanges with
        values := (accepted exchanges).values ++ [(handle, key, value)] } := by
  rw [accepted_concat]
  change Accepted.mk (_ ++ []) (_ ++ []) (_ ++ []) (_ ++ [(handle, key, value)]) (_ ++ []) = _
  simp only [List.append_nil]

theorem innerClass?_eq (name : String) (access : Access) :
    Exchange.innerClass? ⟨.within (.innerClass name access), .ok .done⟩ =
      if OpenClass.skipsInnerClass name = true then none else some (name, access) := by
  rw [OpenClass.skipsInnerClass]
  simp only [decide_eq_true_eq]
  rfl

theorem accepted_innerClass {name : String} (access : Access)
    (counts : OpenClass.skipsInnerClass name = false) :
    accepted (exchanges ++ [⟨.within (.innerClass name access), .ok .done⟩]) =
      { accepted exchanges with
        innerClasses := (accepted exchanges).innerClasses ++ [(name, access)] } := by
  rw [accepted_concat, innerClass?_eq, counts]
  change Accepted.mk (_ ++ []) (_ ++ []) (_ ++ []) (_ ++ []) (_ ++ [(name, access)]) = _
  simp only [List.append_nil]

theorem accepted_lambdaLookup {name : String} (access : Access)
    (skipped : OpenClass.skipsInnerClass name = true) :
    accepted (exchanges ++ [⟨.within (.innerClass name access), .ok .done⟩]) =
      accepted exchanges := by
  apply accepted_of_silent exchanges rfl rfl rfl rfl
  rw [innerClass?_eq, if_pos skipped]

theorem accepted_skipped (event : Event) :
    accepted (exchanges ++ [⟨event, .ok .skipped⟩]) = accepted exchanges := by
  rcases event with _ | (_ | _ | _ | _ | _) | _ <;>
    exact accepted_of_silent exchanges rfl rfl rfl rfl rfl

theorem accepted_refused (event : Event) (error : Error) :
    accepted (exchanges ++ [⟨event, .error error⟩]) = accepted exchanges := by
  rcases event with _ | (_ | _ | _ | _ | _) | _ <;>
    exact accepted_of_silent exchanges rfl rfl rfl rfl rfl

end Append

/-! ## What an open class and its transcript have in common -/

/-- The head of an open class with the accepted inner classes. -/
def ClassHeader.head (header : ClassHeader) (parts : Accepted) : Class.Declared where
  name := header.name
  access := header.access
  version := header.version
  typeParameters := (header.said?.map Signature.ClassSignature.typeParameters).getD ""
  superclass := header.superclass
  interfaces :=
    (header.said?.map Signature.ClassSignature.interfaces).getD header.interfaces
  innerClasses := parts.innerClasses.map fun entry => InnerClass.ofName entry.1 entry.2

/-- An open class holds the accepted parts, each at the position that is its
handle. -/
structure Reflects (header : ClassHeader) (parts : Accepted) (c : OpenClass) : Prop where
  head : c.head = header.head parts
  fields : c.fields = parts.fields.map fun field => field.2.declared field.2.type
  fieldsNumbered : Numbered parts.fields
  members : c.members =
    parts.members.map fun member => member.2.declared header.access member.2.types
  membersNumbered : Numbered parts.members
  annotations : c.annotations =
    parts.annotationUses.map fun use => (use.2.1, parts.usage use)
  annotationsNumbered : Numbered parts.annotationUses
  /-- Values were set on annotations that are there. -/
  valuesKnown : ∀ value ∈ parts.values, value.1 < parts.annotationUses.length

namespace Reflects

variable {header : ClassHeader} {parts : Accepted} {c : OpenClass}

/-- A class that has just begun. -/
theorem of_openClass (opened : openClass header = .ok c) : Reflects header (accepted []) c := by
  -- The cases below differ in the head only.
  have rest : ∀ head : Class.Declared, head = header.head (accepted []) →
      Reflects header (accepted []) { head := head } := by
    intro head headEq
    exact ⟨headEq, rfl, rfl, rfl, rfl, rfl, rfl, by simp [accepted]⟩
  rw [openClass] at opened
  cases named : requireName .wholeClass header.name with
  | error error =>
      rw [named] at opened
      cases opened
  | ok _ =>
      rw [named] at opened
      cases stated : Signature.stated? header.signature with
      | none =>
          rw [stated] at opened
          cases opened
          apply rest
          simp [ClassHeader.head, ClassHeader.said?, stated, accepted]
      | some signature =>
          rw [stated] at opened
          cases read : Signature.decodeClass signature with
          | error malformed =>
              simp only [read] at opened
              cases opened
          | ok said =>
              simp only [read] at opened
              cases opened
              apply rest
              simp [ClassHeader.head, ClassHeader.said?, stated, read, Except.toOption, accepted]

theorem field (reflects : Reflects header parts c) {field : FieldHeader} {type : String}
    (typed : Signature.fieldType field.descriptor field.signature = .ok type) :
    Reflects header { parts with fields := parts.fields ++ [(c.fields.length, field)] }
      { c with fields := c.fields ++ [field.declared type] } := by
  have length : c.fields.length = parts.fields.length := by
    rw [reflects.fields, List.length_map]
  have sameType : field.type = type := by
    rw [FieldHeader.type, typed]
    rfl
  refine { reflects with fields := ?_, fieldsNumbered := ?_ }
  · rw [reflects.fields, List.map_append, List.map_singleton, sameType]
  · rw [length]
    exact numbered_append reflects.fieldsNumbered field

theorem member (reflects : Reflects header parts c) {member : MethodHeader}
    {types : Signature.MethodSignature}
    (typed : Signature.methodType member.descriptor member.signature = .ok types) :
    Reflects header { parts with members := parts.members ++ [(c.members.length, member)] }
      { c with members := c.members ++ [member.declared c.head.access types] } := by
  have length : c.members.length = parts.members.length := by
    rw [reflects.members, List.length_map]
  have sameTypes : member.types = types := by
    rw [MethodHeader.types, typed]
    rfl
  have sameAccess : c.head.access = header.access := by
    rw [reflects.head]
    rfl
  refine { reflects with members := ?_, membersNumbered := ?_ }
  · rw [reflects.members, List.map_append, List.map_singleton, sameTypes, sameAccess]
  · rw [length]
    exact numbered_append reflects.membersNumbered member

/-- The next handle has no elements. -/
theorem elementsOf_length (reflects : Reflects header parts c) :
    parts.elementsOf parts.annotationUses.length = [] := by
  rw [Accepted.elementsOf, List.map_eq_nil_iff, List.filter_eq_nil_iff]
  intro value member
  have known := reflects.valuesKnown value member
  simp only [decide_eq_true_eq]
  omega

theorem annotationUse (reflects : Reflects header parts c) (target : Target)
    (descriptor : String) :
    Reflects header
      { parts with
        annotationUses := parts.annotationUses ++ [(c.annotations.length, target, descriptor)] }
      { c with
        annotations := c.annotations ++ [(target, AnnotationUse.ofDescriptor descriptor)] } := by
  have length : c.annotations.length = parts.annotationUses.length := by
    rw [reflects.annotations, List.length_map]
  -- The new annotation is empty, because no value waits for its handle.
  have blank : parts.usage (c.annotations.length, target, descriptor) =
      AnnotationUse.ofDescriptor descriptor := by
    rw [Accepted.usage, length, reflects.elementsOf_length]
    rfl
  refine { reflects with annotations := ?_, annotationsNumbered := ?_, valuesKnown := ?_ }
  · rw [List.map_append, List.map_singleton, ← blank]
    exact congrArg (· ++ _) reflects.annotations
  · rw [length]
    exact numbered_append reflects.annotationsNumbered (target, descriptor)
  · intro value isMember
    have known := reflects.valuesKnown value isMember
    rw [List.length_append]
    omega

/-- A value joins the elements of its annotation and of no other. -/
theorem usage_of_value (handle : Nat) (key : String) (value : ElementValue)
    (use : Nat × Target × String) :
    ({ parts with values := parts.values ++ [(handle, key, value)] } : Accepted).usage use =
      if use.1 = handle then (parts.usage use).insert key value
      else parts.usage use := by
  by_cases same : use.1 = handle
  · simp [Accepted.usage, Accepted.elementsOf, AnnotationUse.insertAll, same]
  · simp [Accepted.usage, Accepted.elementsOf, same, Ne.symm same]

theorem annotationValue (reflects : Reflects header parts c) {handle : Nat}
    (known : handle < c.annotations.length) (key : String) (value : ElementValue) :
    Reflects header { parts with values := parts.values ++ [(handle, key, value)] }
      (c.setElement handle key value) := by
  have length : c.annotations.length = parts.annotationUses.length := by
    rw [reflects.annotations, List.length_map]
  refine { reflects with annotations := ?_, valuesKnown := ?_ }
  · rw [OpenClass.setElement, reflects.annotations,
      modify_of_numbered reflects.annotationsNumbered]
    apply List.map_congr_left
    intro use _
    rw [usage_of_value]
    by_cases same : use.1 = handle
    · rw [if_pos same, if_pos same]
    · rw [if_neg same, if_neg same]
  · intro other member
    rcases List.mem_append.mp member with earlier | last
    · exact reflects.valuesKnown other earlier
    · rw [List.mem_singleton.mp last, ← length]
      exact known

theorem innerClass (reflects : Reflects header parts c) (name : String) (access : Access) :
    Reflects header { parts with innerClasses := parts.innerClasses ++ [(name, access)] }
      { c with
        head :=
          { c.head with
            innerClasses := c.head.innerClasses ++ [InnerClass.ofName name access] } } := by
  refine { reflects with head := ?_ }
  rw [reflects.head]
  simp [ClassHeader.head]

/-- One accepted event. -/
theorem accept {exchanges : List Exchange} (reflects : Reflects header (accepted exchanges) c)
    {event : ClassEvent} {answer : Answer} {next : OpenClass}
    (accepts : c.accept event = .ok (answer, next)) :
    Reflects header (accepted (exchanges ++ [⟨.within event, .ok answer⟩])) next := by
  cases event with
  | field header =>
      rcases OpenClass.accept_field accepts with ⟨_, rfl, rfl⟩ | ⟨type, typed, rfl, rfl⟩
      · rw [accepted_skipped]
        exact reflects
      · rw [accepted_field]
        exact reflects.field typed
  | method header =>
      rcases OpenClass.accept_method accepts with ⟨_, rfl, rfl⟩ | ⟨types, typed, rfl, rfl⟩
      · rw [accepted_skipped]
        exact reflects
      · rw [accepted_member]
        exact reflects.member typed
  | annotationUse target descriptor =>
      obtain ⟨_, rfl, rfl⟩ := OpenClass.accept_annotationUse accepts
      rw [accepted_annotationUse]
      exact reflects.annotationUse target descriptor
  | annotationValue handle key value =>
      obtain ⟨known, rfl, rfl⟩ := OpenClass.accept_annotationValue accepts
      rw [accepted_value]
      exact reflects.annotationValue known key value
  | innerClass name access =>
      obtain ⟨rfl, ⟨skips, rfl⟩ | ⟨counts, rfl⟩⟩ := OpenClass.accept_innerClass accepts
      · rw [accepted_lambdaLookup exchanges access skips]
        exact reflects
      · rw [accepted_innerClass exchanges access counts]
        exact reflects.innerClass name access

/-- The annotations of a target, read off an open class and off the accepted
parts. -/
theorem annotationsOf_eq (reflects : Reflects header parts c) (target : Target) :
    c.annotationsOf target = parts.annotationsOn target := by
  rw [OpenClass.annotationsOf, reflects.annotations, Accepted.annotationsOn, List.filter_map,
    List.map_map]
  rfl

theorem annotatedFields_eq (reflects : Reflects header parts c) :
    (c.fields.mapIdx fun handle field =>
      { field with annotations := c.annotationsOf (.field handle) }) =
      (parts.blueprint header).fields := by
  rw [reflects.fields, mapIdx_of_numbered reflects.fieldsNumbered]
  apply List.map_congr_left
  intro field _
  rw [reflects.annotationsOf_eq]

theorem annotatedMembers_eq (reflects : Reflects header parts c) :
    c.annotatedMembers = parts.members.map fun member =>
      { member.2.declared header.access member.2.types with
        annotations := parts.annotationsOn (.member member.1) } := by
  rw [OpenClass.annotatedMembers, reflects.members,
    mapIdx_of_numbered reflects.membersNumbered]
  apply List.map_congr_left
  intro member _
  rw [reflects.annotationsOf_eq]

theorem constructors_eq (reflects : Reflects header parts c) :
    c.annotatedMembers.filter Member.Declared.isConstructor =
      (parts.blueprint header).constructors := by
  rw [reflects.annotatedMembers_eq, List.filter_map]
  have sameFilter : parts.members.filter
        (Member.Declared.isConstructor ∘ fun member : Nat × MethodHeader =>
          { member.2.declared header.access member.2.types with
            annotations := parts.annotationsOn (.member member.1) }) =
      parts.members.filter fun member => member.2.name = Member.constructorName := by
    apply List.filter_congr
    intro member _
    exact member.2.isConstructor_declared header.access member.2.types
  rw [sameFilter]
  apply List.map_congr_left
  intro member isMember
  have isConstructor : member.2.name = Member.constructorName := by
    simpa using (List.mem_filter.mp isMember).2
  rw [MethodHeader.declared, if_pos isConstructor]

theorem methods_eq (reflects : Reflects header parts c) :
    (c.annotatedMembers.filter fun member => !member.isConstructor) =
      (parts.blueprint header).methods := by
  rw [reflects.annotatedMembers_eq, List.filter_map]
  have sameFilter : parts.members.filter
        ((fun member => !member.isConstructor) ∘ fun member : Nat × MethodHeader =>
          { member.2.declared header.access member.2.types with
            annotations := parts.annotationsOn (.member member.1) }) =
      parts.members.filter fun member => member.2.name ≠ Member.constructorName := by
    apply List.filter_congr
    intro member _
    have same := member.2.isConstructor_declared header.access member.2.types
    simpa [Member.Declared.isConstructor] using congrArg not same
  rw [sameFilter]
  apply List.map_congr_left
  intro member isMember
  have isMethod : member.2.name ≠ Member.constructorName := by
    simpa using (List.mem_filter.mp isMember).2
  rw [MethodHeader.declared, if_neg isMethod]

/-- Closing a class builds what was accepted. -/
theorem close_eq (reflects : Reflects header parts c) :
    c.close = (parts.blueprint header).build := by
  have methods : c.annotatedMembers.filter (not ∘ Member.Declared.isConstructor) =
      (parts.blueprint header).methods := reflects.methods_eq
  rw [OpenClass.close, List.partition_eq_filter_filter]
  simp only [reflects.annotatedFields_eq, reflects.constructors_eq, methods]
  rw [reflects.annotationsOf_eq, reflects.head]
  rfl

end Reflects

/-! ## From the beginning of a class to its end -/

/-- The event neither ends the innermost class nor opens a further one. -/
def Event.StaysInside : Event → Prop
  | .beginClass header => ∃ error, openClass header = .error error
  | .within _ => True
  | .endClass => False

theorem Reflects.step {header : ClassHeader} {exchanges : List Exchange} {c : OpenClass}
    (reflects : Reflects header (accepted exchanges) c) (outer : List OpenClass) {event : Event}
    (inside : event.StaysInside) :
    ∃ next, (step ⟨c :: outer⟩ event).2 = ⟨next :: outer⟩ ∧
      Reflects header (accepted (exchanges ++ [⟨event, (step ⟨c :: outer⟩ event).1⟩])) next := by
  cases event with
  | beginClass inner =>
      obtain ⟨error, refused⟩ := inside
      refine ⟨c, ?_, ?_⟩
      · rw [Assembly.step, refused]
      · rw [Assembly.step, refused, accepted_refused]
        exact reflects
  | within event =>
      cases accepts : c.accept event with
      | error error =>
          have stepped : Assembly.step ⟨c :: outer⟩ (.within event) =
              (.error error, ⟨c :: outer⟩) := by
            simp only [Assembly.step, accepts]
          refine ⟨c, congrArg Prod.snd stepped, ?_⟩
          rw [stepped, accepted_refused]
          exact reflects
      | ok accepted =>
          have stepped : Assembly.step ⟨c :: outer⟩ (.within event) =
              (.ok accepted.1, ⟨accepted.2 :: outer⟩) := by
            simp only [Assembly.step, accepts]
          refine ⟨accepted.2, congrArg Prod.snd stepped, ?_⟩
          rw [stepped]
          exact reflects.accept accepts
  | endClass => exact inside.elim

theorem Reflects.run {header : ClassHeader} {exchanges : List Exchange} {c : OpenClass}
    (reflects : Reflects header (accepted exchanges) c) (outer : List OpenClass)
    {events : List Event} (inside : ∀ event ∈ events, event.StaysInside) :
    ∃ last, after ⟨c :: outer⟩ events = ⟨last :: outer⟩ ∧
      Reflects header (accepted (exchanges ++ transcript ⟨c :: outer⟩ events)) last := by
  -- On the events; each exchange moves from the events to come to those that are past.
  induction events generalizing exchanges c with
  | nil =>
      refine ⟨c, rfl, ?_⟩
      rw [transcript, List.append_nil]
      exact reflects
  | cons event events inductionHypothesis =>
      obtain ⟨next, stepped, nextReflects⟩ := reflects.step outer (inside event List.mem_cons_self)
      have rest := inductionHypothesis nextReflects
        fun later member => inside later (List.mem_cons_of_mem event member)
      rw [after, List.foldl_cons, stepped, transcript, stepped]
      rwa [List.append_assoc] at rest

theorem openClass_of_begins {outer : Assembly} {header : ClassHeader}
    (begins : (outer.step (.beginClass header)).1 = .ok .done) :
    ∃ c, openClass header = .ok c ∧
      (outer.step (.beginClass header)).2 = ⟨c :: outer.openClasses⟩ := by
  rw [step] at begins ⊢
  cases opened : openClass header with
  | error error =>
      rw [opened] at begins
      cases begins
  | ok c => exact ⟨c, rfl, rfl⟩

end JvmDiff.Assembly
