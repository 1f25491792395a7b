import JvmDiff.Assembly.Error
import JvmDiff.Class
import JvmDiff.Signature.Rendering
import JvmDiff.Text.Blank

/-!
# Assembling classes from events

What a class file holds is told as a sequence of events: a class begins, its fields, methods,
annotations and inner classes follow, the class ends.  Classes may nest; every event concerns the
innermost open class.  An accepted event about a member or an annotation answers with a handle,
the number of the member or annotation in its class, by which later events refer to it.

`Assembly.step` takes one event.  It answers with an error, or with what was accepted, and with
the state that follows.
-/

namespace JvmDiff

namespace Assembly

structure ClassHeader where
  name : String
  access : Access := ⟨0⟩
  /-- The major version of the class file, zero when it is not known. -/
  version : UInt32 := 0
  signature : Option String := none
  superclass : Option String := none
  interfaces : List String := []
deriving Repr

structure FieldHeader where
  name : String
  access : Access := ⟨0⟩
  descriptor : String
  signature : Option String := none
  constant : Option Constant := none
deriving Repr

/-- The head of a method or a constructor. -/
structure MethodHeader where
  name : String
  access : Access := ⟨0⟩
  descriptor : String
  signature : Option String := none
  exceptions : List String := []
deriving Repr

/-- What an annotation is attached to. -/
inductive Target where
  | wholeClass
  | field (handle : Nat)
  | member (handle : Nat)
deriving DecidableEq, Repr

/-- An event that concerns the innermost open class. -/
inductive ClassEvent where
  | field (header : FieldHeader)
  | method (header : MethodHeader)
  | annotationUse (target : Target) (descriptor : String)
  | annotationValue (handle : Nat) (key : String) (value : ElementValue)
  | innerClass (name : String) (access : Access)
deriving Repr

def ClassEvent.kind : ClassEvent → EventKind
  | .field _ => .field
  | .method _ => .method
  | .annotationUse _ _ => .annotationUse
  | .annotationValue _ _ _ => .annotationValue
  | .innerClass _ _ => .innerClass

/-- An event. -/
inductive Event where
  | beginClass (header : ClassHeader)
  | within (event : ClassEvent)
  | endClass
deriving Repr

/-- What an accepted event answers. -/
inductive Answer where
  | done
  /-- The member is not part of the model. -/
  | skipped
  | field (handle : Nat)
  | member (handle : Nat)
  | annotationUse (handle : Nat)
  | ended (result : Class)
deriving Repr

/-- A class under construction: its head and inner classes, its members in the
order of their handles, and its annotations in the order of theirs. -/
structure OpenClass where
  head : Class.Declared
  fields : List Field.Declared := []
  members : List Member.Declared := []
  annotations : List (Target × AnnotationUse) := []
deriving Repr

/-- A name that is not blank. -/
def requireName (part : Part) (name : String) : Except Error Unit :=
  if Text.isBlank name then .error (.missingName part) else .ok ()

/-- A decoded type, its faults among the errors of an event. -/
def decoded {α : Type} (result : Except Signature.Malformed α) : Except Error α :=
  result.mapError .malformedSignature

/-- The class that a header opens.  A signature speaks for the interfaces. -/
def openClass (header : ClassHeader) : Except Error OpenClass := do
  requireName .wholeClass header.name
  let head : Class.Declared :=
    { name := header.name
      access := header.access
      version := header.version
      superclass := header.superclass
      interfaces := header.interfaces }
  match Signature.stated? header.signature with
  | none => return { head := head }
  | some signature =>
      let read ← decoded (Signature.decodeClass signature)
      return {
        head :=
          { head with typeParameters := read.typeParameters, interfaces := read.interfaces } }

namespace OpenClass

/-- The field is the list of constants that every enumeration has. -/
def skipsField (c : OpenClass) (name : String) : Bool :=
  name = "$VALUES" && c.head.access.has Access.accEnum

/-- The field as declared, none when it is not part of the model. -/
def declareField (c : OpenClass) (header : FieldHeader) :
    Except Error (Option Field.Declared) := do
  requireName .field header.name
  if c.skipsField header.name then
    return none
  let type ← decoded (Signature.fieldType header.descriptor header.signature)
  return some
    { name := header.name
      type := type
      access := header.access
      constant := header.constant }

/-- The method is a static initializer or the body of a lambda expression. -/
def skipsMethod (name : String) : Bool :=
  name = "<clinit>" || "lambda$".toList.isPrefixOf name.toList

/-- The flags of a method: in an interface, a public method that is neither
abstract nor anything else has a body. -/
def methodAccess (c : OpenClass) (access : Access) : Access :=
  if c.head.access.has Access.accInterface && access = Access.accPublic then
    access.union Access.accDefault
  else
    access

/-- The method or constructor as declared, none when it is not part of the
model. -/
def declareMethod (c : OpenClass) (header : MethodHeader) :
    Except Error (Option Member.Declared) := do
  requireName .method header.name
  if skipsMethod header.name then
    return none
  let type ← decoded (Signature.methodType header.descriptor header.signature)
  if header.name = Member.constructorName then
    return some
      { name := Member.constructorName
        access := header.access
        arguments := type.arguments
        exceptions := header.exceptions }
  else
    return some
      { name := header.name
        access := c.methodAccess header.access
        genericTypes := type.typeParameters
        returnType := some type.returnType
        arguments := type.arguments
        exceptions := header.exceptions }

/-- The target is the class or one of its members. -/
def requireTarget (c : OpenClass) : Target → Except Error Unit
  | .wholeClass => .ok ()
  | .field handle =>
      if handle < c.fields.length then .ok () else .error (.unknownHandle .field handle)
  | .member handle =>
      if handle < c.members.length then .ok () else .error (.unknownHandle .member handle)

/-- The inner class is there only because the class uses lambda expressions. -/
def skipsInnerClass (name : String) : Bool :=
  name = "java/lang/invoke/MethodHandles$Lookup"

/-- Sets an element of the annotation with the handle. -/
def setElement (c : OpenClass) (handle : Nat) (key : String) (value : ElementValue) :
    OpenClass :=
  { c with
    annotations := c.annotations.modify handle fun entry =>
      (entry.1, entry.2.insert key value) }

/-- Takes in an event: the answer to it and the class that follows. -/
def accept (c : OpenClass) : ClassEvent → Except Error (Answer × OpenClass)
  | .field header => do
      match ← c.declareField header with
      | none => return (.skipped, c)
      | some field =>
          return (.field c.fields.length, { c with fields := c.fields ++ [field] })
  | .method header => do
      match ← c.declareMethod header with
      | none => return (.skipped, c)
      | some member =>
          return (.member c.members.length, { c with members := c.members ++ [member] })
  | .annotationUse target descriptor => do
      requireName .annotationUse descriptor
      c.requireTarget target
      let annotations := c.annotations ++ [(target, AnnotationUse.ofDescriptor descriptor)]
      return (.annotationUse c.annotations.length, { c with annotations := annotations })
  | .annotationValue handle key value =>
      if handle < c.annotations.length then
        .ok (.done, c.setElement handle key value)
      else
        .error (.unknownHandle .annotationUse handle)
  | .innerClass name access => do
      requireName .innerClass name
      if skipsInnerClass name then
        return (.done, c)
      let innerClasses := c.head.innerClasses ++ [InnerClass.ofName name access]
      return (.done, { c with head := { c.head with innerClasses := innerClasses } })

/-- The annotations attached to a target, in the order of their handles. -/
def annotationsOf (c : OpenClass) (target : Target) : List AnnotationUse :=
  (c.annotations.filter fun entry => entry.1 = target).map Prod.snd

def annotatedMembers (c : OpenClass) : List Member.Declared :=
  c.members.mapIdx fun handle member =>
    { member with annotations := c.annotationsOf (.member handle) }

/-- The class in canonical form, each annotation on the part it is attached
to. -/
def close (c : OpenClass) : Class :=
  let fields := c.fields.mapIdx fun handle field =>
    { field with annotations := c.annotationsOf (.field handle) }
  let (constructors, methods) := c.annotatedMembers.partition Member.Declared.isConstructor
  { c.head with
    annotations := c.annotationsOf .wholeClass
    fields := fields.map Field.Declared.toField
    constructors := constructors.map Member.Declared.toConstructor
    methods := methods.map Member.Declared.toMethod }.toClass

end OpenClass

end Assembly

/-- The classes under construction, the innermost first. -/
structure Assembly where
  openClasses : List Assembly.OpenClass := []
deriving Repr

namespace Assembly

def depth (assembly : Assembly) : Nat :=
  assembly.openClasses.length

/-- Takes in one event: the answer or the error, and the state that follows. -/
def step (assembly : Assembly) : Event → Except Error Answer × Assembly
  | .beginClass header =>
      match openClass header with
      | .error error => (.error error, assembly)
      | .ok c => (.ok .done, ⟨c :: assembly.openClasses⟩)
  | .within event =>
      match assembly.openClasses with
      | [] => (.error (.noOpenClass event.kind), assembly)
      | c :: outer =>
          match c.accept event with
          | .error error => (.error error, assembly)
          | .ok (answer, next) => (.ok answer, ⟨next :: outer⟩)
  | .endClass =>
      match assembly.openClasses with
      | [] => (.error .unbalancedEnd, assembly)
      | c :: outer => (.ok (.ended c.close), ⟨outer⟩)

end Assembly

end JvmDiff
