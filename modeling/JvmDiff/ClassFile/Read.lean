import JvmDiff.Assembly.Basic
import JvmDiff.ClassFile.Attribute

/-!
# Reading a class file

The bytes are first read into the parts that the file lists, which fails on anything that is no
class file or has bytes left over.  The parts are then told, in their order, as the events that
assemble a class.
-/

namespace JvmDiff.ClassFile

/-- A field or a method as the file lists it. -/
structure WrittenMember where
  access : Nat
  name : String
  descriptor : String
  attributes : Attributes
deriving Repr

/-- A class as the file lists its parts. -/
structure WrittenClass where
  version : Nat
  access : Nat
  name : String
  superclass : Option String
  interfaces : List String
  fields : List WrittenMember
  methods : List WrittenMember
  attributes : Attributes
deriving Repr

/-- The first four bytes of every class file. -/
def magic : Nat :=
  0xCAFEBABE

def WrittenMember.read (pool : ConstantPool) : Reader WrittenMember := do
  let access ← Reader.u2
  let name ← Reader.ofExcept (pool.utf8 (← Reader.u2))
  let descriptor ← Reader.ofExcept (pool.utf8 (← Reader.u2))
  let attributes ← Attributes.read pool
  return ⟨access, name, descriptor, attributes⟩

/-- Reads a class up to its last attribute. -/
def WrittenClass.read : Reader WrittenClass := do
  let found ← Reader.u4
  if found ≠ magic then
    throw (.badMagic found)
  let _minorVersion ← Reader.u2
  let version ← Reader.u2
  let pool ← ConstantPool.read
  let access ← Reader.u2
  let name ← Reader.ofExcept (pool.className (← Reader.u2))
  let superclass ← Reader.ofExcept (pool.optionalClassName (← Reader.u2))
  let interfaces ← Reader.counted do
    Reader.ofExcept (pool.className (← Reader.u2))
  let fields ← Reader.counted (WrittenMember.read pool)
  let methods ← Reader.counted (WrittenMember.read pool)
  let attributes ← Attributes.read pool
  return ⟨version, access, name, superclass, interfaces, fields, methods, attributes⟩

/-- The class that the bytes list, all of them. -/
def WrittenClass.ofBytes (bytes : List UInt8) : Except Error WrittenClass := do
  let (found, left) ← WrittenClass.read (Input.ofBytes bytes)
  if left.rest = [] then
    return found
  else
    throw (.classTrail left.rest.length found.name)

/-- Events told one after another to an assembly, up to the first that is
refused. -/
abbrev Telling (α : Type) :=
  StateT Assembly (Except Assembly.Error) α

namespace Telling

def tell (event : Assembly.Event) : Telling Assembly.Answer := fun assembly =>
  match assembly.step event with
  | (.error error, _) => .error error
  | (.ok answer, next) => .ok (answer, next)

def annotationUse (target : Assembly.Target) (written : AnnotationEntry) : Telling Unit := do
  match ← tell (.within (.annotationUse target written.descriptor)) with
  | .annotationUse handle =>
      written.elements.forM fun element => do
        let _ ← tell (.within (.annotationValue handle element.1 element.2))
  | _ => return ()

/-- The flags of a file as access flags. -/
def access (flags : Nat) : Access :=
  ⟨UInt32.ofNat flags⟩

/-- Tells a field with its annotations; only a static final field may carry its
constant. -/
def field (written : WrittenMember) : Telling Unit := do
  let flags := access written.access
  let header : Assembly.FieldHeader :=
    { name := written.name
      access := flags
      descriptor := written.descriptor
      signature := written.attributes.signature
      constant := if flags.isStaticFinal then written.attributes.constant else none }
  match ← tell (.within (.field header)) with
  | .field handle => written.attributes.annotations.forM (annotationUse (.field handle))
  | _ => return ()

def method (written : WrittenMember) : Telling Unit := do
  let header : Assembly.MethodHeader :=
    { name := written.name
      access := access written.access
      descriptor := written.descriptor
      signature := written.attributes.signature
      exceptions := written.attributes.exceptions }
  match ← tell (.within (.method header)) with
  | .member handle => written.attributes.annotations.forM (annotationUse (.member handle))
  | _ => return ()

/-- Tells an entry of the list of inner classes. -/
def innerClass (entry : InnerEntry) : Telling Unit := do
  let _ ← tell (.within (.innerClass entry.name (access entry.access)))

/-- Tells the class from its head to its end. -/
def wholeClass (written : WrittenClass) : Telling Class := do
  let header : Assembly.ClassHeader :=
    { name := written.name
      access := access written.access
      version := UInt32.ofNat written.version
      signature := written.attributes.signature
      superclass := written.superclass
      interfaces := written.interfaces }
  let _ ← tell (.beginClass header)
  written.fields.forM field
  written.methods.forM method
  written.attributes.annotations.forM (annotationUse .wholeClass)
  written.attributes.innerClasses.forM innerClass
  match ← tell .endClass with
  | .ended result => return result
  | _ => throw .unbalancedEnd

end Telling

/-- The class that the listed parts assemble to. -/
def WrittenClass.assemble (written : WrittenClass) : Except Assembly.Error Class :=
  (Telling.wholeClass written {}).map Prod.fst

/-- The class in a class file. -/
def readClass (bytes : List UInt8) : Except Problem Class :=
  match WrittenClass.ofBytes bytes with
  | .error error => .error error.toProblem
  | .ok written =>
      match written.assemble with
      | .error error => .error (error.toProblem.withClass (Text.dotted written.name))
      | .ok result => .ok result

end JvmDiff.ClassFile
