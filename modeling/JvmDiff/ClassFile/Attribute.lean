import JvmDiff.AnnotationUse
import JvmDiff.ClassFile.ConstantPool
import JvmDiff.Signature.Descriptor

/-!
# Attributes

Classes, fields and methods carry named attributes, each with the length of its body.  Those that
say something about the model are read, and their bodies have to be used up; all others are
passed over.
-/

namespace JvmDiff.ClassFile

/-- An annotation as it is written: the descriptor of its type and its elements
in the order of the file. -/
structure AnnotationEntry where
  descriptor : String
  elements : List (String × ElementValue)
deriving Repr

namespace AnnotationEntry

def toUse (written : AnnotationEntry) : AnnotationUse :=
  (AnnotationUse.ofDescriptor written.descriptor).insertAll written.elements

/-- Reads an annotation, given how its element values are read. -/
def read (pool : ConstantPool) (readValue : Reader ElementValue) :
    Reader AnnotationEntry := do
  let descriptor ← Reader.ofExcept (pool.utf8 (← Reader.u2))
  let elements ← Reader.counted do
    let key ← Reader.ofExcept (pool.utf8 (← Reader.u2))
    let value ← readValue
    return (key, value)
  return ⟨descriptor, elements⟩

end AnnotationEntry

/-- The type that a descriptor spells, its faults among the errors of reading. -/
def decodedType (descriptor : String) : Except Error String :=
  (Signature.decodeFieldDescriptor descriptor).mapError .descriptor

/-- The type of a class literal, which may be `void`. -/
def literalType (descriptor : String) : Except Error String :=
  if descriptor = "V" then .ok "void" else decodedType descriptor

def charOfCode (code : Int32) : Except Error Char :=
  let n := code.toInt.toNat
  if 0 ≤ code.toInt ∧ n.isValidChar then .ok (Char.ofNat n)
  else .error (.invalidChar code.toInt)

/-- Reads the leaf that a tag announces; none if the tag announces no leaf. -/
def readLeaf (pool : ConstantPool) (tag : Char) : Option (Reader ElementLeaf) :=
  let at2 {α : Type} (get : Nat → Except Error α) : Reader α := do
    Reader.ofExcept (get (← Reader.u2))
  match tag with
  | 'B' => some do return .byte (← at2 pool.integer).toInt8
  | 'C' => some do
      let code ← at2 pool.integer
      return .char (← Reader.ofExcept (charOfCode code))
  | 'S' => some do return .short (← at2 pool.integer).toInt16
  | 'I' => some do return .int (← at2 pool.integer)
  | 'Z' => some do return .boolean (decide ((← at2 pool.integer) ≠ 0))
  | 'J' => some do return .long (← at2 pool.long)
  | 'F' => some do return .float (← at2 pool.float)
  | 'D' => some do return .double (← at2 pool.double)
  | 's' => some do return .string (← at2 pool.utf8)
  | 'e' => some do
      let descriptor ← at2 pool.utf8
      let constant ← at2 pool.utf8
      let type ← Reader.ofExcept (decodedType descriptor)
      return .enumConstant type constant
  | 'c' => some do
      let descriptor ← at2 pool.utf8
      return .classLiteral (← Reader.ofExcept (literalType descriptor))
  | _ => none

/-- Reads an element value that nests less deeply than the bound. -/
def readValue (pool : ConstantPool) : Nat → Reader ElementValue
  | 0 => fun input => .error (.truncated 1 input.position input.rest.length)
  | depth + 1 => do
      let tag ← Reader.u1
      match readLeaf pool (Char.ofNat tag) with
      | some leaf => return .leaf (← leaf)
      | none =>
          if tag = '@'.toNat then
            let written ← AnnotationEntry.read pool (readValue pool depth)
            return written.toUse.toValue
          else if tag = '['.toNat then
            return .array (← Reader.counted (readValue pool depth))
          else
            throw (.unknownElementTag (UInt8.ofNat tag))

/-- Reads a list of annotations.  Every level of a value takes a byte, so the
number of bytes bounds the depth. -/
def readAnnotations (pool : ConstantPool) : Reader (List AnnotationEntry) := do
  let input ← get
  Reader.counted (AnnotationEntry.read pool (readValue pool (input.rest.length + 1)))

/-- An entry of the list of inner classes. -/
structure InnerEntry where
  name : String
  access : Nat
deriving DecidableEq, Repr

/-- Reads an entry of the list of inner classes; the enclosing class and the
simple name in it do not matter. -/
def InnerEntry.read (pool : ConstantPool) : Reader InnerEntry := do
  let inner ← Reader.u2
  let _ ← Reader.u2
  let _ ← Reader.u2
  let access ← Reader.u2
  let name ← Reader.ofExcept (pool.className inner)
  return ⟨name, access⟩

/-- What the attributes of a class, field or method say. -/
structure Attributes where
  signature : Option String := none
  constant : Option Constant := none
  exceptions : List String := []
  annotations : List AnnotationEntry := []
  innerClasses : List InnerEntry := []
deriving Repr

namespace Attributes

/-- What the attributes say with one more attribute read; none if its name is
not known. -/
def readBody (pool : ConstantPool) (found : Attributes) (name : String) :
    Option (Reader Attributes) :=
  if name = "Signature" then some do
    let signature ← Reader.ofExcept (pool.utf8 (← Reader.u2))
    return { found with signature := some signature }
  else if name = "ConstantValue" then some do
    let constant ← Reader.ofExcept (pool.fieldConstant (← Reader.u2))
    return { found with constant := some constant }
  else if name = "Exceptions" then some do
    let exceptions ← Reader.counted do
      Reader.ofExcept (pool.className (← Reader.u2))
    return { found with exceptions := found.exceptions ++ exceptions }
  else if name = "RuntimeVisibleAnnotations" ∨ name = "RuntimeInvisibleAnnotations" then some do
    let annotations ← readAnnotations pool
    return { found with annotations := found.annotations ++ annotations }
  else if name = "InnerClasses" then some do
    let innerClasses ← Reader.counted (InnerEntry.read pool)
    return { found with innerClasses := found.innerClasses ++ innerClasses }
  else
    none

def readOne (pool : ConstantPool) (found : Attributes) : Reader Attributes := do
  let name ← Reader.ofExcept (pool.utf8 (← Reader.u2))
  let length ← Reader.u4
  let body ← Reader.take length
  match readBody pool found name with
  | none => return found
  | some read =>
      let (next, left) ← Reader.within body read
      if left.rest = [] then
        return next
      else
        throw (.attributeTrail name left.rest.length)

def readMany (pool : ConstantPool) : Nat → Attributes → Reader Attributes
  | 0, found => return found
  | count + 1, found => do
      let next ← readOne pool found
      readMany pool count next

def read (pool : ConstantPool) : Reader Attributes := do
  let count ← Reader.u2
  readMany pool count {}

end Attributes

end JvmDiff.ClassFile
