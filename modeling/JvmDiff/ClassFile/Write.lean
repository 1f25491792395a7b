import JvmDiff.ClassFile.ConstantPool
import JvmDiff.ClassFile.Definition

/-!
# Writing a class file

The constants that a definition needs are gathered while its parts are written, each constant
once, in the order of first use.  The name of an attribute is used after what its body uses.
-/

namespace JvmDiff.ClassFile

/-- The tag and the bytes of an entry. -/
def Entry.bytes : Entry → List UInt8
  | .utf8 text =>
      let encoded := ModifiedUtf8.encode text
      1 :: (bigEndian 2 (min encoded.length 0xFFFF) ++ encoded)
  | .integer value => 3 :: bigEndian 4 value.toUInt32.toNat
  | .float value => 4 :: bigEndian 4 value.bits.toNat
  | .long value => 5 :: bigEndian 8 value.toUInt64.toNat
  | .double value => 6 :: bigEndian 8 value.bits.toNat
  | .classRef name => 7 :: bigEndian 2 name
  | .string text => 8 :: bigEndian 2 text
  | .memberRef owner pair => 9 :: (bigEndian 2 owner ++ bigEndian 2 pair)
  | .nameAndType name descriptor => 12 :: (bigEndian 2 name ++ bigEndian 2 descriptor)
  | .methodHandle kind reference => 15 :: (bigEndian 1 kind ++ bigEndian 2 reference)
  | .methodType descriptor => 16 :: bigEndian 2 descriptor
  | .dynamic bootstrap pair => 17 :: (bigEndian 2 bootstrap ++ bigEndian 2 pair)
  | .moduleRef name => 19 :: bigEndian 2 name
  | .packageRef name => 20 :: bigEndian 2 name

/-- The entries gathered so far, the last one first, each with its slot. -/
structure PoolDraft where
  entries : List (Entry × Nat) := []
  /-- The slot for the next entry. -/
  next : Nat := 1
deriving Repr

namespace PoolDraft

/-- The slot of an entry, which is added if it is not there yet. -/
def intern (entry : Entry) : StateM PoolDraft Nat := fun draft =>
  match draft.entries.find? fun known => known.1 = entry with
  | some known => (known.2, draft)
  | none => (draft.next, ⟨(entry, draft.next) :: draft.entries, draft.next + entry.width⟩)

def utf8 (text : String) : StateM PoolDraft Nat :=
  intern (.utf8 text)

/-- The slot of a class; its name comes first. -/
def className (name : String) : StateM PoolDraft Nat := do
  let text ← utf8 name
  intern (.classRef text)

/-- The slot of the constant of a field; the text of a string comes first. -/
def constant : Constant → StateM PoolDraft Nat
  | .int value => intern (.integer value)
  | .long value => intern (.long value)
  | .float value => intern (.float value)
  | .double value => intern (.double value)
  | .string value => do
      let text ← utf8 value
      intern (.string text)

/-- The entries in the order of their slots. -/
def bytes (draft : PoolDraft) : List UInt8 :=
  draft.entries.reverse.flatMap fun entry => entry.1.bytes

end PoolDraft

/-- Bytes of a part, written while its constants are gathered. -/
abbrev Written :=
  StateM PoolDraft (List UInt8)

def slot (find : StateM PoolDraft Nat) : Written := do
  let index ← find
  return bigEndian 2 index

/-- The number of items as two bytes, then the items one after another.  A list
that is too long states the greatest number. -/
def countedBytes (items : List (List UInt8)) : List UInt8 :=
  bigEndian 2 (min items.length 0xFFFF) ++ items.flatten

/-- Parts one after another, after their number. -/
def counted {α : Type} (write : α → Written) (parts : List α) : Written := do
  let items ← parts.mapM write
  return countedBytes items

/-- The sixteen flags of a class file. -/
def accessBytes (access : Access) : List UInt8 :=
  bigEndian 2 (access.raw % 0x10000)

def namedAttribute (name : String) (body : List UInt8) : Written := do
  let index ← PoolDraft.utf8 name
  return bigEndian 2 index ++ bigEndian 4 body.length ++ body

def signatureAttribute (signature : String) : Written := do
  let body ← slot (PoolDraft.utf8 signature)
  namedAttribute "Signature" body

/-- The tag and the constant of a leaf. -/
def leafBytes (leaf : ElementLeaf) : Written := do
  let tagged (tag : Char) (find : StateM PoolDraft Nat) : Written := do
    let index ← slot find
    return UInt8.ofNat tag.toNat :: index
  let integer (value : Int) : StateM PoolDraft Nat :=
    PoolDraft.intern (.integer (Int32.ofInt value))
  match leaf with
  | .byte value => tagged 'B' (integer value.toInt)
  | .char value => tagged 'C' (integer value.toNat)
  | .short value => tagged 'S' (integer value.toInt)
  | .int value => tagged 'I' (integer value.toInt)
  | .boolean value => tagged 'Z' (integer (if value then 1 else 0))
  | .long value => tagged 'J' (PoolDraft.intern (.long value))
  | .float value => tagged 'F' (PoolDraft.intern (.float value))
  | .double value => tagged 'D' (PoolDraft.intern (.double value))
  | .string value => tagged 's' (PoolDraft.utf8 value)
  | .classLiteral descriptor => tagged 'c' (PoolDraft.utf8 descriptor)
  | .enumConstant descriptor constant => do
      let type ← tagged 'e' (PoolDraft.utf8 descriptor)
      let name ← slot (PoolDraft.utf8 constant)
      return type ++ name

mutual

/-- An element value: its tag and what the tag asks for. -/
def Element.bytes : Element → Written
  | .leaf value => leafBytes value
  | .array items => do
      let parts ← Element.itemBytes items
      return UInt8.ofNat '['.toNat :: countedBytes parts
  | .nested descriptor elements => do
      let type ← slot (PoolDraft.utf8 descriptor)
      let parts ← Element.elementBytes elements
      return UInt8.ofNat '@'.toNat :: (type ++ countedBytes parts)

/-- The items of an array, each for itself. -/
def Element.itemBytes : List Element → StateM PoolDraft (List (List UInt8))
  | [] => return []
  | item :: items => do
      let first ← Element.bytes item
      let more ← Element.itemBytes items
      return first :: more

/-- The elements of an annotation, each for itself, the key before the value. -/
def Element.elementBytes : List (String × Element) → StateM PoolDraft (List (List UInt8))
  | [] => return []
  | (key, value) :: elements => do
      let name ← slot (PoolDraft.utf8 key)
      let first ← Element.bytes value
      let more ← Element.elementBytes elements
      return (name ++ first) :: more

end

/-- An annotation: the descriptor of its type and its elements. -/
def AnnotationDefinition.bytes (definition : AnnotationDefinition) : Written := do
  let type ← slot (PoolDraft.utf8 definition.descriptor)
  let parts ← Element.elementBytes definition.elements
  return type ++ countedBytes parts

/-- The attribute for a group of annotations, if there are any. -/
def annotationGroup (name : String) (annotations : List AnnotationDefinition) :
    StateM PoolDraft (List (List UInt8)) :=
  if annotations.isEmpty then
    return []
  else do
    let body ← counted AnnotationDefinition.bytes annotations
    let written ← namedAttribute name body
    return [written]

/-- The attributes for annotations, the visible ones first. -/
def annotationAttributes (annotations : List AnnotationDefinition) :
    StateM PoolDraft (List (List UInt8)) := do
  let visible ← annotationGroup "RuntimeVisibleAnnotations" (annotations.filter (·.isVisible))
  let invisible ←
    annotationGroup "RuntimeInvisibleAnnotations" (annotations.filter (!·.isVisible))
  return visible ++ invisible

/-- The parts of something that may be missing. -/
def optionally {α : Type} (write : α → Written) :
    Option α → StateM PoolDraft (List (List UInt8))
  | none => return []
  | some part => do
      let written ← write part
      return [written]

/-- A field: flags, name, descriptor and attributes. -/
def FieldDefinition.bytes (field : FieldDefinition) : Written := do
  let name ← slot (PoolDraft.utf8 field.name)
  let descriptor ← slot (PoolDraft.utf8 field.descriptor)
  let signature ← optionally signatureAttribute field.signature
  let constant ← optionally
    (fun value => do
      let body ← slot (PoolDraft.constant value)
      namedAttribute "ConstantValue" body)
    field.constant
  let annotations ← annotationAttributes field.annotations
  return accessBytes field.access ++ name ++ descriptor ++
    countedBytes (signature ++ constant ++ annotations)

/-- A body that returns at once: a stack of one, eight local variables, one
instruction, no handlers and no attributes. -/
def emptyCode : List UInt8 :=
  bigEndian 2 1 ++ bigEndian 2 8 ++ bigEndian 4 1 ++ [0xB1] ++ bigEndian 2 0 ++ bigEndian 2 0

/-- A method: flags, name, descriptor and attributes. -/
def MethodDefinition.bytes (method : MethodDefinition) : Written := do
  let name ← slot (PoolDraft.utf8 method.name)
  let descriptor ← slot (PoolDraft.utf8 method.descriptor)
  let code ← optionally (namedAttribute "Code") (if method.hasCode then some emptyCode else none)
  let signature ← optionally signatureAttribute method.signature
  let exceptions ← optionally
    (fun names => do
      let body ← counted (fun name => slot (PoolDraft.className name)) names
      namedAttribute "Exceptions" body)
    (if method.exceptions.isEmpty then none else some method.exceptions)
  let annotations ← annotationAttributes method.annotations
  return accessBytes method.access ++ name ++ descriptor ++
    countedBytes (code ++ signature ++ exceptions ++ annotations)

/-- An entry of the list of inner classes, without enclosing class and simple
name. -/
def innerClassBytes (entry : String × Access) : Written := do
  let name ← slot (PoolDraft.className entry.1)
  return name ++ bigEndian 2 0 ++ bigEndian 2 0 ++ accessBytes entry.2

/-- The attributes of the class itself.  The last one names a source file. -/
def Definition.attributeBytes (definition : Definition) : Written := do
  let signature ← optionally signatureAttribute definition.signature
  let annotations ← annotationAttributes definition.annotations
  let innerClasses ← optionally
    (fun entries => do
      let body ← counted innerClassBytes entries
      namedAttribute "InnerClasses" body)
    (if definition.innerClasses.isEmpty then none else some definition.innerClasses)
  let source ← slot (PoolDraft.utf8 (definition.simpleName ++ ".java"))
  let sourceFile ← namedAttribute "SourceFile" source
  return countedBytes (signature ++ annotations ++ innerClasses ++ [sourceFile])

/-- The slot of a class that may be missing; slot 0 stands for none. -/
def optionalClass : Option String → Written
  | none => return bigEndian 2 0
  | some name => slot (PoolDraft.className name)

/-- The class from its flags to its last attribute. -/
def Definition.bodyBytes (definition : Definition) : Written := do
  let name ← slot (PoolDraft.className definition.name)
  let superclass ← optionalClass definition.superclass
  let interfaces ← counted (fun name => slot (PoolDraft.className name)) definition.interfaces
  let fields ← counted FieldDefinition.bytes definition.fields
  let methods ← counted MethodDefinition.bytes definition.methods
  let attributes ← definition.attributeBytes
  return accessBytes definition.access ++ name ++ superclass ++ interfaces ++ fields ++
    methods ++ attributes

def Definition.bytes (definition : Definition) : List UInt8 :=
  let (body, draft) := definition.bodyBytes {}
  bigEndian 4 0xCAFEBABE ++ bigEndian 2 0 ++ bigEndian 2 definition.version ++
    bigEndian 2 draft.next ++ draft.bytes ++ body

end JvmDiff.ClassFile
