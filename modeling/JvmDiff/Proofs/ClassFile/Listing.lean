import JvmDiff.ClassFile.Read
import JvmDiff.Proofs.ClassFile.Gathering

/-!
# What a definition lists

The parts that the class file of a definition is to be read as, and the bounds within which the
file has room for them: texts, lists and attribute bodies must not be longer than their lengths
can say.
-/

namespace JvmDiff.ClassFile

/-! ## Element values -/

/-- The type that a descriptor spells; a descriptor that spells none stays as it
is. -/
def typeOf (descriptor : String) : String :=
  match Signature.decodeFieldDescriptor descriptor with
  | .ok type => type
  | .error _ => descriptor

/-- The leaf with types in place of their descriptors. -/
def leafValue : ElementLeaf → ElementLeaf
  | .enumConstant descriptor constant => .enumConstant (typeOf descriptor) constant
  | .classLiteral descriptor => .classLiteral (typeOf descriptor)
  | leaf => leaf

mutual

/-- The value of an element, constructor by constructor. -/
def Element.value : Element → ElementValue
  | .leaf value => .leaf (leafValue value)
  | .array items => .array (itemValues items)
  | .nested descriptor elements =>
      ((AnnotationUse.ofDescriptor descriptor).insertAll (elementValues elements)).toValue

def itemValues : List Element → List ElementValue
  | [] => []
  | item :: items => item.value :: itemValues items

def elementValues : List (String × Element) → List (String × ElementValue)
  | [] => []
  | (key, value) :: elements => (key, value.value) :: elementValues elements

end

theorem itemValues_eq_map (items : List Element) : itemValues items = items.map Element.value := by
  induction items with
  | nil => rfl
  | cons item items inductionHypothesis =>
    rw [itemValues, inductionHypothesis, List.map_cons]

theorem elementValues_eq_map (elements : List (String × Element)) :
    elementValues elements = elements.map fun element => (element.1, element.2.value) := by
  induction elements with
  | nil => rfl
  | cons element elements inductionHypothesis =>
    rw [elementValues, inductionHypothesis, List.map_cons]

mutual

/-- The number of bytes that an element takes. -/
def Element.size : Element → Nat
  | .leaf (.enumConstant _ _) => 5
  | .leaf _ => 3
  | .array items => 3 + itemsSize items
  | .nested _ elements => 5 + elementsSize elements

def itemsSize : List Element → Nat
  | [] => 0
  | item :: items => item.size + itemsSize items

def elementsSize : List (String × Element) → Nat
  | [] => 0
  | (_, value) :: elements => 2 + value.size + elementsSize elements

end

def IsDescriptor (descriptor : String) : Prop :=
  (Signature.decodeFieldDescriptor descriptor).isOk = true

/-- The texts of a leaf are short, and its descriptor spells a type. -/
def LeafFits : ElementLeaf → Prop
  | .string value => Short value
  | .enumConstant descriptor constant => Short descriptor ∧ Short constant ∧ IsDescriptor descriptor
  | .classLiteral descriptor => Short descriptor ∧ IsDescriptor descriptor
  | _ => True

mutual

def Element.Fits : Element → Prop
  | .leaf value => LeafFits value
  | .array items => items.length ≤ 0xFFFF ∧ ItemsFit items
  | .nested descriptor elements =>
      Short descriptor ∧ elements.length ≤ 0xFFFF ∧ ElementsFit elements

def ItemsFit : List Element → Prop
  | [] => True
  | item :: items => item.Fits ∧ ItemsFit items

def ElementsFit : List (String × Element) → Prop
  | [] => True
  | (key, value) :: elements => Short key ∧ value.Fits ∧ ElementsFit elements

end

/-! ## Annotations -/

namespace AnnotationDefinition

/-- The annotation as a class file lists it. -/
def listed (usage : AnnotationDefinition) : AnnotationEntry :=
  ⟨usage.descriptor, elementValues usage.elements⟩

def size (usage : AnnotationDefinition) : Nat :=
  4 + elementsSize usage.elements

/-- The texts and lists in an annotation are short. -/
structure Fits (usage : AnnotationDefinition) : Prop where
  descriptor : Short usage.descriptor
  length : usage.elements.length ≤ 0xFFFF
  elements : ElementsFit usage.elements

end AnnotationDefinition

/-- The annotations in the order of a class file: the visible ones first. -/
def visibleFirst (annotations : List AnnotationDefinition) : List AnnotationDefinition :=
  annotations.filter (·.isVisible) ++ annotations.filter (!·.isVisible)

/-- The number of bytes in the body of an attribute for annotations. -/
def groupSize (annotations : List AnnotationDefinition) : Nat :=
  2 + (annotations.map AnnotationDefinition.size).sum

structure AnnotationsFit (annotations : List AnnotationDefinition) : Prop where
  length : annotations.length ≤ 0xFFFF
  each : ∀ usage ∈ annotations, usage.Fits
  visible : groupSize (annotations.filter (·.isVisible)) < 0x100000000
  invisible : groupSize (annotations.filter (!·.isVisible)) < 0x100000000

/-! ## Members -/

/-- The flags that a class file has room for. -/
def fileFlags (access : Access) : Nat :=
  access.raw % 0x10000

def FieldDefinition.listed (field : FieldDefinition) : WrittenMember where
  access := fileFlags field.access
  name := field.name
  descriptor := field.descriptor
  attributes :=
    { signature := field.signature
      constant := field.constant
      annotations := (visibleFirst field.annotations).map AnnotationDefinition.listed }

structure FieldDefinition.Fits (field : FieldDefinition) : Prop where
  name : Short field.name
  descriptor : Short field.descriptor
  signature : ∀ signature ∈ field.signature, Short signature
  constant : ∀ constant ∈ field.constant, ConstantFits constant
  annotations : AnnotationsFit field.annotations

def MethodDefinition.listed (method : MethodDefinition) : WrittenMember where
  access := fileFlags method.access
  name := method.name
  descriptor := method.descriptor
  attributes :=
    { signature := method.signature
      exceptions := method.exceptions
      annotations := (visibleFirst method.annotations).map AnnotationDefinition.listed }

structure MethodDefinition.Fits (method : MethodDefinition) : Prop where
  name : Short method.name
  descriptor : Short method.descriptor
  signature : ∀ signature ∈ method.signature, Short signature
  exceptionCount : method.exceptions.length ≤ 0xFFFF
  exceptions : ∀ name ∈ method.exceptions, Short name
  annotations : AnnotationsFit method.annotations

/-! ## Classes -/

namespace Definition

/-- The class as its file lists it. -/
def listed (definition : Definition) : WrittenClass where
  version := definition.version
  access := fileFlags definition.access
  name := definition.name
  superclass := definition.superclass
  interfaces := definition.interfaces
  fields := definition.fields.map FieldDefinition.listed
  methods := definition.methods.map MethodDefinition.listed
  attributes :=
    { signature := definition.signature
      annotations := (visibleFirst definition.annotations).map AnnotationDefinition.listed
      innerClasses :=
        definition.innerClasses.map fun entry => ⟨entry.1, fileFlags entry.2⟩ }

/-- The texts, lists and attributes of the class are no longer than their
lengths can say, and its constants have room in the pool. -/
structure Fits (definition : Definition) : Prop where
  version : definition.version < 0x10000
  name : Short definition.name
  superclass : ∀ superclass ∈ definition.superclass, Short superclass
  interfaceCount : definition.interfaces.length ≤ 0xFFFF
  interfaces : ∀ name ∈ definition.interfaces, Short name
  signature : ∀ signature ∈ definition.signature, Short signature
  fieldCount : definition.fields.length ≤ 0xFFFF
  fields : ∀ field ∈ definition.fields, field.Fits
  methodCount : definition.methods.length ≤ 0xFFFF
  methods : ∀ method ∈ definition.methods, method.Fits
  annotations : AnnotationsFit definition.annotations
  innerClassCount : definition.innerClasses.length ≤ 0xFFFF
  innerClasses : ∀ entry ∈ definition.innerClasses, Short entry.1
  slots : (definition.bodyBytes {}).2.next ≤ 0xFFFF

end Definition

end JvmDiff.ClassFile
