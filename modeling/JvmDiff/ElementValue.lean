import JvmDiff.FloatingPoint.Notation
import JvmDiff.Text.Order
import JvmDiff.Text.Quoted

/-!
# Element values of annotations

An element value is a leaf, an array of values or a nested annotation.  A value has a type name
and a text for messages, and a content in which texts and characters are quoted and numbers
keep their kind.
-/

namespace JvmDiff

/-- A value without parts. -/
inductive ElementLeaf where
  | byte (value : Int8)
  | char (value : Char)
  | short (value : Int16)
  | int (value : Int32)
  | long (value : Int64)
  | float (value : Single)
  | double (value : Double)
  | boolean (value : Bool)
  | string (value : String)
  | enumConstant (type constant : String)
  | classLiteral (name : String)
deriving DecidableEq, Repr

namespace ElementLeaf

/-- The name of the value's type in source code. -/
def typeName : ElementLeaf → String
  | .byte _ => "byte"
  | .char _ => "char"
  | .short _ => "short"
  | .int _ => "int"
  | .long _ => "long"
  | .float _ => "float"
  | .double _ => "double"
  | .boolean _ => "boolean"
  | .string _ => "java.lang.String"
  | .enumConstant type _ => type
  | .classLiteral _ => "java.lang.Class"

/-- The value as a message shows it. -/
def text : ElementLeaf → String
  | .byte value => toString value.toInt
  | .char value => String.singleton value
  | .short value => toString value.toInt
  | .int value => toString value.toInt
  | .long value => toString value.toInt
  | .float value => value.plain
  | .double value => value.plain
  | .boolean value => if value then "true" else "false"
  | .string value => value
  | .enumConstant type constant => type ++ "." ++ constant
  | .classLiteral name => name ++ ".class"

/-- The value as a content holds it: characters and texts are quoted, and
floating-point numbers are told from integers. -/
def content : ElementLeaf → String
  | .char value => Text.quotedChar value
  | .string value => Text.quoted value
  | .float value => value.literal
  | .double value => value.literal
  | leaf => leaf.text

end ElementLeaf

/-- An element value.  The elements of a nested annotation are in ascending
order of their keys. -/
inductive ElementValue where
  | leaf (value : ElementLeaf)
  | array (items : List ElementValue)
  | nested (name : String) (elements : List (String × ElementValue))
deriving Repr

namespace ElementValue

/-- The name of the value's type; an array is named for its first item. -/
def typeName : ElementValue → String
  | .leaf value => value.typeName
  | .array [] => "java.lang.Object[]"
  | .array (first :: _) => first.typeName ++ "[]"
  | .nested name _ => name

/-- The parts between the given marks, separated by a comma and a blank. -/
def enclosed (opening : String) (parts : List String) (closing : String) : String :=
  opening ++ ", ".intercalate parts ++ closing

mutual

/-- The value as a message shows it. -/
def text : ElementValue → String
  | .leaf value => value.text
  | .array items => enclosed "[" (itemTexts items) "]"
  | .nested name elements => enclosed ("@" ++ name ++ "(") (elementTexts elements) ")"

/-- The texts of the items of an array. -/
def itemTexts : List ElementValue → List String
  | [] => []
  | item :: items => item.text :: itemTexts items

/-- The elements of an annotation, each after its key. -/
def elementTexts : List (String × ElementValue) → List String
  | [] => []
  | (key, value) :: elements => (key ++ "=" ++ value.text) :: elementTexts elements

end

mutual

/-- The value as a content holds it. -/
def content : ElementValue → String
  | .leaf value => value.content
  | .array items => enclosed "[" (itemContents items) "]"
  | .nested name elements =>
      "A\x7bN=" ++ name ++
        (if elements.isEmpty then ""
          else enclosed "#V=\x7b" (elementContents elements) "\x7d") ++
        "\x7d"

/-- The contents of the items of an array. -/
def itemContents : List ElementValue → List String
  | [] => []
  | item :: items => item.content :: itemContents items

/-- The contents of the elements of an annotation, each after its key. -/
def elementContents : List (String × ElementValue) → List String
  | [] => []
  | (key, value) :: elements => (key ++ "=" ++ value.content) :: elementContents elements

end

mutual

/-- Equality of values: of the same kind, with equal parts, floating-point
numbers by their bits. -/
def same : ElementValue → ElementValue → Bool
  | .leaf first, .leaf second => first = second
  | .array first, .array second => sameItems first second
  | .nested first firstElements, .nested second secondElements =>
      first = second && sameElements firstElements secondElements
  | _, _ => false

/-- Equality of the items of two arrays. -/
def sameItems : List ElementValue → List ElementValue → Bool
  | [], [] => true
  | first :: firsts, second :: seconds => same first second && sameItems firsts seconds
  | _, _ => false

/-- Equality of the elements of two annotations. -/
def sameElements : List (String × ElementValue) → List (String × ElementValue) → Bool
  | [], [] => true
  | (firstKey, first) :: firsts, (secondKey, second) :: seconds =>
      firstKey = secondKey && same first second && sameElements firsts seconds
  | _, _ => false

end

mutual

/-- The decision of `same` is equality. -/
theorem same_iff : ∀ first second : ElementValue, same first second = true ↔ first = second
  | .leaf _, .leaf _ => by simp [same]
  | .array first, .array second => by simp [same, sameItems_iff first second]
  | .nested _ first, .nested _ second => by simp [same, sameElements_iff first second]
  | .leaf _, .array _ => by simp [same]
  | .leaf _, .nested _ _ => by simp [same]
  | .array _, .leaf _ => by simp [same]
  | .array _, .nested _ _ => by simp [same]
  | .nested _ _, .leaf _ => by simp [same]
  | .nested _ _, .array _ => by simp [same]

theorem sameItems_iff :
    ∀ first second : List ElementValue, sameItems first second = true ↔ first = second
  | [], [] => by simp [sameItems]
  | [], _ :: _ => by simp [sameItems]
  | _ :: _, [] => by simp [sameItems]
  | first :: firsts, second :: seconds => by
      simp [sameItems, same_iff first second, sameItems_iff firsts seconds]

theorem sameElements_iff :
    ∀ first second : List (String × ElementValue), sameElements first second = true ↔ first = second
  | [], [] => by simp [sameElements]
  | [], _ :: _ => by simp [sameElements]
  | _ :: _, [] => by simp [sameElements]
  | (_, first) :: firsts, (_, second) :: seconds => by
      simp [sameElements, same_iff first second, sameElements_iff firsts seconds]

end

instance : DecidableEq ElementValue := fun first second =>
  decidable_of_iff _ (same_iff first second)

end ElementValue

end JvmDiff
