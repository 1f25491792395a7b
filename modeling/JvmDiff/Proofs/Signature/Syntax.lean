import JvmDiff.Signature.Rendering

/-!
# The syntax of generic signatures

The types, class declarations and method declarations that signatures spell, as trees.  Each has
the text that a signature spells it with, and the text that source code would show for it.
-/

namespace JvmDiff.Signature

/-- A name in a signature: at least one character, and none of those that
separate names. -/
structure Identifier where
  chars : List Char
  nonempty : chars ≠ []
  plain : ∀ c ∈ chars, c ∉ ['.', ';', '[', '/', '<', '>', ':']

/-- The primitive types of values. -/
inductive BaseType where
  | byte
  | char
  | double
  | float
  | int
  | long
  | short
  | boolean
deriving DecidableEq, Repr

namespace BaseType

def letter : BaseType → Char
  | .byte => 'B'
  | .char => 'C'
  | .double => 'D'
  | .float => 'F'
  | .int => 'I'
  | .long => 'J'
  | .short => 'S'
  | .boolean => 'Z'

def keyword : BaseType → String
  | .byte => "byte"
  | .char => "char"
  | .double => "double"
  | .float => "float"
  | .int => "int"
  | .long => "long"
  | .short => "short"
  | .boolean => "boolean"

end BaseType

mutual

/-- A type of values. -/
inductive JavaType where
  | base (type : BaseType)
  | reference (type : ReferenceType)

/-- A type of references. -/
inductive ReferenceType where
  | variable (name : Identifier)
  | array (element : JavaType)
  | ofClass (type : ClassType)

/-- A class by the path of its package, its name with arguments and the member
classes that lead on from it. -/
inductive ClassType where
  | mk (package : List Identifier) (outer : Segment) (members : List Segment)

/-- A simple name with its type arguments, none for a name without brackets. -/
inductive Segment where
  | mk (name : Identifier) (arguments : List TypeArgument)

/-- A type argument: any type, or one that a type bounds. -/
inductive TypeArgument where
  | any
  | bounded (bound : Bound) (type : ReferenceType)

end

/-! ## Spelling -/

/-- The path of a package, each name with a slash after it. -/
def pathText (package : List Identifier) : List Char :=
  package.flatMap fun name => name.chars ++ ['/']

/-- The character before the type of an argument. -/
def boundMark : Bound → List Char
  | .subtypes => ['+']
  | .supertypes => ['-']
  | .exactly => []

/-- Arguments between angle brackets, if there are any. -/
def inBrackets (arguments : List Char) : List Char :=
  if arguments = [] then [] else '<' :: (arguments ++ ['>'])

mutual

def JavaType.text : JavaType → List Char
  | .base type => [type.letter]
  | .reference type => type.text

def ReferenceType.text : ReferenceType → List Char
  | .variable name => 'T' :: (name.chars ++ [';'])
  | .array element => '[' :: element.text
  | .ofClass type => type.text

def ClassType.text : ClassType → List Char
  | .mk package outer members =>
      'L' :: (pathText package ++ outer.text ++ memberTexts members ++ [';'])

def Segment.text : Segment → List Char
  | .mk name arguments => name.chars ++ inBrackets (argumentTexts arguments)

def memberTexts : List Segment → List Char
  | [] => []
  | member :: members => '.' :: (member.text ++ memberTexts members)

def TypeArgument.text : TypeArgument → List Char
  | .any => ['*']
  | .bounded bound type => boundMark bound ++ type.text

def argumentTexts : List TypeArgument → List Char
  | [] => []
  | argument :: arguments => argument.text ++ argumentTexts arguments

end

/-! ## Source form -/

/-- The path of a package, each name with a dot after it. -/
def pathShown (package : List Identifier) : List Char :=
  package.flatMap fun name => name.chars ++ ['.']

/-- The words before the type of an argument. -/
def boundShown : Bound → List Char
  | .subtypes => "? extends ".toList
  | .supertypes => "? super ".toList
  | .exactly => []

def commaSeparated (texts : List (List Char)) : List Char :=
  [',', ' '].intercalate texts

/-- A list between angle brackets, if it has any members. -/
def listShown (texts : List (List Char)) : List Char :=
  if texts = [] then [] else '<' :: (commaSeparated texts ++ ['>'])

mutual

def JavaType.shown : JavaType → List Char
  | .base type => type.keyword.toList
  | .reference type => type.shown

def ReferenceType.shown : ReferenceType → List Char
  | .variable name => name.chars
  | .array element => element.shown ++ ['[', ']']
  | .ofClass type => type.shown

def ClassType.shown : ClassType → List Char
  | .mk package outer members => pathShown package ++ outer.shown ++ membersShown members

def Segment.shown : Segment → List Char
  | .mk name arguments => name.chars ++ listShown (argumentsShown arguments)

def membersShown : List Segment → List Char
  | [] => []
  | member :: members => '.' :: (member.shown ++ membersShown members)

def TypeArgument.shown : TypeArgument → List Char
  | .any => ['?']
  | .bounded bound type => boundShown bound ++ type.shown

def argumentsShown : List TypeArgument → List (List Char)
  | [] => []
  | argument :: arguments => argument.shown :: argumentsShown arguments

end

namespace ClassType

/-- The binary name of the outermost class. -/
def binaryName : ClassType → List Char
  | .mk package (.mk name _) _ => pathText package ++ name.chars

def isRoot (type : ClassType) : Bool :=
  type.binaryName = "java/lang/Object".toList

def IsBare : ClassType → Prop
  | .mk _ (.mk _ arguments) members => arguments = [] ∧ members = []

end ClassType

/-! ## Declarations -/

/-- A type that has a name: a type variable or a class. -/
inductive NamedType where
  | variable (name : Identifier)
  | ofClass (type : ClassType)

namespace NamedType

def toReference : NamedType → ReferenceType
  | .variable name => .variable name
  | .ofClass type => .ofClass type

def isRoot : NamedType → Bool
  | .variable _ => false
  | .ofClass type => type.isRoot

/-- The root class, which is not generic, stands alone. -/
def RootIsBare : NamedType → Prop
  | .variable _ => True
  | .ofClass type => type.isRoot → type.IsBare

end NamedType

/-- The bounds that say something: the root class bounds nothing. -/
def boundsShown (bounds : List NamedType) : List (List Char) :=
  (bounds.filter fun bound => !bound.isRoot).map fun bound => bound.toReference.shown

/-- Bounds after their keyword, if there are any. -/
def extendsShown (bounds : List (List Char)) : List Char :=
  if bounds = [] then [] else " extends ".toList ++ " & ".toList.intercalate bounds

/-- A type parameter: a bound by a class, bounds by interfaces, at least one of
them. -/
structure FormalParameter where
  name : Identifier
  classBound : Option NamedType
  interfaceBounds : List NamedType
  bounded : classBound.isSome ∨ interfaceBounds ≠ []
  rootIsBare : ∀ bound ∈ classBound.toList ++ interfaceBounds, bound.RootIsBare

namespace FormalParameter

def bounds (parameter : FormalParameter) : List NamedType :=
  parameter.classBound.toList ++ parameter.interfaceBounds

def text (parameter : FormalParameter) : List Char :=
  parameter.name.chars ++ ':' ::
    ((parameter.classBound.elim [] fun bound => bound.toReference.text) ++
      parameter.interfaceBounds.flatMap fun bound => ':' :: bound.toReference.text)

def shown (parameter : FormalParameter) : List Char :=
  parameter.name.chars ++ extendsShown (boundsShown parameter.bounds)

end FormalParameter

def formalsText (parameters : List FormalParameter) : List Char :=
  inBrackets (parameters.flatMap FormalParameter.text)

def formalsShown (parameters : List FormalParameter) : List Char :=
  listShown (parameters.map FormalParameter.shown)

/-- The heading of a class. -/
structure ClassSyntax where
  parameters : List FormalParameter
  superclass : ClassType
  interfaces : List ClassType
  rootIsBare : superclass.isRoot → superclass.IsBare

namespace ClassSyntax

def signature (declared : ClassSyntax) : String :=
  String.ofList
    (formalsText declared.parameters ++ declared.superclass.text ++
      declared.interfaces.flatMap ClassType.text)

/-- What the signature says, in source form.  The root class is no superclass
worth naming. -/
def source (declared : ClassSyntax) : ClassSignature where
  typeParameters := String.ofList (formalsShown declared.parameters)
  superclass :=
    if declared.superclass.isRoot then none
    else some (String.ofList declared.superclass.shown)
  interfaces :=
    Text.sorted (declared.interfaces.map fun type => String.ofList type.shown)

end ClassSyntax

/-- The heading of a method, without a result for one that returns nothing. -/
structure MethodSyntax where
  parameters : List FormalParameter
  arguments : List JavaType
  result : Option JavaType
  exceptions : List NamedType

namespace MethodSyntax

def signature (declared : MethodSyntax) : String :=
  String.ofList
    (formalsText declared.parameters ++
      '(' :: (declared.arguments.flatMap JavaType.text ++
        ')' :: (declared.result.elim ['V'] JavaType.text ++
          declared.exceptions.flatMap fun type => '^' :: type.toReference.text)))

/-- What the signature says, in source form. -/
def source (declared : MethodSyntax) : MethodSignature where
  typeParameters := String.ofList (formalsShown declared.parameters)
  arguments := String.ofList (commaSeparated (declared.arguments.map JavaType.shown))
  returnType := String.ofList (declared.result.elim "void".toList JavaType.shown)
  exceptions :=
    Text.sorted (declared.exceptions.map fun type => String.ofList type.toReference.shown)

end MethodSyntax

end JvmDiff.Signature
