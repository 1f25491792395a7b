import JvmDiff.Signature.Scan

/-!
# Rendering scanned signatures as source text

A rendering grows from left to right as the marks of a type are taken in.  It knows which type
arguments are open and which array dimensions are still owed, and it leaves `java.lang.Object`
out where source code would not write it: as a bound and as a superclass.
-/

namespace JvmDiff.Signature

/-- Removes the topmost of a stack of flags; an empty stack has only lowered
flags. -/
def popFlag : List Bool → Bool × List Bool
  | [] => (false, [])
  | flag :: flags => (flag, flags)

/-- Raises the topmost flag, which is there afterwards in any case. -/
def raiseFlag : List Bool → List Bool
  | [] => [true]
  | _ :: flags => true :: flags

/-- A rendering under way. -/
structure Rendering where
  text : List Char := []
  /-- Show the root class where it could be left out. -/
  keepsObject : Bool
  /-- Written before the next name. -/
  separator : List Char := []
  /-- For each open class type, whether an argument list is open. -/
  argumentFlags : List Bool := []
  /-- For each type under way, whether it is an array. -/
  arrayFlags : List Bool := [false]
  inTypeParameters : Bool := false
  /-- The length of the text up to the name of the last type parameter. -/
  nameEnd : Nat := 0
  inArguments : Bool := false
  /-- The type parameters once they are complete. -/
  typeParameters : List Char := []
deriving Repr

namespace Rendering

def write (r : Rendering) (text : List Char) : Rendering :=
  { r with text := r.text ++ text }

def startType (r : Rendering) : Rendering :=
  { r with arrayFlags := false :: r.arrayFlags }

/-- The raised flags on top of a stack are dropped, each paid with a pair of
brackets. -/
def dropDimensions : List Bool → List Char × List Bool
  | true :: flags =>
      let (brackets, rest) := dropDimensions flags
      ('[' :: ']' :: brackets, rest)
  | flags => ([], flags)

/-- A type ends, and with it the arrays of which it is the element. -/
def endType (r : Rendering) : Rendering :=
  let (brackets, flags) := dropDimensions (popFlag r.arrayFlags).2
  { r with text := r.text ++ brackets, arrayFlags := flags }

/-- A type argument begins: the first one opens the list. -/
def openArgument (r : Rendering) : Rendering :=
  if (popFlag r.argumentFlags).1 then r.write [',', ' ']
  else { r.write ['<'] with argumentFlags := raiseFlag r.argumentFlags }

/-- The innermost class type is left, and its argument list closed if it has
one. -/
def closeArguments (r : Rendering) : Rendering :=
  let (isOpen, flags) := popFlag r.argumentFlags
  { r with text := r.text ++ (if isOpen then ['>'] else []), argumentFlags := flags }

def writeName (r : Rendering) (name : String) : Rendering :=
  { r with text := r.text ++ r.separator ++ (Text.dotted name).toList, separator := [] }

/-- What stands before the type of an argument. -/
def boundText : Bound → List Char
  | .subtypes => "? extends ".toList
  | .supertypes => "? super ".toList
  | .exactly => []

/-- The name of the root class in its binary form. -/
def objectName : String :=
  "java/lang/Object"

def mark (r : Rendering) : Mark → Rendering
  | .primitive letter => (r.write ((primitiveName? letter).getD "").toList).endType
  | .variable name =>
      { r with text := r.text ++ r.separator ++ name.toList, separator := [] }.endType
  | .array => { r with arrayFlags := raiseFlag r.arrayFlags }.startType
  | .className name =>
      let isShown :=
        name ≠ objectName || (popFlag r.argumentFlags).1 || r.inArguments || r.keepsObject
      let named := if isShown then r.writeName name else { r with separator := [] }
      { named with argumentFlags := false :: named.argumentFlags }
  | .memberName name =>
      let named := (r.closeArguments.write ['.']).writeName name
      { named with argumentFlags := false :: named.argumentFlags }
  | .anyArgument => r.openArgument.write ['?']
  | .argument bound => (r.openArgument.write (boundText bound)).startType
  | .classEnd => r.closeArguments.endType

/-- Takes in the marks of a type. -/
def marks (r : Rendering) (marks : List Mark) : Rendering :=
  marks.foldl mark r

def ofType (keepsObject : Bool) (marks : List Mark) : String :=
  String.ofList (Rendering.marks { keepsObject := keepsObject } marks).text

/-- The name of a type parameter, after an opening bracket or a comma. -/
def typeParameterName (r : Rendering) (name : String) : Rendering :=
  let named := r.write ((if r.inTypeParameters then [',', ' '] else ['<']) ++ name.toList)
  { named with nameEnd := named.text.length, inTypeParameters := true }

def classBound (r : Rendering) (type : List Mark) : Rendering :=
  { r with separator := " extends ".toList }.startType.marks type

/-- A bound by an interface: the first bound after the name has the keyword. -/
def interfaceBound (r : Rendering) (type : List Mark) : Rendering :=
  let separator := if r.nameEnd < r.text.length then " & " else " extends "
  { r with separator := separator.toList }.startType.marks type

def typeParameter (r : Rendering) (parameter : TypeParameter) : Rendering :=
  let named := r.typeParameterName parameter.name
  let bounded := match parameter.classBound with
    | none => named
    | some type => named.classBound type
  parameter.interfaceBounds.foldl interfaceBound bounded

/-- The list of type parameters ends, if there is one. -/
def endTypeParameters (r : Rendering) : Rendering :=
  if r.inTypeParameters then
    { r.write ['>'] with inTypeParameters := false, typeParameters := r.text ++ ['>'] }
  else
    r

/-- The type of an argument of a method. -/
def argument (r : Rendering) (type : List Mark) : Rendering :=
  let separated := if r.inArguments then r.write [',', ' '] else r.write ['(']
  { separated with inArguments := true }.startType.marks type

/-- The arguments of a method without the parentheses around them. -/
def arguments (r : Rendering) (types : List (List Mark)) : List Char :=
  ((types.foldl argument r).text.drop r.text.length).drop 1

end Rendering

/-- What a class signature says. -/
structure ClassSignature where
  typeParameters : String
  superclass : Option String
  interfaces : List String
deriving DecidableEq, Repr

/-- What a method signature says. -/
structure MethodSignature where
  typeParameters : String
  arguments : String
  returnType : String
  exceptions : List String
deriving DecidableEq, Repr

namespace Declaration

def head (declaration : Declaration) : Rendering :=
  (declaration.typeParameters.foldl Rendering.typeParameter
    { keepsObject := false }).endTypeParameters

/-- The declaration read as that of a class; one of a method names no superclass
and no interfaces. -/
def toClass (declaration : Declaration) : ClassSignature :=
  let typeParameters := String.ofList declaration.head.typeParameters
  match declaration.body with
  | .ofMethod _ _ _ => ⟨typeParameters, none, []⟩
  | .ofClass superclass interfaces =>
      let name := Rendering.ofType false superclass
      ⟨typeParameters, if name = "" then none else some name,
        Text.sorted (interfaces.map (Rendering.ofType true))⟩

/-- The declaration read as that of a method; one of a class has no arguments
and returns nothing. -/
def toMethod (declaration : Declaration) : MethodSignature :=
  let typeParameters := String.ofList declaration.head.typeParameters
  match declaration.body with
  | .ofClass _ _ => ⟨typeParameters, "", "void", []⟩
  | .ofMethod arguments result exceptions =>
      ⟨typeParameters, String.ofList (declaration.head.arguments arguments),
        Rendering.ofType true result, Text.sorted (exceptions.map (Rendering.ofType true))⟩

end Declaration

def decodeDeclaration (signature : String) : Except Malformed Declaration :=
  match scanDeclaration signature.toList with
  | .error fault => .error (fault.within signature)
  | .ok declaration => .ok declaration

/-- What the signature of a class says. -/
def decodeClass (signature : String) : Except Malformed ClassSignature :=
  (decodeDeclaration signature).map Declaration.toClass

/-- What the signature of a method says. -/
def decodeMethod (signature : String) : Except Malformed MethodSignature :=
  (decodeDeclaration signature).map Declaration.toMethod

/-- The type that the signature of a field spells. -/
def decodeField (signature : String) : Except Malformed String :=
  match scanType signature.toList with
  | .error fault => .error (fault.within signature)
  | .ok scan =>
      if scan.rest = [] then .ok (Rendering.ofType true scan.marks)
      else .error (Fault.within ⟨scan.rest, .trailingAfterType⟩ signature)

/-- A signature that is there and not empty. -/
def stated? (signature : Option String) : Option String :=
  signature.filter (· ≠ "")

/-- The type of a field: the signature speaks for it where there is one, else
the descriptor. -/
def fieldType (descriptor : String) (signature : Option String) : Except Malformed String :=
  match stated? signature with
  | some signature => decodeField signature
  | none => decodeFieldDescriptor descriptor

/-- The types of a method: the signature speaks for them where there is one,
else the descriptor. -/
def methodType (descriptor : String) (signature : Option String) :
    Except Malformed MethodSignature :=
  match stated? signature with
  | some signature => decodeMethod signature
  | none =>
      (decodeMethodDescriptor descriptor).map fun types =>
        ⟨"", ", ".intercalate types.1, types.2, []⟩

end JvmDiff.Signature
