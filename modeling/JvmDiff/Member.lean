import JvmDiff.Access
import JvmDiff.AnnotationUse

/-!
# Methods and constructors

Both are declared alike.  Their identity is the name with the types of the arguments, so that
overloads are told apart.
-/

namespace JvmDiff

/-- A constructor in canonical form. -/
structure Constructor where
  identity : String
  access : Access
  arguments : String
  exceptions : List String
  annotations : List AnnotationUse
deriving DecidableEq, Repr

/-- A method in canonical form. -/
structure Method where
  simpleName : String
  identity : String
  access : Access
  genericTypes : String
  returnType : String
  arguments : String
  exceptions : List String
  annotations : List AnnotationUse
deriving DecidableEq, Repr

namespace Member

def constructorName : String :=
  "<init>"

/-- The name of a member with the types of its arguments. -/
def identity (name arguments : String) : String :=
  name ++ "(" ++ arguments ++ ")"

/-- A method or constructor as declared: exceptions and annotations in any
order, type parameters with or without the brackets around them. -/
structure Declared where
  name : String
  access : Access := Access.accPublic
  genericTypes : String := ""
  returnType : Option String := none
  arguments : String := ""
  exceptions : List String := []
  annotations : List AnnotationUse := []
deriving Repr

namespace Declared

/-- The declared member is a constructor. -/
def isConstructor (member : Declared) : Bool :=
  member.name = constructorName

/-- The names of the exceptions, dotted and in ascending order. -/
def sortedExceptions (member : Declared) : List String :=
  Text.sorted (member.exceptions.map Text.dotted)

def toConstructor (member : Declared) : Constructor where
  identity := identity constructorName member.arguments
  access := member.access
  arguments := member.arguments
  exceptions := member.sortedExceptions
  annotations := Entity.sorted member.annotations

/-- The method in canonical form; without a return type it returns nothing. -/
def toMethod (member : Declared) : Method where
  simpleName := member.name
  identity := identity member.name member.arguments
  access := member.access
  genericTypes := (Text.unwrapped '<' '>' member.genericTypes).getD member.genericTypes
  returnType := member.returnType.getD "void"
  arguments := member.arguments
  exceptions := member.sortedExceptions
  annotations := Entity.sorted member.annotations

end Declared

/-- The part of a content that methods and constructors share. -/
def contentTail (annotations : List AnnotationUse) (arguments : String)
    (exceptions : List String) : String :=
  contentPart "A" Entity.contentList annotations ++ contentText "R" arguments ++
    contentPart "E" Text.bracketed exceptions ++ "\x7d"

end Member

def Constructor.content (constructor : Constructor) : String :=
  "CT\x7bD=" ++ toString constructor.access.raw ++
    Member.contentTail constructor.annotations constructor.arguments constructor.exceptions

def Method.content (method : Method) : String :=
  "M\x7bN=" ++ method.simpleName ++ contentText "G" method.genericTypes ++
    "#T=" ++ method.returnType ++ "#D=" ++ toString method.access.raw ++
    Member.contentTail method.annotations method.arguments method.exceptions

instance : Entity Constructor where
  name := Constructor.identity
  content := Constructor.content

instance : Entity Method where
  name := Method.identity
  content := Method.content

end JvmDiff
