import JvmDiff.AnnotationUse
import JvmDiff.Field

/-!
# Definitions of class files

A definition lists what a class file is to contain, in the terms of the file: binary names,
descriptors and signatures.
-/

namespace JvmDiff.ClassFile

/-- An element value to be written.  The type of an enumeration constant and a
class literal are descriptors, and so is the name of a nested annotation. -/
inductive Element where
  | leaf (value : ElementLeaf)
  | array (items : List Element)
  | nested (descriptor : String) (elements : List (String × Element))
deriving Repr

structure AnnotationDefinition where
  descriptor : String
  /-- The annotation is kept for programs that look at their own annotations. -/
  isVisible : Bool := true
  elements : List (String × Element) := []
deriving Repr

structure FieldDefinition where
  name : String
  descriptor : String
  access : Access := Access.accPublic
  signature : Option String := none
  constant : Option Constant := none
  annotations : List AnnotationDefinition := []
deriving Repr

/-- A method or constructor to be written. -/
structure MethodDefinition where
  name : String
  descriptor : String
  access : Access := Access.accPublic
  signature : Option String := none
  exceptions : List String := []
  annotations : List AnnotationDefinition := []
deriving Repr

/-- The method has a body. -/
def MethodDefinition.hasCode (method : MethodDefinition) : Bool :=
  !(method.access.has Access.accAbstract || method.access.has Access.accNative)

/-- A class to be written.  Its name is in binary form. -/
structure Definition where
  name : String
  access : Access := Access.accPublic.union Access.accSuper
  version : Nat := 52
  superclass : Option String := some "java/lang/Object"
  interfaces : List String := []
  signature : Option String := none
  fields : List FieldDefinition := []
  methods : List MethodDefinition := []
  annotations : List AnnotationDefinition := []
  innerClasses : List (String × Access) := []
deriving Repr

/-- The path of the class file below the root of its package. -/
def Definition.fileName (definition : Definition) : String :=
  definition.name ++ ".class"

/-- The name of the class without its package. -/
def Definition.simpleName (definition : Definition) : String :=
  String.ofList (definition.name.toList.reverse.takeWhile (· ≠ '/')).reverse

end JvmDiff.ClassFile
