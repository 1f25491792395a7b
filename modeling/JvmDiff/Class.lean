import JvmDiff.Field
import JvmDiff.InnerClass
import JvmDiff.Member

/-!
# Classes

A class is declared with its parts in any order and brought to a canonical form, in which the
parts are sorted and the flags that its kind implies are gone.  Only the fields of an
enumeration keep their order, because there it is part of the meaning.
-/

namespace JvmDiff

/-- A class in canonical form. -/
structure Class where
  name : String
  kind : ClassKind
  version : UInt32
  typeParameters : String
  superclass : String
  access : Access
  annotations : List AnnotationUse
  interfaces : List String
  fields : List Field
  constructors : List Constructor
  methods : List Method
  innerClasses : List InnerClass
deriving DecidableEq, Repr

namespace Class

/-- The class file version taken for one that is not known. -/
def defaultVersion : UInt32 :=
  52

def objectName : String :=
  "java.lang.Object"

/-- A class as declared, names dotted or not. -/
structure Declared where
  name : String
  version : UInt32 := 0
  typeParameters : String := ""
  superclass : Option String := none
  access : Access := Access.accPublic
  annotations : List AnnotationUse := []
  interfaces : List String := []
  fields : List Field := []
  constructors : List Constructor := []
  methods : List Method := []
  innerClasses : List InnerClass := []
deriving Repr

namespace Declared

/-- The superclass, which is the root class unless another is named. -/
def superclassName (declared : Declared) : String :=
  match declared.superclass with
  | none => objectName
  | some name => if name = "" then objectName else Text.dotted name

def toClass (declared : Declared) : Class :=
  let kind := ClassKind.ofAccess declared.access
  { name := Text.dotted declared.name
    kind := kind
    version := if declared.version = 0 then defaultVersion else declared.version
    typeParameters := declared.typeParameters
    superclass := declared.superclassName
    access := declared.access.without kind.impliedAccess
    annotations := Entity.sorted declared.annotations
    interfaces := Text.sorted (declared.interfaces.map Text.dotted)
    fields :=
      if kind = .enumeration then declared.fields else Entity.sorted declared.fields
    constructors := Entity.sorted declared.constructors
    methods := Entity.sorted declared.methods
    innerClasses := Entity.sorted declared.innerClasses }

end Declared

def content (c : Class) : String :=
  "C\x7bN=" ++ c.name ++ "#T=" ++ c.kind.contentName ++ "#V=" ++ toString c.version.toNat ++
    contentText "P" c.typeParameters ++
    "#S=" ++ c.superclass ++ "#D=" ++ toString c.access.raw ++
    contentPart "A" Entity.contentList c.annotations ++
    contentPart "I" Text.bracketed c.interfaces ++
    contentPart "F" Entity.contentList c.fields ++
    contentPart "CT" Entity.contentList c.constructors ++
    contentPart "M" Entity.contentList c.methods ++
    contentPart "IC" Entity.contentList c.innerClasses ++ "\x7d"

instance : Entity Class where
  name := Class.name
  content := content

/-- The name of the class's package, empty for the unnamed package. -/
def package (c : Class) : String :=
  Text.beforeLastDot c.name

/-- The class stands for its package and holds the annotations of it. -/
def isPackageInfo (c : Class) : Bool :=
  Text.afterLastDot c.name = "package-info"

/-- The class is declared inside another: its simple name has a dollar sign. -/
def isNested (c : Class) : Bool :=
  '$' ∈ (Text.afterLastDot c.name).toList

end Class

end JvmDiff
