import JvmDiff.AnnotationUse
import JvmDiff.InnerClass

/-!
# Packages
-/

namespace JvmDiff

/-- A package with the annotations declared for it and an entry for each of its
classes, both in ascending order. -/
structure Package where
  name : String
  annotations : List AnnotationUse
  classes : List InnerClass
deriving DecidableEq, Repr

namespace Package

def build (name : String) (annotations : List AnnotationUse) (classes : List InnerClass) :
    Package :=
  ⟨Text.dotted name, Entity.sorted annotations, Entity.sorted classes⟩

def empty (name : String) : Package :=
  build name [] []

def content (package : Package) : String :=
  "P\x7bN=" ++ package.name ++ contentPart "A" Entity.contentList package.annotations ++
    contentPart "C" Entity.contentList package.classes ++ "\x7d"

instance : Entity Package where
  name := Package.name
  content := content

end Package

end JvmDiff
