import JvmDiff.Class
import JvmDiff.Comparison.Basic
import JvmDiff.Package

/-!
# Comparing classes and packages

Each comparison is of two versions of one entity, named after the earlier one.  It finds nothing
when the digests of the two are equal; otherwise it goes through the attributes one by one.
-/

namespace JvmDiff.Comparison

def ofField (previous next : Field) : List Change :=
  unlessSame previous next <|
    ofAccess Topic.fieldModifiers previous.name previous.access next.access ++
      ofTexts Topic.fieldType previous.name previous.type next.type ++
      (if previous.constant = next.constant then []
        else
          [modified Topic.fieldValue
            [.text previous.name, .ofOption (previous.constant.map Constant.text),
              .ofOption (next.constant.map Constant.text)]]) ++
      ofAnnotations Topic.fieldAnnotations previous.name previous.annotations
        next.annotations

def ofConstructor (previous next : Constructor) : List Change :=
  unlessSame previous next <|
    ofAccess Topic.constructorModifiers previous.identity previous.access next.access ++
      ofNames Topic.constructorExceptions previous.identity previous.exceptions
        next.exceptions ++
      ofAnnotations Topic.constructorAnnotations previous.identity previous.annotations
        next.annotations

def ofMethod (previous next : Method) : List Change :=
  unlessSame previous next <|
    ofAccess Topic.methodModifiers previous.identity previous.access next.access ++
      ofTexts Topic.methodType previous.identity previous.returnType next.returnType ++
      ofNames Topic.methodExceptions previous.identity previous.exceptions next.exceptions ++
      ofAnnotations Topic.methodAnnotations previous.identity previous.annotations
        next.annotations

/-- The changes of an entry for an inner class. -/
def ofInnerClass (previous next : InnerClass) : List Change :=
  unlessSame previous next <|
    ofAccess Topic.innerClassModifiers previous.name previous.access next.access

/-- The changes of the head of a class: what it is, its version, its flags and
its superclass. -/
def ofHead (previous next : Class) : List Change :=
  ofTexts Topic.classType previous.name previous.kind.label next.kind.label ++
    (if previous.version = next.version then []
      else
        [⟨.warning, .modified, Topic.classVersion.key,
          [.text previous.name, .ofNat previous.version.toNat,
            .ofNat next.version.toNat]⟩]) ++
    ofAccess Topic.classModifiers previous.name previous.access next.access ++
    ofTexts Topic.classSuperclass previous.name previous.superclass next.superclass

def ofClass (previous next : Class) : List Change :=
  unlessSame previous next <|
    ofHead previous next ++
      ofNames Topic.classInterfaces previous.name previous.interfaces next.interfaces ++
      ofAnnotations Topic.classAnnotations previous.name previous.annotations
        next.annotations ++
      ofEntities Topic.classFields previous.name ofField previous.fields next.fields ++
      ofEntities Topic.classConstructors previous.name ofConstructor previous.constructors
        next.constructors ++
      ofEntities Topic.classMethods previous.name ofMethod previous.methods next.methods ++
      ofEntities Topic.classInnerClasses previous.name ofInnerClass previous.innerClasses
        next.innerClasses

/-- The changes of a package.  What changes inside a class is told with the
class. -/
def ofPackage (previous next : Package) : List Change :=
  unlessSame previous next <|
    ofAnnotations Topic.packageAnnotations previous.name previous.annotations
        next.annotations ++
      ofEntities Topic.packageClasses previous.name (fun _ _ => []) previous.classes
        next.classes

end JvmDiff.Comparison
