import JvmDiff.Change.Basic

/-!
# Topics of changes

A topic is a kind of change with the key that identifies it and the template of its message.  In
a template, a number in braces stands for the argument with that number.  `Topic.all` is the
whole table.
-/

namespace JvmDiff

/-- The key of a message and its template. -/
structure Topic where
  key : String
  template : String
deriving DecidableEq, Repr

/-- The topics of a list of parts: a part is gone, or a part is new. -/
structure PartTopics where
  removed : Topic
  added : Topic
  /-- How severe a new part is. -/
  addedSeverity : Severity
deriving DecidableEq, Repr

namespace Topic

/-- The place of an argument in a template. -/
def slot (number : Nat) : String :=
  "\x7b" ++ toString number ++ "\x7d"

/-- A value of the subject is no longer what it was. -/
def changed (subject aspect heading noun : String) : Topic :=
  ⟨subject ++ "." ++ aspect ++ ".modified",
    heading ++ ": " ++ noun ++ " changed from " ++ slot 1 ++ " to " ++ slot 2⟩

/-- The flags of the subject are no longer what they were. -/
def modifiers (subject heading : String) : Topic :=
  ⟨subject ++ ".modifiers.modified",
    heading ++ ": modifiers changed from '" ++ slot 1 ++ "' (" ++ slot 2 ++ ") to '" ++
      slot 3 ++ "' (" ++ slot 4 ++ ")"⟩

/-- Parts of the subject come and go, both of them errors. -/
def parts (subject aspect heading noun : String) : PartTopics where
  removed :=
    ⟨subject ++ "." ++ aspect ++ ".removed", heading ++ ": " ++ noun ++ " " ++ slot 1 ++ " removed"⟩
  added :=
    ⟨subject ++ "." ++ aspect ++ ".added", heading ++ ": " ++ noun ++ " " ++ slot 1 ++ " added"⟩
  addedSeverity := .error

def classHeading : String := slot 0
def innerClassHeading : String := "Inner class " ++ slot 0
def fieldHeading : String := "Field " ++ slot 0
def constructorHeading : String := "Constructor " ++ slot 0
def methodHeading : String := "Method " ++ slot 0
def annotationHeading : String := "Annotation @" ++ slot 0
def packageHeading : String := "Package " ++ slot 0

def classType : Topic := changed "class" "type" classHeading "type"
def classVersion : Topic := changed "class" "version" classHeading "class file version"
def classModifiers : Topic := modifiers "class" classHeading
def classSuperclass : Topic := changed "class" "superclass" classHeading "superclass"
def classInterfaces : PartTopics := parts "class" "interface" classHeading "interface"
def classAnnotations : PartTopics := parts "class" "annotation" classHeading "annotation"
def classFields : PartTopics := parts "class" "field" classHeading "field"
def classConstructors : PartTopics := parts "class" "constructor" classHeading "constructor"
def classMethods : PartTopics := parts "class" "method" classHeading "method"
def classInnerClasses : PartTopics := parts "class" "innerclass" classHeading "inner class"

def innerClassModifiers : Topic := modifiers "innerclass" innerClassHeading

def fieldModifiers : Topic := modifiers "field" fieldHeading
def fieldType : Topic := changed "field" "type" fieldHeading "type"
def fieldValue : Topic := changed "field" "value" fieldHeading "constant value"
def fieldAnnotations : PartTopics := parts "field" "annotation" fieldHeading "annotation"

def constructorModifiers : Topic := modifiers "constructor" constructorHeading
def constructorExceptions : PartTopics :=
  parts "constructor" "exception" constructorHeading "exception"
def constructorAnnotations : PartTopics :=
  parts "constructor" "annotation" constructorHeading "annotation"

def methodModifiers : Topic := modifiers "method" methodHeading
def methodType : Topic := changed "method" "type" methodHeading "return type"
def methodExceptions : PartTopics := parts "method" "exception" methodHeading "exception"
def methodAnnotations : PartTopics := parts "method" "annotation" methodHeading "annotation"

def annotationValues : PartTopics := parts "annotation" "value" annotationHeading "value"

/-- The value of an element is another one; the message names both types and
both values. -/
def annotationValue : Topic :=
  ⟨"annotation.value.modified",
    annotationHeading ++ ": value " ++ slot 1 ++ " changed from " ++ slot 2 ++ " " ++ slot 3 ++
      " to " ++ slot 4 ++ " " ++ slot 5⟩

def packageAnnotations : PartTopics :=
  parts "package" "annotation" packageHeading "annotation"

/-- A new class breaks nothing. -/
def packageClasses : PartTopics :=
  { parts "package" "class" packageHeading "class" with addedSeverity := .info }

/-- The two topics of a list of parts. -/
def both (topics : PartTopics) : List Topic :=
  [topics.removed, topics.added]

def all : List Topic :=
  [classType, classVersion, classModifiers, classSuperclass] ++ both classInterfaces ++
    both classAnnotations ++ both classFields ++ both classConstructors ++ both classMethods ++
    both classInnerClasses ++ [innerClassModifiers, fieldModifiers, fieldType, fieldValue] ++
    both fieldAnnotations ++ [constructorModifiers] ++ both constructorExceptions ++
    both constructorAnnotations ++ [methodModifiers, methodType] ++ both methodExceptions ++
    both methodAnnotations ++ both annotationValues ++ [annotationValue] ++
    both packageAnnotations ++ both packageClasses

/-- The template of the topic with the key. -/
def template? (key : String) : Option String :=
  (all.find? fun topic => topic.key = key).map Topic.template

end Topic

end JvmDiff
