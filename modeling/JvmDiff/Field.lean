import JvmDiff.Access
import JvmDiff.AnnotationUse

/-!
# Fields and their constants
-/

namespace JvmDiff

/-- A compile-time constant. -/
inductive Constant where
  | int (value : Int32)
  | long (value : Int64)
  | float (value : Single)
  | double (value : Double)
  | string (value : String)
deriving DecidableEq, Repr

/-- A constant as messages and contents show it. -/
def Constant.text : Constant → String
  | .int value => toString value.toInt
  | .long value => toString value.toInt
  | .float value => value.literal
  | .double value => value.literal
  | .string value => value

/-- A field.  Its annotations are in ascending order, and only a static final
field has a constant. -/
structure Field where
  name : String
  access : Access
  type : String
  constant : Option Constant
  annotations : List AnnotationUse
deriving DecidableEq, Repr

namespace Field

/-- A field as declared: annotations in any order, the constant as found. -/
structure Declared where
  name : String
  type : String
  access : Access := Access.accPublic
  constant : Option Constant := none
  annotations : List AnnotationUse := []
deriving Repr

def Declared.toField (field : Declared) : Field where
  name := field.name
  access := field.access
  type := field.type
  constant := if field.access.isStaticFinal then field.constant else none
  annotations := Entity.sorted field.annotations

def content (field : Field) : String :=
  "F\x7bN=" ++ field.name ++ "#T=" ++ field.type ++ "#D=" ++ toString field.access.raw ++
    contentPart "A" Entity.contentList field.annotations ++
    (match field.constant with
      | none => ""
      | some constant => "#V=" ++ constant.text) ++
    "\x7d"

instance : Entity Field where
  name := Field.name
  content := content

end Field

end JvmDiff
