import JvmDiff.Problem
import JvmDiff.Signature.Malformed

/-!
# Errors of assembling a class
-/

namespace JvmDiff.Assembly

/-- What has to have a name. -/
inductive Part where
  | wholeClass
  | field
  | method
  | annotationUse
  | innerClass
deriving DecidableEq, Repr

def Part.word : Part → String
  | .wholeClass => "class"
  | .field => "field"
  | .method => "method"
  | .annotationUse => "annotation"
  | .innerClass => "inner class"

inductive HandleKind where
  | field
  | member
  | annotationUse
deriving DecidableEq, Repr

/-- The word for what a handle stands for. -/
def HandleKind.word : HandleKind → String
  | .field => "field"
  | .member => "member"
  | .annotationUse => "annotation"

/-- The kinds of events that concern an open class. -/
inductive EventKind where
  | field
  | method
  | annotationUse
  | annotationValue
  | innerClass
deriving DecidableEq, Repr

/-- The name of a kind of event. -/
def EventKind.word : EventKind → String
  | .field => "visit_field"
  | .method => "visit_method"
  | .annotationUse => "visit_annotation"
  | .annotationValue => "visit_annotation_value"
  | .innerClass => "visit_inner_class"

inductive Error where
  | malformedSignature (cause : Signature.Malformed)
  | missingName (part : Part)
  | noOpenClass (event : EventKind)
  | unbalancedEnd
  | unknownHandle (kind : HandleKind) (handle : Nat)
deriving DecidableEq, Repr

namespace Error

def message : Error → String
  | .malformedSignature cause => cause.message
  | .missingName part => "Missing name for " ++ part.word
  | .noOpenClass event => "No open class for event '" ++ event.word ++ "'"
  | .unbalancedEnd => "Unbalanced end_class: no class under construction"
  | .unknownHandle kind handle => "Unknown " ++ kind.word ++ " handle " ++ toString handle

/-- The kind of problem that an error is. -/
def problemKind : Error → ProblemKind
  | .malformedSignature _ => .malformedSignature
  | .missingName _ => .missingName
  | .noOpenClass _ => .invalidModel
  | .unbalancedEnd => .invalidModel
  | .unknownHandle _ _ => .invalidModel

/-- The operation that fails with an error. -/
def operation : Error → String
  | .malformedSignature _ => "decode_signature"
  | _ => "build_model"

def toProblem (error : Error) : Problem where
  kind := error.problemKind
  operation := some error.operation
  message := error.message

end Error

end JvmDiff.Assembly
