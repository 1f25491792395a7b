import JvmDiff.Signature.Rendering

/-!
# Walking over the bytes of a signature

A signature can be read with nothing but an offset in hand, at which the next byte is looked at and
from which names are cut out.  Such a walk may go wrong in ways that taking characters from the
front of a list cannot: it may go on for ever, look past the end of the text, or cut a character in
two.  Here the readers are written as walks in which each of these shows.  Every round of a loop and
every type inside a type is a step, and a walk is given a number of steps that it may take.
-/

namespace JvmDiff.Signature

/-- Why a walk stops before its end. -/
inductive Halt where
  | malformed (fault : Malformed)
  /-- A byte or a piece is taken that is not all inside the text. -/
  | outOfRange
  /-- A piece is taken that begins or ends inside a character. -/
  | offBoundary
deriving DecidableEq, Repr

/-- A walk over the bytes of a text; one that needs more steps is `none`. -/
abbrev Walk (α : Type) :=
  ExceptT Halt Option α

namespace Walk

/-! ## Bytes and pieces -/

def bytesOf (text : String) : List UInt8 :=
  text.toUTF8.data.toList

/-- A byte as the character of its number. -/
def asChar (byte : UInt8) : Char :=
  Char.ofNat byte.toNat

/-- The steps are used up. -/
def unfinished {α : Type} : Walk α :=
  ExceptT.mk none

def malformed {α : Type} (text : String) (position : Nat) (reason : Reason) : Walk α :=
  throw (.malformed ⟨text, position, reason⟩)

/-- The byte at an offset, or a fault of the text that it ends there. -/
def peek (text : String) (offset : Nat) (ending : Reason) : Walk UInt8 :=
  match (bytesOf text)[offset]? with
  | some byte => return byte
  | none => malformed text offset ending

/-- The byte at an offset, which has to be inside the text. -/
def index (text : String) (offset : Nat) : Walk UInt8 :=
  match (bytesOf text)[offset]? with
  | some byte => return byte
  | none => throw .outOfRange

/-- The bytes from an offset on, which has to be inside the text or its end. -/
def tail (text : String) (offset : Nat) : Walk (List UInt8) :=
  if offset ≤ (bytesOf text).length then return (bytesOf text).drop offset
  else throw .outOfRange

/-- The offset of the first mark from an offset on; the mark is a single byte. -/
def find (text : String) (start : Nat) (mark : Char) : Walk Nat :=
  match ((bytesOf text).drop start).findIdx? fun byte => asChar byte = mark with
  | some count => return start + count
  | none => malformed text start (.missing mark)

/-- The text up to an offset and the text from there on, none if no character
begins there and the text does not end there. -/
def splitAtByte : Nat → List Char → Option (List Char × List Char)
  | 0, text => some ([], text)
  | _ + 1, [] => none
  | offset + 1, c :: rest =>
      if c.utf8Size ≤ offset + 1 then
        (splitAtByte (offset + 1 - c.utf8Size) rest).map fun parts => (c :: parts.1, parts.2)
      else none

/-- The piece of the text between two offsets. -/
def slice (text : String) (start stop : Nat) : Walk String :=
  if stop < start ∨ (bytesOf text).length < stop then throw .outOfRange
  else
    match splitAtByte stop text.toList with
    | none => throw .offBoundary
    | some (front, _) =>
        match splitAtByte start front with
        | none => throw .offBoundary
        | some (_, piece) => return String.ofList piece

/-! ## Descriptors -/

/-- Counts opening brackets, up to the offset of what follows them. -/
def brackets (text : String) : (steps offset : Nat) → Walk (Nat × Nat)
  | 0, _ => unfinished
  | steps + 1, offset => do
      if ((bytesOf text)[offset]?).map asChar = some '[' then
        let (count, stop) ← brackets text steps (offset + 1)
        return (count + 1, stop)
      else return (0, offset)

/-- The name of a type followed by as many pairs of brackets as are counted. -/
def withBrackets (name : String) : Nat → String
  | 0 => name
  | count + 1 => withBrackets name count ++ "[]"

/-- The type of a descriptor from an offset behind its opening brackets on, and the
offset behind it. -/
def descriptorElement (text : String) (count offset : Nat) : Walk (String × Nat) := do
  let byte ← peek text offset .endOfDescriptor
  if asChar byte = 'L' then
    let bytes ← tail text offset
    match bytes.findIdx? fun byte => asChar byte = ';' with
    | none => malformed text offset (.missing ';')
    | some past =>
        if offset + past = offset + 1 then malformed text offset .emptyClassName
        else
          let name ← slice text (offset + 1) (offset + past)
          return (withBrackets (Text.dotted name) count, offset + past + 1)
  else
    match primitiveName? (asChar byte) with
    | none => malformed text offset (.unexpected byte)
    | some name => return (withBrackets name count, offset + 1)

def descriptorType (text : String) (steps start : Nat) : Walk (String × Nat) := do
  let (count, offset) ← brackets text steps start
  descriptorElement text count offset

def fieldDescriptor (text : String) (steps : Nat) : Walk String := do
  let (type, stop) ← descriptorType text steps 0
  if stop = (bytesOf text).length then return type
  else malformed text stop .trailingAfterType

/-- The types up to a closing parenthesis, and its offset. -/
def descriptorArguments (text : String) : (steps offset : Nat) → Walk (List String × Nat)
  | 0, _ => unfinished
  | steps + 1, offset => do
      let byte ← peek text offset (.missing ')')
      if asChar byte = ')' then return ([], offset)
      else
        let (type, next) ← descriptorType text steps offset
        let (types, stop) ← descriptorArguments text steps next
        return (type :: types, stop)

def methodDescriptor (text : String) (steps : Nat) : Walk (List String × String) := do
  if (bytesOf text).head?.map asChar = some '(' then
    let (arguments, closing) ← descriptorArguments text steps 1
    let (result, stop) ← descriptorType text steps (closing + 1)
    if stop = (bytesOf text).length then return (arguments, result)
    else malformed text stop .trailingAfterReturnType
  else malformed text 0 (.expected '(')

/-! ## Types of signatures -/

/-- The mark for the name between two offsets. -/
def name (text : String) (isMember : Bool) (start stop : Nat) : Walk Mark := do
  if stop ≤ start then malformed text start .emptyClassName
  else
    let name ← slice text start stop
    return if isMember then .memberName name else .className name

/-- The mark for the name between two offsets, if it has not been shown before. -/
def shownName (text : String) (isMember isShown : Bool) (start stop : Nat) : Walk (List Mark) :=
  if isShown then return [] else ([·]) <$> name text isMember start stop

mutual

/-- The marks of the type at an offset, and the offset behind it. -/
def type (text : String) : (steps start : Nat) → Walk (List Mark × Nat)
  | 0, _ => unfinished
  | steps + 1, start => do
      let byte ← peek text start .endOfSignature
      if (primitiveName? (asChar byte)).isSome then
        return ([.primitive (asChar byte)], start + 1)
      else if asChar byte = '[' then
        let (marks, stop) ← type text steps (start + 1)
        return (.array :: marks, stop)
      else if asChar byte = 'T' then
        let stop ← find text (start + 1) ';'
        let name ← slice text (start + 1) stop
        return ([.variable name], stop + 1)
      else if asChar byte = 'L' then
        className text steps false false (start + 1) (start + 1)
      else malformed text start (.unexpected byte)

/-- The marks of a class type from an offset on, inside a name that began at `start`,
byte by byte. -/
def className (text : String) : (steps : Nat) → (isMember isShown : Bool) →
    (start offset : Nat) → Walk (List Mark × Nat)
  | 0, _, _, _, _ => unfinished
  | steps + 1, isMember, isShown, start, offset => do
      let byte ← peek text offset .endOfSignature
      if asChar byte = '.' ∨ asChar byte = ';' then
        let shown ← shownName text isMember isShown start offset
        if asChar byte = ';' then return (shown ++ [.classEnd], offset + 1)
        else
          let (marks, stop) ← className text steps true false (offset + 1) (offset + 1)
          return (shown ++ marks, stop)
      else if asChar byte = '<' then
        let name ← name text isMember start offset
        let (arguments, closing) ← typeArguments text steps (offset + 1)
        let (marks, stop) ← className text steps isMember true start closing
        return (name :: (arguments ++ marks), stop)
      else className text steps isMember isShown start (offset + 1)

/-- The marks of type arguments, and the offset of the closing bracket. -/
def typeArguments (text : String) : (steps offset : Nat) → Walk (List Mark × Nat)
  | 0, _ => unfinished
  | steps + 1, offset => do
      let byte ← peek text offset .endOfSignature
      if asChar byte = '>' then return ([], offset)
      else if asChar byte = '*' then
        let (marks, stop) ← typeArguments text steps (offset + 1)
        return (.anyArgument :: marks, stop)
      else
        let (bound, start) :=
          if asChar byte = '+' then (Bound.subtypes, offset + 1)
          else if asChar byte = '-' then (Bound.supertypes, offset + 1)
          else (Bound.exactly, offset)
        let (type, next) ← type text steps start
        let (marks, stop) ← typeArguments text steps next
        return (.argument bound :: (type ++ marks), stop)

end

/-- The type of a field, all of the text. -/
def fieldSignature (text : String) (steps : Nat) : Walk String := do
  let (marks, stop) ← type text steps 0
  if stop = (bytesOf text).length then return Rendering.ofType true marks
  else malformed text stop .trailingAfterType

/-! ## Declarations -/

/-- The types after one colon each, as long as the next byte is one. -/
def interfaceBounds (text : String) : (steps offset : Nat) → Walk (List (List Mark) × Nat)
  | 0, _ => unfinished
  | steps + 1, offset => do
      let byte ← peek text offset .endOfSignature
      if asChar byte = ':' then
        let (bound, next) ← type text steps (offset + 1)
        let (bounds, stop) ← interfaceBounds text steps next
        return (bound :: bounds, stop)
      else return ([], offset)

def classBound (text : String) (steps offset : Nat) : Walk (Option (List Mark) × Nat) := do
  let byte ← peek text offset .endOfSignature
  if asChar byte = 'L' ∨ asChar byte = '[' ∨ asChar byte = 'T' then
    let (bound, stop) ← type text steps offset
    return (some bound, stop)
  else return (none, offset)

/-- The type parameters, and the offset of the closing bracket. -/
def typeParameters (text : String) : (steps offset : Nat) → Walk (List TypeParameter × Nat)
  | 0, _ => unfinished
  | steps + 1, offset => do
      let colon ← find text offset ':'
      if colon = offset then malformed text offset .emptyTypeParameterName
      else
        let name ← slice text offset colon
        let (classBound, afterClass) ← classBound text steps (colon + 1)
        let (interfaceBounds, next) ← interfaceBounds text steps afterClass
        let parameter : TypeParameter := ⟨name, classBound, interfaceBounds⟩
        let byte ← peek text next .endOfSignature
        if asChar byte = '>' then return ([parameter], next)
        else
          let (parameters, stop) ← typeParameters text steps next
          return (parameter :: parameters, stop)

/-- The types up to a closing parenthesis, and its offset. -/
def arguments (text : String) : (steps offset : Nat) → Walk (List (List Mark) × Nat)
  | 0, _ => unfinished
  | steps + 1, offset => do
      let byte ← peek text offset .endOfSignature
      if asChar byte = ')' then return ([], offset)
      else
        let (argument, next) ← type text steps offset
        let (arguments, stop) ← arguments text steps next
        return (argument :: arguments, stop)

/-- The types up to the end of the text, each after its mark. -/
def exceptions (text : String) : (steps offset : Nat) → Walk (List (List Mark))
  | 0, _ => unfinished
  | steps + 1, offset => do
      if offset < (bytesOf text).length then
        let byte ← index text offset
        if asChar byte = '^' then
          let (exception, next) ← type text steps (offset + 1)
          let exceptions ← exceptions text steps next
          return exception :: exceptions
        else malformed text offset .expectedExceptionMark
      else return []

/-- The types up to the end of the text. -/
def interfaces (text : String) : (steps offset : Nat) → Walk (List (List Mark))
  | 0, _ => unfinished
  | steps + 1, offset => do
      if offset < (bytesOf text).length then
        let (interface, next) ← type text steps offset
        let interfaces ← interfaces text steps next
        return interface :: interfaces
      else return []

def body (text : String) (steps offset : Nat) : Walk Body := do
  let byte ← peek text offset .endOfSignature
  if asChar byte = '(' then
    let (arguments, closing) ← arguments text steps (offset + 1)
    let (result, next) ← type text steps (closing + 1)
    let exceptions ← exceptions text steps next
    return .ofMethod arguments result exceptions
  else
    let (superclass, next) ← type text steps offset
    let interfaces ← interfaces text steps next
    return .ofClass superclass interfaces

def declaration (text : String) (steps : Nat) : Walk Declaration := do
  let byte ← peek text 0 .endOfSignature
  if asChar byte = '<' then
    let (parameters, closing) ← typeParameters text steps 1
    let body ← body text steps (closing + 1)
    return ⟨parameters, body⟩
  else
    let body ← body text steps 0
    return ⟨[], body⟩

def classSignature (text : String) (steps : Nat) : Walk ClassSignature := do
  let declared ← declaration text steps
  return declared.toClass

/-- What the walk through a declaration has written: the type parameters and, for a
method, its arguments in parentheses. -/
def written (declared : Declaration) : String :=
  match declared.body with
  | .ofClass _ _ => String.ofList declared.head.text
  | .ofMethod arguments _ _ =>
      let shown := (arguments.foldl Rendering.argument declared.head).text
      String.ofList (shown ++ if arguments = [] then ['(', ')'] else [')'])

/-- What is written behind the type parameters, without the parentheses if it has
them. -/
def writtenArguments (typeParameters written : String) : Walk String := do
  let rest ← slice written (bytesOf typeParameters).length (bytesOf written).length
  match rest.toList with
  | '(' :: inside =>
      if inside.getLast? = some ')' then return String.ofList inside.dropLast
      else return rest
  | _ => return rest

def methodSignature (text : String) (steps : Nat) : Walk MethodSignature := do
  let declared ← declaration text steps
  let typeParameters := String.ofList declared.head.typeParameters
  let arguments ← writtenArguments typeParameters (written declared)
  return { declared.toMethod with arguments := arguments }

end Walk

end JvmDiff.Signature
