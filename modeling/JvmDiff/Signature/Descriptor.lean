import JvmDiff.Signature.Malformed
import JvmDiff.Text.Order

/-!
# Descriptors

A descriptor spells a type without type arguments: a letter for a primitive type, `L`, a name
and a semicolon for a class, and an opening bracket before the element type of an array.
-/

namespace JvmDiff.Signature

def primitiveNames : List (Char × String) :=
  [('V', "void"), ('B', "byte"), ('J', "long"), ('Z', "boolean"), ('I', "int"), ('S', "short"),
    ('C', "char"), ('F', "float"), ('D', "double")]

def primitiveName? (letter : Char) : Option String :=
  (primitiveNames.find? fun entry => entry.1 = letter).map Prod.snd

namespace Descriptor

/-- A type that was read and the rest of the text, which is shorter than the
text. -/
structure Read (text : List Char) where
  type : String
  rest : List Char
  progress : rest.length < text.length

/-- Reads the type at the front of a text. -/
def readType : (text : List Char) → Except Fault (Read text)
  | [] => .error ⟨[], .endOfDescriptor⟩
  | c :: rest =>
      if c = '[' then
        match readType rest with
        | .error fault => .error fault
        | .ok element => .ok ⟨element.type ++ "[]", element.rest, Nat.lt_succ_of_lt element.progress⟩
      else if c = 'L' then
        match split : splitAtMark ';' rest with
        | none => .error ⟨c :: rest, .missing ';'⟩
        | some (name, after) =>
            if name = [] then .error ⟨c :: rest, .emptyClassName⟩
            else
              .ok ⟨Text.dotted (String.ofList name), after,
                Nat.lt_succ_of_lt (length_of_splitAtMark split)⟩
      else
        match primitiveName? c with
        | none => .error (Fault.unexpected c rest)
        | some name => .ok ⟨name, rest, Nat.lt_succ_self _⟩

/-- The types up to the closing parenthesis, and what follows it. -/
def readArguments (text : List Char) : Except Fault (List String × List Char) :=
  match text with
  | [] => .error ⟨[], .missing ')'⟩
  | ')' :: rest => .ok ([], rest)
  | c :: rest =>
      match readType (c :: rest) with
      | .error fault => .error fault
      | .ok first =>
          match readArguments first.rest with
          | .error fault => .error fault
          | .ok (types, after) => .ok (first.type :: types, after)
termination_by text.length
decreasing_by exact first.progress

/-- The argument types and the return type of a method descriptor. -/
def readMethod : List Char → Except Fault (List String × String)
  | '(' :: rest =>
      match readArguments rest with
      | .error fault => .error fault
      | .ok (types, after) =>
          match readType after with
          | .error fault => .error fault
          | .ok result =>
              if result.rest = [] then .ok (types, result.type)
              else .error ⟨result.rest, .trailingAfterReturnType⟩
  | text => .error ⟨text, .expected '('⟩

end Descriptor

/-- The type that a field descriptor spells. -/
def decodeFieldDescriptor (descriptor : String) : Except Malformed String :=
  match Descriptor.readType descriptor.toList with
  | .error fault => .error (fault.within descriptor)
  | .ok read =>
      if read.rest = [] then .ok read.type
      else .error (Fault.within ⟨read.rest, .trailingAfterType⟩ descriptor)

/-- The argument types and the return type that a method descriptor spells. -/
def decodeMethodDescriptor (descriptor : String) : Except Malformed (List String × String) :=
  match Descriptor.readMethod descriptor.toList with
  | .error fault => .error (fault.within descriptor)
  | .ok types => .ok types

end JvmDiff.Signature
