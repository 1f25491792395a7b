import JvmDiff.Signature.Descriptor

/-!
# Scanning generic signatures

A type is scanned into the sequence of its marks, in the order in which they stand in the text.
A declaration, the signature of a class or a method, is scanned into its type parameters and
the types that follow them.  Every scan leaves a shorter text than it was given.
-/

namespace JvmDiff.Signature

/-- What a type argument says about the types it stands for. -/
inductive Bound where
  | subtypes
  | supertypes
  | exactly
deriving DecidableEq, Repr

/-- A mark inside a type. -/
inductive Mark where
  | primitive (letter : Char)
  | variable (name : String)
  | array
  | className (name : String)
  | memberName (name : String)
  | anyArgument
  | argument (bound : Bound)
  | classEnd
deriving DecidableEq, Repr

/-- The marks that were scanned and the rest of the text. -/
structure Scan (text : List Char) where
  marks : List Mark
  rest : List Char
  progress : rest.length < text.length

/-- The marks of type arguments and the text from the closing bracket on. -/
structure ArgumentScan (text : List Char) where
  marks : List Mark
  rest : List Char
  progress : rest.length ≤ text.length

/-- The mark for the part of a class name that ends where `rest` begins. -/
def nameMark (isMember : Bool) (start rest : List Char) : Except Fault Mark :=
  let name := String.ofList (start.take (start.length - rest.length))
  if start.length ≤ rest.length then .error ⟨start, .emptyClassName⟩
  else if isMember then .ok (.memberName name)
  else .ok (.className name)

mutual

/-- Scans the type at the front of a text. -/
def scanType (text : List Char) : Except Fault (Scan text) :=
  match text with
  | [] => .error ⟨[], .endOfSignature⟩
  | c :: rest =>
      if (primitiveName? c).isSome then
        .ok ⟨[.primitive c], rest, Nat.lt_succ_self _⟩
      else if c = '[' then
        match scanType rest with
        | .error fault => .error fault
        | .ok element =>
            .ok ⟨.array :: element.marks, element.rest, Nat.lt_succ_of_lt element.progress⟩
      else if c = 'T' then
        match split : splitAtMark ';' rest with
        | none => .error ⟨rest, .missing ';'⟩
        | some (name, after) =>
            .ok ⟨[.variable (String.ofList name)], after,
              Nat.lt_succ_of_lt (length_of_splitAtMark split)⟩
      else if c = 'L' then
        match scanName false false rest rest with
        | .error fault => .error fault
        | .ok scan => .ok ⟨scan.marks, scan.rest, Nat.lt_succ_of_lt scan.progress⟩
      else .error (Fault.unexpected c rest)
termination_by (text.length, 0)

/-- Scans a class type from inside a name that began at `start`.  Once the
arguments of the name are past, the name counts as shown, and what stands
between them and the next dot or semicolon is skipped. -/
def scanName (isMember isShown : Bool) (start text : List Char) : Except Fault (Scan text) :=
  match text with
  | [] => .error ⟨[], .endOfSignature⟩
  | c :: rest =>
      if c = '.' ∨ c = ';' then
        match if isShown then .ok [] else (nameMark isMember start (c :: rest)).map ([·]) with
        | .error fault => .error fault
        | .ok shown =>
            if c = ';' then
              .ok ⟨shown ++ [.classEnd], rest, Nat.lt_succ_self _⟩
            else
              match scanName true false rest rest with
              | .error fault => .error fault
              | .ok more =>
                  .ok ⟨shown ++ more.marks, more.rest, Nat.lt_succ_of_lt more.progress⟩
      else if c = '<' then
        match nameMark isMember start (c :: rest) with
        | .error fault => .error fault
        | .ok name =>
            match scanArguments rest with
            | .error fault => .error fault
            | .ok arguments =>
                match scanName isMember true start arguments.rest with
                | .error fault => .error fault
                | .ok more =>
                    .ok ⟨name :: (arguments.marks ++ more.marks), more.rest,
                      Nat.lt_of_lt_of_le more.progress
                        (Nat.le_succ_of_le arguments.progress)⟩
      else
        match scanName isMember isShown start rest with
        | .error fault => .error fault
        | .ok more => .ok ⟨more.marks, more.rest, Nat.lt_succ_of_lt more.progress⟩
termination_by (text.length, 0)
decreasing_by
  all_goals first
    | exact Prod.Lex.left _ _ (Nat.lt_succ_self _)
    | exact Prod.Lex.left _ _ (Nat.lt_succ_of_le arguments.progress)

/-- Scans type arguments up to the closing bracket, which stays. -/
def scanArguments (text : List Char) : Except Fault (ArgumentScan text) :=
  match text with
  | [] => .error ⟨[], .endOfSignature⟩
  | '>' :: rest => .ok ⟨[], '>' :: rest, Nat.le_refl _⟩
  | '*' :: rest =>
      match scanArguments rest with
      | .error fault => .error fault
      | .ok more => .ok ⟨.anyArgument :: more.marks, more.rest, Nat.le_succ_of_le more.progress⟩
  | '+' :: rest => scanBounded .subtypes rest (Nat.le_succ _)
  | '-' :: rest => scanBounded .supertypes rest (Nat.le_succ _)
  | c :: rest => scanBounded .exactly (c :: rest) (Nat.le_refl _)
termination_by (text.length, 2)

/-- Scans the type of an argument and the arguments that follow it. -/
def scanBounded {text : List Char} (bound : Bound) (rest : List Char)
    (shorter : rest.length ≤ text.length) : Except Fault (ArgumentScan text) :=
  match scanType rest with
  | .error fault => .error fault
  | .ok type =>
      match scanArguments type.rest with
      | .error fault => .error fault
      | .ok more =>
          .ok ⟨.argument bound :: (type.marks ++ more.marks), more.rest,
            Nat.le_trans more.progress (Nat.le_trans (Nat.le_of_lt type.progress) shorter)⟩
termination_by (rest.length, 1)
decreasing_by
  · exact Prod.Lex.right _ (Nat.lt_succ_self _)
  · exact Prod.Lex.left _ _ type.progress

end

/-- A type parameter with the marks of its bounds. -/
structure TypeParameter where
  name : String
  classBound : Option (List Mark)
  interfaceBounds : List (List Mark)
deriving DecidableEq, Repr

/-- The types that follow the type parameters. -/
inductive Body where
  | ofClass (superclass : List Mark) (interfaces : List (List Mark))
  | ofMethod (arguments : List (List Mark)) (result : List Mark) (exceptions : List (List Mark))
deriving DecidableEq, Repr

/-- The signature of a class or a method. -/
structure Declaration where
  typeParameters : List TypeParameter
  body : Body
deriving DecidableEq, Repr

/-- The types that each follow one of the given marks, as long as the mark comes
again, and the rest of the text. -/
def scanMarked (mark : Char) (text : List Char) :
    Except Fault { scanned : List (List Mark) × List Char // scanned.2.length ≤ text.length } :=
  match text with
  | [] => .error ⟨[], .endOfSignature⟩
  | c :: rest =>
      if c = mark then
        match scanType rest with
        | .error fault => .error fault
        | .ok type =>
            match scanMarked mark type.rest with
            | .error fault => .error fault
            | .ok ⟨(types, after), shorter⟩ =>
                .ok ⟨(type.marks :: types, after),
                  Nat.le_succ_of_le (Nat.le_trans shorter (Nat.le_of_lt type.progress))⟩
      else .ok ⟨([], c :: rest), Nat.le_refl _⟩
termination_by text.length
decreasing_by exact Nat.lt_succ_of_lt type.progress

/-- A bound by a class, if one stands at the front of the text. -/
def scanClassBound (text : List Char) :
    Except Fault { scanned : Option (List Mark) × List Char // scanned.2.length ≤ text.length } :=
  match text with
  | [] => .error ⟨[], .endOfSignature⟩
  | c :: rest =>
      if c = 'L' ∨ c = '[' ∨ c = 'T' then
        match scanType (c :: rest) with
        | .error fault => .error fault
        | .ok type => .ok ⟨(some type.marks, type.rest), Nat.le_of_lt type.progress⟩
      else .ok ⟨(none, c :: rest), Nat.le_refl _⟩

/-- The text after a closing bracket at its front. -/
def afterBracket? : List Char → Option (List Char)
  | '>' :: rest => some rest
  | _ => none

/-- The type parameters up to the closing bracket, at least one, and the text
after it. -/
def scanTypeParameters (text : List Char) : Except Fault (List TypeParameter × List Char) :=
  match split : splitAtMark ':' text with
  | none => .error ⟨text, .missing ':'⟩
  | some ([], _) => .error ⟨text, .emptyTypeParameterName⟩
  | some (c :: name, after) =>
      match scanClassBound after with
      | .error fault => .error fault
      | .ok ⟨(classBound, afterClass), classShorter⟩ =>
          match scanMarked ':' afterClass with
          | .error fault => .error fault
          | .ok ⟨(interfaceBounds, rest), shorter⟩ =>
              let parameter : TypeParameter :=
                ⟨String.ofList (c :: name), classBound, interfaceBounds⟩
              have : rest.length < text.length :=
                Nat.lt_of_le_of_lt (Nat.le_trans shorter classShorter)
                  (length_of_splitAtMark split)
              match afterBracket? rest with
              | some body => .ok ([parameter], body)
              | none =>
                  match scanTypeParameters rest with
                  | .error fault => .error fault
                  | .ok (parameters, body) => .ok (parameter :: parameters, body)
termination_by text.length

/-- The types of arguments up to the closing parenthesis, and the text after
it. -/
def scanParameters (text : List Char) :
    Except Fault (List (List Mark) × List Char) :=
  match text with
  | [] => .error ⟨[], .endOfSignature⟩
  | ')' :: rest => .ok ([], rest)
  | c :: rest =>
      match scanType (c :: rest) with
      | .error fault => .error fault
      | .ok type =>
          match scanParameters type.rest with
          | .error fault => .error fault
          | .ok (types, after) => .ok (type.marks :: types, after)
termination_by text.length
decreasing_by exact type.progress

/-- The types of exceptions up to the end of the text, each after its mark. -/
def scanExceptions (text : List Char) : Except Fault (List (List Mark)) :=
  match text with
  | [] => .ok []
  | c :: rest =>
      if c = '^' then
        match scanType rest with
        | .error fault => .error fault
        | .ok type =>
            match scanExceptions type.rest with
            | .error fault => .error fault
            | .ok types => .ok (type.marks :: types)
      else .error ⟨c :: rest, .expectedExceptionMark⟩
termination_by text.length
decreasing_by exact Nat.lt_succ_of_lt type.progress

/-- The types up to the end of the text. -/
def scanTypes (text : List Char) : Except Fault (List (List Mark)) :=
  match text with
  | [] => .ok []
  | c :: rest =>
      match scanType (c :: rest) with
      | .error fault => .error fault
      | .ok type =>
          match scanTypes type.rest with
          | .error fault => .error fault
          | .ok types => .ok (type.marks :: types)
termination_by text.length
decreasing_by exact type.progress

/-- The types after the type parameters: an opening parenthesis begins those of
a method. -/
def scanBody : List Char → Except Fault Body
  | [] => .error ⟨[], .endOfSignature⟩
  | '(' :: rest => do
      let (arguments, afterArguments) ← scanParameters rest
      let result ← scanType afterArguments
      let exceptions ← scanExceptions result.rest
      return .ofMethod arguments result.marks exceptions
  | text => do
      let superclass ← scanType text
      let interfaces ← scanTypes superclass.rest
      return .ofClass superclass.marks interfaces

/-- The whole signature of a class or a method. -/
def scanDeclaration : List Char → Except Fault Declaration
  | [] => .error ⟨[], .endOfSignature⟩
  | '<' :: rest => do
      let (typeParameters, afterParameters) ← scanTypeParameters rest
      let body ← scanBody afterParameters
      return ⟨typeParameters, body⟩
  | text => do
      let body ← scanBody text
      return ⟨[], body⟩

end JvmDiff.Signature
