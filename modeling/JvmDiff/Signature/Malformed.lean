/-!
# Malformed descriptors and signatures

Reading stops at the first place where the text does not go on as it has to.  A fault holds the
rest of the text from there on and the reason; the position that a message shows is counted in
bytes of the UTF-8 form.
-/

namespace JvmDiff.Signature

/-- Why the text cannot be read on. -/
inductive Reason where
  | endOfSignature
  | endOfDescriptor
  | missing (mark : Char)
  | expected (mark : Char)
  | expectedExceptionMark
  | emptyTypeParameterName
  | emptyClassName
  | unexpected (byte : UInt8)
  | trailingAfterType
  | trailingAfterReturnType
deriving DecidableEq, Repr

def inQuotes (c : Char) : String :=
  String.ofList ['\'', c, '\'']

/-- The wording of a reason.  A byte is shown as the character of its number. -/
def Reason.message : Reason → String
  | .endOfSignature => "unexpected end of signature"
  | .endOfDescriptor => "unexpected end of descriptor"
  | .missing mark => "missing " ++ inQuotes mark
  | .expected mark => "expected " ++ inQuotes mark
  | .expectedExceptionMark => "expected " ++ inQuotes '^' ++ " before exception type"
  | .emptyTypeParameterName => "empty formal type parameter name"
  | .emptyClassName => "empty class name"
  | .unexpected byte => "unexpected character " ++ inQuotes (Char.ofNat byte.toNat)
  | .trailingAfterType => "trailing characters after type"
  | .trailingAfterReturnType => "trailing characters after return type"

/-- The rest of the text where reading stopped, and why it did. -/
structure Fault where
  rest : List Char
  reason : Reason
deriving DecidableEq, Repr

/-- The fault of a character that cannot start a type: its first byte is
unexpected. -/
def Fault.unexpected (c : Char) (rest : List Char) : Fault :=
  ⟨c :: rest, .unexpected ((String.utf8EncodeChar c).headD 0)⟩

/-- The number of bytes of the UTF-8 form. -/
def byteLength : List Char → Nat
  | [] => 0
  | c :: rest => c.utf8Size + byteLength rest

/-- A text that is no descriptor or signature, with the position of the first
fault in bytes. -/
structure Malformed where
  text : String
  position : Nat
  reason : Reason
deriving DecidableEq, Repr

/-- The position of a fault is the length of what was read before it. -/
def Fault.within (fault : Fault) (text : String) : Malformed :=
  ⟨text, byteLength text.toList - byteLength fault.rest, fault.reason⟩

def Malformed.message (malformed : Malformed) : String :=
  "Malformed signature '" ++ malformed.text ++ "' at offset " ++ toString malformed.position ++
    ": " ++ malformed.reason.message

/-- Splits a text at the first mark, which belongs to neither part. -/
def splitAtMark (mark : Char) : List Char → Option (List Char × List Char)
  | [] => none
  | c :: rest =>
      if c = mark then some ([], rest)
      else (splitAtMark mark rest).map fun parts => (c :: parts.1, parts.2)

/-- What follows the mark is shorter than the text. -/
theorem length_of_splitAtMark {mark : Char} {text before after : List Char}
    (split : splitAtMark mark text = some (before, after)) : after.length < text.length := by
  induction text generalizing before with
  | nil => simp [splitAtMark] at split
  | cons c rest inductionHypothesis =>
    rw [splitAtMark] at split
    split at split
    · cases split
      simp
    · obtain ⟨⟨first, second⟩, restSplit, equal⟩ := Option.map_eq_some_iff.mp split
      cases equal
      exact Nat.lt_succ_of_lt (inductionHypothesis restSplit)

end JvmDiff.Signature
