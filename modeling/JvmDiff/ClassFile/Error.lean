import JvmDiff.Problem
import JvmDiff.Signature.Malformed

/-!
# Errors of reading a class file
-/

namespace JvmDiff.ClassFile

/-- The kinds of entries of a constant pool. -/
inductive EntryKind where
  | utf8
  | integer
  | float
  | long
  | double
  | classRef
  | string
  | memberRef
  | nameAndType
  | methodHandle
  | methodType
  | dynamic
  | moduleRef
  | packageRef
deriving DecidableEq, Repr

/-- The name of a kind of entries. -/
def EntryKind.name : EntryKind → String
  | .utf8 => "Utf8"
  | .integer => "Integer"
  | .float => "Float"
  | .long => "Long"
  | .double => "Double"
  | .classRef => "Class"
  | .string => "String"
  | .memberRef => "MemberRef"
  | .nameAndType => "NameAndType"
  | .methodHandle => "MethodHandle"
  | .methodType => "MethodType"
  | .dynamic => "Dynamic"
  | .moduleRef => "Module"
  | .packageRef => "Package"

inductive Error where
  /-- More bytes are needed at a position than there are. -/
  | truncated (needed position available : Nat)
  | badMagic (found : Nat)
  | emptyPool
  | unknownTag (tag slot : Nat)
  /-- A constant of two slots stands in the last slot. -/
  | wideOverrun
  | invalidIndex (index : Nat)
  | wrongEntry (index : Nat) (found expected : EntryKind)
  | notConstant (index : Nat) (found : EntryKind)
  | leadByte (byte : UInt8)
  | truncatedText
  | unpairedSurrogate (unit : Nat)
  | attributeTrail (name : String) (count : Nat)
  | invalidChar (code : Int)
  | unknownElementTag (tag : UInt8)
  | classTrail (count : Nat) (name : String)
  | descriptor (cause : Signature.Malformed)
deriving DecidableEq, Repr

namespace Error

/-- A number in hexadecimal, of at least the given number of digits. -/
def hexDigits (width n : Nat) : List Char :=
  let digits := Nat.toDigits 16 n
  List.replicate (width - digits.length) '0' ++ digits

def message : Error → String
  | .truncated needed position available =>
      "truncated input: need " ++ toString needed ++ " bytes at offset " ++ toString position ++
        ", have " ++ toString available
  | .badMagic found =>
      "bad magic 0x" ++ String.ofList ((hexDigits 8 found).map Char.toUpper)
  | .emptyPool => "constant pool count is zero"
  | .unknownTag tag slot =>
      "unknown constant pool tag " ++ toString tag ++ " at entry " ++ toString slot
  | .wideOverrun => "wide constant overruns the constant pool"
  | .invalidIndex index => "invalid constant pool index " ++ toString index
  | .wrongEntry index found expected =>
      "constant pool entry " ++ toString index ++ " is " ++ found.name ++ ", expected " ++
        expected.name
  | .notConstant index found =>
      "constant pool entry " ++ toString index ++ " (" ++ found.name ++
        ") cannot be a field constant"
  | .leadByte byte =>
      "invalid modified UTF-8 lead byte 0x" ++ String.ofList (hexDigits 2 byte.toNat)
  | .truncatedText => "truncated modified UTF-8 sequence"
  | .unpairedSurrogate unit =>
      "invalid modified UTF-8: unpaired surrogate found: " ++ String.ofList (hexDigits 1 unit)
  | .attributeTrail name count =>
      "attribute " ++ name ++ " has " ++ toString count ++ " trailing bytes"
  | .invalidChar code => "invalid char constant " ++ toString code
  | .unknownElementTag tag =>
      "unknown element_value tag " ++ Signature.inQuotes (Char.ofNat tag.toNat)
  | .classTrail count name => toString count ++ " trailing bytes after class " ++ name
  | .descriptor cause => cause.message

/-- The kind of problem that an error is. -/
def problemKind : Error → ProblemKind
  | .notConstant _ _ => .unsupportedConstant
  | .descriptor _ => .malformedSignature
  | _ => .malformedClassFile

/-- The operation that fails with an error. -/
def operation : Error → String
  | .descriptor _ => "decode_signature"
  | _ => "read_class"

def toProblem (error : Error) : Problem where
  kind := error.problemKind
  operation := some error.operation
  message := error.message

end Error

end JvmDiff.ClassFile
