import JvmDiff.ClassFile.Error

/-!
# Reading and writing big-endian numbers

Numbers of a class file are written with the most significant byte first.  A reader takes bytes
from the front of its input and knows how many it has taken, so that an error can name the
position.
-/

namespace JvmDiff.ClassFile

/-- The number as the given count of bytes, the most significant first; higher
bytes are lost. -/
def bigEndian : Nat → Nat → List UInt8
  | 0, _ => []
  | count + 1, n => UInt8.ofNat (n / Nat.pow 256 count) :: bigEndian count n

/-- The number that bytes spell, the most significant first. -/
def ofBigEndian (bytes : List UInt8) : Nat :=
  bytes.foldl (fun n byte => 256 * n + byte.toNat) 0

/-- What is left to read, and how many bytes were read before it. -/
structure Input where
  position : Nat
  rest : List UInt8
deriving DecidableEq, Repr

namespace Input

/-- All bytes are to be read. -/
def ofBytes (bytes : List UInt8) : Input :=
  ⟨0, bytes⟩

end Input

/-- A step of reading: a value and what is left, or an error. -/
abbrev Reader (α : Type) :=
  StateT Input (Except Error) α

namespace Reader

def take (count : Nat) : Reader (List UInt8) := fun input =>
  let taken := input.rest.take count
  if taken.length = count then
    .ok (taken, ⟨input.position + count, input.rest.drop count⟩)
  else
    .error (.truncated count input.position input.rest.length)

/-- Reads a number of the given count of bytes. -/
def number (count : Nat) : Reader Nat := do
  let bytes ← take count
  return ofBigEndian bytes

def u1 : Reader Nat :=
  number 1

def u2 : Reader Nat :=
  number 2

def u4 : Reader Nat :=
  number 4

/-- Reads one after another the given number of times. -/
def repeated {α : Type} (read : Reader α) : Nat → Reader (List α)
  | 0 => return []
  | count + 1 => do
      let first ← read
      let more ← repeated read count
      return first :: more

/-- Reads a count of two bytes and then as many values. -/
def counted {α : Type} (read : Reader α) : Reader (List α) := do
  let count ← u2
  repeated read count

/-- A result that was found without reading. -/
def ofExcept {α : Type} (result : Except Error α) : Reader α :=
  liftM result

/-- Reads from a body of its own; what the step leaves of it is returned. -/
def within {α : Type} (body : List UInt8) (read : Reader α) : Reader (α × Input) :=
  ofExcept (read (Input.ofBytes body))

end Reader

end JvmDiff.ClassFile
