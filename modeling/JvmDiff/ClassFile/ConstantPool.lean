import JvmDiff.ClassFile.Bytes
import JvmDiff.ClassFile.ModifiedUtf8
import JvmDiff.Field

/-!
# The constant pool

The constants of a class file are numbered by slots from 1 on.  A long or a double takes two
slots, of which the second, like slot 0, holds nothing.
-/

namespace JvmDiff.ClassFile

/-- An entry of the constant pool; numbers inside are slots. -/
inductive Entry where
  | utf8 (text : String)
  | integer (value : Int32)
  | float (value : Single)
  | long (value : Int64)
  | double (value : Double)
  | classRef (name : Nat)
  | string (text : Nat)
  | memberRef (owner nameAndType : Nat)
  | nameAndType (name descriptor : Nat)
  | methodHandle (kind reference : Nat)
  | methodType (descriptor : Nat)
  | dynamic (bootstrap nameAndType : Nat)
  | moduleRef (name : Nat)
  | packageRef (name : Nat)
deriving DecidableEq, Repr

namespace Entry

def kind : Entry → EntryKind
  | .utf8 _ => .utf8
  | .integer _ => .integer
  | .float _ => .float
  | .long _ => .long
  | .double _ => .double
  | .classRef _ => .classRef
  | .string _ => .string
  | .memberRef _ _ => .memberRef
  | .nameAndType _ _ => .nameAndType
  | .methodHandle _ _ => .methodHandle
  | .methodType _ => .methodType
  | .dynamic _ _ => .dynamic
  | .moduleRef _ => .moduleRef
  | .packageRef _ => .packageRef

/-- The entry takes two slots. -/
def isWide : Entry → Bool
  | .long _ => true
  | .double _ => true
  | _ => false

/-- The number of slots that an entry takes. -/
def width (entry : Entry) : Nat :=
  if entry.isWide then 2 else 1

/-- Reads the text of an entry: a length of two bytes, then as many bytes. -/
def readText : Reader String := do
  let length ← Reader.u2
  let bytes ← Reader.take length
  Reader.ofExcept (ModifiedUtf8.decode bytes)

/-- Reads the entry for the given slot. -/
def read (slot : Nat) : Reader Entry := do
  let tag ← Reader.u1
  match tag with
  | 1 => return .utf8 (← readText)
  | 3 => return .integer (Int32.ofNat (← Reader.u4))
  | 4 => return .float ⟨UInt32.ofNat (← Reader.u4)⟩
  | 5 => return .long (Int64.ofNat (← Reader.number 8))
  | 6 => return .double ⟨UInt64.ofNat (← Reader.number 8)⟩
  | 7 => return .classRef (← Reader.u2)
  | 8 => return .string (← Reader.u2)
  | 9 => return .memberRef (← Reader.u2) (← Reader.u2)
  | 10 => return .memberRef (← Reader.u2) (← Reader.u2)
  | 11 => return .memberRef (← Reader.u2) (← Reader.u2)
  | 12 => return .nameAndType (← Reader.u2) (← Reader.u2)
  | 15 => return .methodHandle (← Reader.u1) (← Reader.u2)
  | 16 => return .methodType (← Reader.u2)
  | 17 => return .dynamic (← Reader.u2) (← Reader.u2)
  | 18 => return .dynamic (← Reader.u2) (← Reader.u2)
  | 19 => return .moduleRef (← Reader.u2)
  | 20 => return .packageRef (← Reader.u2)
  | tag => throw (.unknownTag tag slot)

end Entry

/-- The constants by slots; a slot without one holds nothing. -/
structure ConstantPool where
  slots : List (Option Entry)
deriving DecidableEq, Repr

namespace ConstantPool

/-- Reads entries until the given number of slots is filled, the next slot being
`slot`. -/
def readSlots : Nat → Nat → Reader (List (Option Entry))
  | 0, _ => return []
  | missing + 1, slot => do
      let entry ← Entry.read slot
      if entry.isWide then
        match missing with
        | 0 => throw .wideOverrun
        | others + 1 =>
            let more ← readSlots others (slot + 2)
            return some entry :: none :: more
      else
        let more ← readSlots missing (slot + 1)
        return some entry :: more

/-- Reads the number of slots and the entries for all of them but the first. -/
def read : Reader ConstantPool := do
  let count ← Reader.u2
  if count = 0 then
    throw .emptyPool
  let slots ← readSlots (count - 1) 1
  return ⟨none :: slots⟩

def get (pool : ConstantPool) (index : Nat) : Except Error Entry :=
  match pool.slots[index]? with
  | some (some entry) => .ok entry
  | _ => .error (.invalidIndex index)

def utf8 (pool : ConstantPool) (index : Nat) : Except Error String := do
  match ← pool.get index with
  | .utf8 text => return text
  | entry => throw (.wrongEntry index entry.kind .utf8)

/-- The name of the class in a slot. -/
def className (pool : ConstantPool) (index : Nat) : Except Error String := do
  match ← pool.get index with
  | .classRef name => pool.utf8 name
  | entry => throw (.wrongEntry index entry.kind .classRef)

/-- The name of the class in a slot, where slot 0 stands for no class. -/
def optionalClassName (pool : ConstantPool) (index : Nat) : Except Error (Option String) :=
  if index = 0 then .ok none else (pool.className index).map some

def integer (pool : ConstantPool) (index : Nat) : Except Error Int32 := do
  match ← pool.get index with
  | .integer value => return value
  | entry => throw (.wrongEntry index entry.kind .integer)

def long (pool : ConstantPool) (index : Nat) : Except Error Int64 := do
  match ← pool.get index with
  | .long value => return value
  | entry => throw (.wrongEntry index entry.kind .long)

/-- The 32-bit floating-point number in a slot. -/
def float (pool : ConstantPool) (index : Nat) : Except Error Single := do
  match ← pool.get index with
  | .float value => return value
  | entry => throw (.wrongEntry index entry.kind .float)

/-- The 64-bit floating-point number in a slot. -/
def double (pool : ConstantPool) (index : Nat) : Except Error Double := do
  match ← pool.get index with
  | .double value => return value
  | entry => throw (.wrongEntry index entry.kind .double)

/-- The constant in a slot, as the value of a field. -/
def fieldConstant (pool : ConstantPool) (index : Nat) : Except Error Constant := do
  match ← pool.get index with
  | .integer value => return .int value
  | .long value => return .long value
  | .float value => return .float value
  | .double value => return .double value
  | .string text => return .string (← pool.utf8 text)
  | entry => throw (.notConstant index entry.kind)

end ConstantPool

end JvmDiff.ClassFile
