import JvmDiff.ClassFile.Error
import JvmDiff.Text.Utf16

/-!
# Modified UTF-8

Texts in a class file are sequences of 16-bit units.  A unit takes one byte between 1 and 127,
two bytes if it is zero or below 2048, and three bytes otherwise; a character above the sixteen
bits is a pair of units, each with its three bytes.
-/

namespace JvmDiff.ClassFile.ModifiedUtf8

/-- The low bits of a byte that continues a unit. -/
def continuation : Option UInt8 → Except Error Nat
  | none => .error .truncatedText
  | some byte =>
      if byte.toNat / 64 = 2 then .ok (byte.toNat % 64) else .error .truncatedText

def units : List UInt8 → Except Error (List Nat)
  | [] => .ok []
  | lead :: rest =>
      let n := lead.toNat
      if n < 0x80 then
        (units rest).map (n :: ·)
      else if n / 32 = 6 then do
        let second ← continuation rest.head?
        let more ← units (rest.drop 1)
        return (n % 32 * 64 + second) :: more
      else if n / 16 = 14 then do
        let second ← continuation rest.head?
        let third ← continuation (rest.drop 1).head?
        let more ← units (rest.drop 2)
        return (n % 16 * 4096 + second * 64 + third) :: more
      else
        .error (.leadByte lead)
termination_by bytes => bytes.length

def decode (bytes : List UInt8) : Except Error String := do
  let found ← units bytes
  match Text.Utf16.chars found with
  | .ok text => return String.ofList text
  | .error unit => throw (.unpairedSurrogate unit)

def bytesOf (unit : Nat) : List UInt8 :=
  if 0 < unit ∧ unit < 0x80 then
    [UInt8.ofNat unit]
  else if unit < 0x800 then
    [UInt8.ofNat (0xC0 + unit / 64), UInt8.ofNat (0x80 + unit % 64)]
  else
    [UInt8.ofNat (0xE0 + unit / 4096), UInt8.ofNat (0x80 + unit / 64 % 64),
      UInt8.ofNat (0x80 + unit % 64)]

def encode (text : String) : List UInt8 :=
  (text.toList.flatMap Text.Utf16.unitsOf).flatMap bytesOf

end JvmDiff.ClassFile.ModifiedUtf8
