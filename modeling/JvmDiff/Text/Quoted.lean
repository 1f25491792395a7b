import JvmDiff.Text.Unprintable

/-!
# Quoted texts and characters

The form in which a character or a text stands inside a canonical content: between quotes,
with the quote in use, the backslash and the common controls behind a backslash, and every
other unprintable code point as its hexadecimal number in braces.
-/

namespace JvmDiff.Text

/-- One character inside quotes of the given kind. -/
def escaped (quote : Char) (c : Char) : List Char :=
  if c = '\x00' then ['\\', '0']
  else if c = '\t' then ['\\', 't']
  else if c = '\n' then ['\\', 'n']
  else if c = '\r' then ['\\', 'r']
  else if c = '\\' then ['\\', '\\']
  else if c = quote then ['\\', quote]
  else if isUnprintable c then
    ['\\', 'u', '\x7b'] ++ Nat.toDigits 16 c.toNat ++ ['\x7d']
  else [c]

def quoted (text : String) : String :=
  String.ofList ('"' :: text.toList.flatMap (escaped '"') ++ ['"'])

def quotedChar (c : Char) : String :=
  String.ofList ('\'' :: escaped '\'' c ++ ['\''])

end JvmDiff.Text
