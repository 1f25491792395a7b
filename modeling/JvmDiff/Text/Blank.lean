/-!
# Blank text

The code points with the Unicode property White_Space, and texts made of nothing else.
-/

namespace JvmDiff.Text

/-- The code points with the Unicode property White_Space. -/
def isBlankChar (c : Char) : Bool :=
  let n := c.toNat
  (0x09 ≤ n && n ≤ 0x0D) || n = 0x20 || n = 0x85 || n = 0xA0 || n = 0x1680 ||
    (0x2000 ≤ n && n ≤ 0x200A) || n = 0x2028 || n = 0x2029 || n = 0x202F ||
    n = 0x205F || n = 0x3000

/-- A text is blank when it is empty or holds white space only. -/
def isBlank (text : String) : Bool :=
  text.toList.all isBlankChar

end JvmDiff.Text
