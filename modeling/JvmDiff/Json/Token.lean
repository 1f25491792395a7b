import JvmDiff.Json.Basic
import JvmDiff.Text.Utf16

/-!
# The tokens of a JSON text

A JSON text is a sequence of tokens with blanks between them.  A token is read from its first
character on and is as long as it can be.
-/

namespace JvmDiff.Json

/-- A token of a JSON text. -/
inductive Token where
  | openArray
  | closeArray
  | openObject
  | closeObject
  | comma
  | colon
  | null
  | boolean (value : Bool)
  | integer (value : Int)
  | decimal (isNegative : Bool) (significand : Nat) (exponent : Int)
  | string (text : Option String)
deriving DecidableEq, Repr

namespace Token

def isSpace (c : Char) : Bool :=
  c = ' ' || c = '\n' || c = '\t' || c = '\r'

/-- What is left of a text is shorter than the text. -/
abbrev Shorter (text : List Char) : Type :=
  { rest : List Char // rest.length < text.length }

/-! ## Strings -/

def hexValue? (c : Char) : Option Nat :=
  if '0' ≤ c ∧ c ≤ '9' then some (c.toNat - '0'.toNat)
  else if 'a' ≤ c ∧ c ≤ 'f' then some (c.toNat - 'a'.toNat + 10)
  else if 'A' ≤ c ∧ c ≤ 'F' then some (c.toNat - 'A'.toNat + 10)
  else none

/-- The number that four hexadecimal digits spell. -/
def hexUnit? (a b c d : Char) : Option Nat := do
  return ((← hexValue? a) * 16 + (← hexValue? b)) * 256 + (← hexValue? c) * 16 + (← hexValue? d)

/-- The character that a letter after a backslash stands for. -/
def escape? : Char → Option Char
  | '"' => some '"'
  | '\\' => some '\\'
  | '/' => some '/'
  | 'b' => some '\x08'
  | 'f' => some '\x0c'
  | 'n' => some '\n'
  | 'r' => some '\r'
  | 't' => some '\t'
  | _ => none

/-- The units that the first character or escape inside a string spells, and
what follows it. -/
def unitsAt? : List Char → Option (List Nat × List Char)
  | '\\' :: 'u' :: a :: b :: c :: d :: rest => (hexUnit? a b c d).map fun unit => ([unit], rest)
  | '\\' :: letter :: rest => (escape? letter).map fun c => (Text.Utf16.unitsOf c, rest)
  | c :: rest => if c.toNat < 0x20 ∨ c = '\\' then none else some (Text.Utf16.unitsOf c, rest)
  | [] => none

theorem length_of_unitsAt? {text rest : List Char} {units : List Nat}
    (found : unitsAt? text = some (units, rest)) : rest.length < text.length := by
  unfold unitsAt? at found
  split at found
  · obtain ⟨_, _, equal⟩ := Option.map_eq_some_iff.mp found
    cases equal
    simp only [List.length_cons]
    omega
  · obtain ⟨_, _, equal⟩ := Option.map_eq_some_iff.mp found
    cases equal
    simp only [List.length_cons]
    omega
  · split at found
    · contradiction
    · cases found
      simp
  · contradiction

/-- The units inside a string up to its closing quote, and what follows it. -/
def stringUnits? (text : List Char) : Option (List Nat × Shorter text) :=
  match text with
  | [] => none
  | '"' :: rest => some ([], ⟨rest, Nat.lt_succ_self _⟩)
  | c :: tail =>
      match found : unitsAt? (c :: tail) with
      | none => none
      | some (units, rest) =>
          have shorter := length_of_unitsAt? found
          (stringUnits? rest).map fun more =>
            (units ++ more.1, ⟨more.2.1, Nat.lt_trans more.2.2 shorter⟩)
termination_by text.length
decreasing_by exact shorter

/-! ## Numbers -/

/-- The digits at the start of a text. -/
def digits (text : List Char) : List Char :=
  text.takeWhile Char.isDigit

/-- What follows the digits at the start of a text. -/
def afterDigits (text : List Char) : List Char :=
  text.dropWhile Char.isDigit

def ofDigits (digits : List Char) : Nat :=
  digits.foldl (fun value c => 10 * value + (c.toNat - '0'.toNat)) 0

theorem length_afterDigits (text : List Char) : (afterDigits text).length ≤ text.length := by
  induction text with
  | nil => simp [afterDigits]
  | cons c rest inductionHypothesis =>
    unfold afterDigits at inductionHypothesis ⊢
    rw [List.dropWhile_cons]
    split
    · exact Nat.le_succ_of_le inductionHypothesis
    · exact Nat.le_refl _

/-- Whether a text starts with a minus sign, and what follows the sign. -/
def minus : List Char → Bool × List Char
  | '-' :: rest => (true, rest)
  | text => (false, text)

theorem length_minus (text : List Char) : (minus text).2.length ≤ text.length := by
  unfold minus
  split
  · exact Nat.le_succ _
  · exact Nat.le_refl _

/-- The digits of the whole part, a zero alone or digits that do not start with
one, and what follows them. -/
def wholePart? : List Char → Option (List Char × List Char)
  | '0' :: rest => some (['0'], rest)
  | c :: rest =>
      if c.isDigit then some (c :: digits rest, afterDigits rest) else none
  | [] => none

/-- The digits after a point, none without a point, and what follows them. -/
def fraction? : List Char → Option (List Char × List Char)
  | '.' :: rest => if digits rest = [] then none else some (digits rest, afterDigits rest)
  | text => some ([], text)

/-- The digits of an exponent, at least one, and what follows them. -/
def exponentDigits? (isNegative : Bool) (text : List Char) : Option (Int × List Char) :=
  if digits text = [] then none
  else
    let value : Int := ofDigits (digits text)
    some (if isNegative then -value else value, afterDigits text)

/-- The exponent at the start of a text, if it has one, and what follows it. -/
def exponent? : List Char → Option (Option Int × List Char)
  | c :: text =>
      if c = 'e' ∨ c = 'E' then
        let found :=
          match text with
          | '-' :: rest => exponentDigits? true rest
          | '+' :: rest => exponentDigits? false rest
          | rest => exponentDigits? false rest
        found.map fun part => (some part.1, part.2)
      else some (none, c :: text)
  | [] => some (none, [])

/-- The greatest significand that a number keeps. -/
def maxSignificand : Nat :=
  0xFFFFFFFFFFFFFFFF

/-- The significand with digits behind it as long as it can be kept, and the
digits from the first one on that cannot be taken in. -/
def appendDigits (significand : Nat) : List Char → Nat × List Char
  | [] => (significand, [])
  | c :: rest =>
      let longer := 10 * significand + (c.toNat - '0'.toNat)
      if longer ≤ maxSignificand then appendDigits longer rest else (significand, c :: rest)

/-- The token of a number from its sign and its parts.  Digits before the point
that are left out count in the exponent, and so do digits behind it that are
taken in. -/
def ofParts (isNegative : Bool) (whole fraction : List Char) (exponent : Option Int) : Token :=
  let (start, leftOut) := appendDigits 0 whole
  let (significand, unread) := appendDigits start fraction
  if fraction = [] ∧ exponent = none ∧ leftOut = [] ∧ ¬ (isNegative ∧ start = 0) then
    .integer (if isNegative then -start else start)
  else
    let taken := fraction.length - unread.length
    .decimal isNegative significand (exponent.getD 0 + leftOut.length - taken)

/-- The number at the start of a text, and what follows it. -/
def number? (text : List Char) : Option (Token × List Char) := do
  let (isNegative, unsigned) := minus text
  let (whole, afterWhole) ← wholePart? unsigned
  let (fraction, afterFraction) ← fraction? afterWhole
  let (exponent, rest) ← exponent? afterFraction
  return (ofParts isNegative whole fraction exponent, rest)

theorem length_of_wholePart? {text whole rest : List Char}
    (found : wholePart? text = some (whole, rest)) : rest.length < text.length := by
  unfold wholePart? at found
  split at found
  · cases found
    simp
  · split at found
    · cases found
      exact Nat.lt_succ_of_le (length_afterDigits _)
    · contradiction
  · contradiction

theorem length_of_fraction? {text fraction rest : List Char}
    (found : fraction? text = some (fraction, rest)) : rest.length ≤ text.length := by
  unfold fraction? at found
  split at found
  · split at found
    · contradiction
    · cases found
      exact Nat.le_succ_of_le (length_afterDigits _)
  · cases found
    exact Nat.le_refl _

theorem length_of_exponentDigits? {isNegative : Bool} {text rest : List Char} {value : Int}
    (found : exponentDigits? isNegative text = some (value, rest)) :
    rest.length ≤ text.length := by
  unfold exponentDigits? at found
  split at found
  · contradiction
  · cases found
    exact length_afterDigits _

theorem length_of_exponent? {text rest : List Char} {value : Option Int}
    (found : exponent? text = some (value, rest)) : rest.length ≤ text.length := by
  unfold exponent? at found
  split at found
  · split at found
    · obtain ⟨⟨_, _⟩, part, equal⟩ := Option.map_eq_some_iff.mp found
      cases equal
      split at part
      · exact Nat.le_trans (length_of_exponentDigits? part)
          (Nat.le_succ_of_le (Nat.le_succ _))
      · exact Nat.le_trans (length_of_exponentDigits? part)
          (Nat.le_succ_of_le (Nat.le_succ _))
      · exact Nat.le_trans (length_of_exponentDigits? part) (Nat.le_succ _)
    · cases found
      exact Nat.le_refl _
  · cases found
    exact Nat.le_refl _

theorem length_of_number? {text rest : List Char} {token : Token}
    (found : number? text = some (token, rest)) : rest.length < text.length := by
  unfold number? at found
  simp only [Option.bind_eq_bind, Option.bind_eq_some_iff, Option.pure_def, Option.some.injEq,
    Prod.mk.injEq] at found
  obtain ⟨⟨_, _⟩, whole, ⟨_, _⟩, fraction, ⟨_, _⟩, exponent, _, rfl⟩ := found
  have first := length_of_wholePart? whole
  have second := length_of_fraction? fraction
  have third := length_of_exponent? exponent
  exact Nat.lt_of_le_of_lt (Nat.le_trans third second)
    (Nat.lt_of_lt_of_le first (length_minus text))

/-! ## All tokens -/

def punctuation? : Char → Option Token
  | '[' => some .openArray
  | ']' => some .closeArray
  | '\x7b' => some .openObject
  | '\x7d' => some .closeObject
  | ',' => some .comma
  | ':' => some .colon
  | _ => none

/-- The token that is a word, and what follows it. -/
def word? : List Char → Option (Token × List Char)
  | 'n' :: 'u' :: 'l' :: 'l' :: rest => some (.null, rest)
  | 't' :: 'r' :: 'u' :: 'e' :: rest => some (.boolean true, rest)
  | 'f' :: 'a' :: 'l' :: 's' :: 'e' :: rest => some (.boolean false, rest)
  | _ => none

theorem length_of_word? {text rest : List Char} {token : Token}
    (found : word? text = some (token, rest)) : rest.length < text.length := by
  unfold word? at found
  split at found
  · cases found
    simp only [List.length_cons]
    omega
  · cases found
    simp only [List.length_cons]
    omega
  · cases found
    simp only [List.length_cons]
    omega
  · contradiction

/-- The token at the start of a text, and what follows it. -/
def next? (text : List Char) : Option (Token × Shorter text) :=
  match text with
  | [] => none
  | c :: rest =>
      match punctuation? c with
      | some token => some (token, ⟨rest, Nat.lt_succ_self _⟩)
      | none =>
          if c = '"' then
            (stringUnits? rest).map fun found =>
              (.string (Text.Utf16.text? found.1), ⟨found.2.1, Nat.lt_succ_of_lt found.2.2⟩)
          else
            match found : word? (c :: rest) with
            | some (token, after) => some (token, ⟨after, length_of_word? found⟩)
            | none =>
                match found : number? (c :: rest) with
                | some (token, after) => some (token, ⟨after, length_of_number? found⟩)
                | none => none

/-- The tokens of a text, if it is a sequence of tokens and blanks. -/
def all? (text : List Char) : Option (List Token) :=
  match text with
  | [] => some []
  | c :: rest =>
      if isSpace c then all? rest
      else
        match next? (c :: rest) with
        | none => none
        | some (token, ⟨after, _⟩) => (all? after).map (token :: ·)
termination_by text.length
decreasing_by
  · exact Nat.lt_succ_self _
  · assumption

end Token

end JvmDiff.Json
