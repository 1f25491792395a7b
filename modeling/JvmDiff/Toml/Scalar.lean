/-!
# Numbers, dates and truth values in TOML

Where a value of one of these kinds ends, if one stands at the start of a text.  The value itself
is of no use here, so only its form is checked, and that it is in range.
-/

namespace JvmDiff.Toml.Scalar

/-- The number that digits spell to a base up to 16. -/
def ofDigits (base : Nat) (digits : List Char) : Nat :=
  digits.foldl (fun value c => base * value + digit c) 0
where
  /-- The value of a digit. -/
  digit (c : Char) : Nat :=
    if c.isDigit then c.toNat - '0'.toNat
    else if 'a' ≤ c then c.toNat - 'a'.toNat + 10
    else c.toNat - 'A'.toNat + 10

/-- The digits at the start of a text, with single underscores between them, and
what follows them. -/
def digits (isDigit : Char → Bool) : List Char → List Char × List Char
  | [] => ([], [])
  | '_' :: text => ([], '_' :: text)
  | c :: '_' :: d :: rest =>
      if isDigit c then
        if isDigit d then
          let more := digits isDigit (d :: rest)
          (c :: more.1, more.2)
        else ([c], '_' :: d :: rest)
      else ([], c :: '_' :: d :: rest)
  | c :: rest =>
      if isDigit c then
        let more := digits isDigit rest
        (c :: more.1, more.2)
      else ([], c :: rest)

/-- What follows a plus or minus sign, if there is one. -/
def afterSign : List Char → List Char
  | '+' :: rest => rest
  | '-' :: rest => rest
  | text => text

/-- The digits of a decimal integer, which do not start with a zero unless there
is nothing else, and what follows them. -/
def decimal? : List Char → Option (List Char × List Char)
  | '0' :: rest => some (['0'], rest)
  | text =>
      match digits Char.isDigit text with
      | ([], _) => none
      | found => some found

/-- What follows an integer to a base, written with digits of the given kind. -/
def based? (base : Nat) (isDigit : Char → Bool) (text : List Char) : Option (List Char) :=
  match digits isDigit text with
  | ([], _) => none
  | (found, rest) => if ofDigits base found < 0x8000000000000000 then some rest else none

def isHexDigit (c : Char) : Bool :=
  c.isDigit || ('a' ≤ c && c ≤ 'f') || ('A' ≤ c && c ≤ 'F')

/-- What follows an integer of 64 bits. -/
def integer? (text : List Char) : Option (List Char) :=
  match text with
  | '0' :: 'x' :: rest => based? 16 isHexDigit rest
  | '0' :: 'o' :: rest => based? 8 (fun c => '0' ≤ c && c ≤ '7') rest
  | '0' :: 'b' :: rest => based? 2 (fun c => c = '0' || c = '1') rest
  | _ =>
      match decimal? (afterSign text) with
      | none => none
      | some (found, rest) =>
          let limit := if text.head? = some '-' then 0x8000000000000000 else 0x7FFFFFFFFFFFFFFF
          if ofDigits 10 found ≤ limit then some rest else none

/-- The digits of a number behind a mark, and what follows them. -/
def digitsAfter? (isMark : Char → Bool) : List Char → Option (List Char × List Char)
  | [] => none
  | c :: rest =>
      if isMark c then
        match digits Char.isDigit rest with
        | ([], _) => none
        | found => some found
      else none

def exponent? : List Char → Option (List Char)
  | c :: rest =>
      if c = 'e' ∨ c = 'E' then
        match digits Char.isDigit (afterSign rest) with
        | ([], _) => none
        | (_, after) => some after
      else none
  | [] => none

/-- What follows the words for infinity and for what is no number. -/
def special? : List Char → Option (List Char)
  | 'i' :: 'n' :: 'f' :: rest => some rest
  | 'n' :: 'a' :: 'n' :: rest => some rest
  | _ => none

/-- What follows a number with a fraction or an exponent. -/
def float? (text : List Char) : Option (List Char) :=
  match special? (afterSign text) with
  | some rest => some rest
  | none =>
      match decimal? (afterSign text) with
      | none => none
      | some (_, afterWhole) =>
          match digitsAfter? (fun c => c = '.') afterWhole with
          | some (_, afterFraction) => some ((exponent? afterFraction).getD afterFraction)
          | none => exponent? afterWhole

/-- The number of so many digits at the start of a text, and what follows it. -/
def fixed? (count : Nat) (text : List Char) : Option (Nat × List Char) :=
  let found := text.take count
  if found.length = count ∧ found.all Char.isDigit then
    some (ofDigits 10 found, text.drop count)
  else none

def after? (c : Char) : List Char → Option (List Char)
  | [] => none
  | d :: rest => if c = d then some rest else none

/-- The number of days of a month. -/
def daysOfMonth (year month : Nat) : Nat :=
  if month = 2 then
    if year % 4 = 0 ∧ (year % 100 ≠ 0 ∨ year % 400 = 0) then 29 else 28
  else if month = 4 ∨ month = 6 ∨ month = 9 ∨ month = 11 then 30
  else 31

def date? (text : List Char) : Option (List Char) := do
  let (year, text) ← fixed? 4 text
  let (month, text) ← fixed? 2 (← after? '-' text)
  let (day, text) ← fixed? 2 (← after? '-' text)
  if 1 ≤ month ∧ month ≤ 12 ∧ 1 ≤ day ∧ day ≤ daysOfMonth year month then some text else none

def time? (text : List Char) : Option (List Char) := do
  let (hour, text) ← fixed? 2 text
  let (minute, text) ← fixed? 2 (← after? ':' text)
  let (second, text) ← fixed? 2 (← after? ':' text)
  if hour ≤ 23 ∧ minute ≤ 59 ∧ second ≤ 60 then
    match text with
    | '.' :: c :: rest => if c.isDigit then some (rest.dropWhile Char.isDigit) else some text
    | _ => some text
  else none

/-- What follows the distance from universal time. -/
def offset? : List Char → Option (List Char)
  | c :: text =>
      if c = 'Z' ∨ c = 'z' then some text
      else if c = '+' ∨ c = '-' then do
        let (hour, text) ← fixed? 2 text
        let (minute, text) ← fixed? 2 (← after? ':' text)
        if hour ≤ 23 ∧ minute ≤ 59 then some text else none
      else none
  | [] => none

/-- What follows the time of a day that stands behind the day. -/
def timeOfDate? : List Char → Option (List Char)
  | c :: text =>
      if c = 'T' ∨ c = 't' ∨ c = ' ' then
        (time? text).map fun rest => (offset? rest).getD rest
      else none
  | [] => none

/-- What follows a day, a time or both. -/
def dateTime? (text : List Char) : Option (List Char) :=
  match date? text with
  | some rest => some ((timeOfDate? rest).getD rest)
  | none => time? text

def boolean? : List Char → Option (List Char)
  | 't' :: 'r' :: 'u' :: 'e' :: rest => some rest
  | 'f' :: 'a' :: 'l' :: 's' :: 'e' :: rest => some rest
  | _ => none

/-- What follows a number, a date or a truth value. -/
def skip? (text : List Char) : Option (List Char) :=
  boolean? text <|> dateTime? text <|> float? text <|> integer? text

end JvmDiff.Toml.Scalar
