/-!
# Texts and blanks in TOML

Texts stand between double quotes, with escapes, or between single quotes, without.  Three quotes
on either side make a text that can go over several lines.
-/

namespace JvmDiff.Toml

def isBlank (c : Char) : Bool :=
  c = ' ' || c = '\t'

/-- A character that may stand in a text or a comment. -/
def isPrintable (c : Char) : Bool :=
  c = '\t' || (0x20 ≤ c.toNat && c.toNat ≠ 0x7F)

def skipBlanks (text : List Char) : List Char :=
  text.dropWhile isBlank

/-- The text after a line break at its start. -/
def afterLineBreak? : List Char → Option (List Char)
  | '\n' :: rest => some rest
  | '\r' :: '\n' :: rest => some rest
  | _ => none

/-- The text after blanks, line breaks and comments, each comment with the end of
its line. -/
def skipLines (inComment : Bool) : List Char → List Char
  | [] => []
  | '\n' :: rest => skipLines false rest
  | '\r' :: '\n' :: rest => skipLines false rest
  | c :: rest =>
      if inComment then
        if isPrintable c then skipLines true rest else c :: rest
      else if c = '#' then skipLines true rest
      else if isBlank c then skipLines false rest
      else c :: rest

/-- The text after the end of a line on which only blanks and a comment are left. -/
def endLine? (inComment : Bool) : List Char → Option (List Char)
  | [] => some []
  | '\n' :: rest => some rest
  | '\r' :: '\n' :: rest => some rest
  | c :: rest =>
      if inComment then
        if isPrintable c then endLine? true rest else none
      else if c = '#' then endLine? true rest
      else if isBlank c then endLine? false rest
      else none

/-! ## Escapes -/

def hexValue? (c : Char) : Option Nat :=
  if '0' ≤ c ∧ c ≤ '9' then some (c.toNat - '0'.toNat)
  else if 'a' ≤ c ∧ c ≤ 'f' then some (c.toNat - 'a'.toNat + 10)
  else if 'A' ≤ c ∧ c ≤ 'F' then some (c.toNat - 'A'.toNat + 10)
  else none

/-- The character with the number that hexadecimal digits spell. -/
def hexChar? (digits : List Char) : Option Char := do
  let number ← digits.foldlM (fun value c => (hexValue? c).map (16 * value + ·)) 0
  if number < 0xD800 ∨ (0xDFFF < number ∧ number < 0x110000) then some (Char.ofNat number)
  else none

/-- The character that an escape stands for, from the letter after the backslash
on, and the number of characters of the escape. -/
def escape? : List Char → Option (Char × Nat)
  | 'b' :: _ => some ('\x08', 1)
  | 't' :: _ => some ('\t', 1)
  | 'n' :: _ => some ('\n', 1)
  | 'f' :: _ => some ('\x0c', 1)
  | 'r' :: _ => some ('\r', 1)
  | '"' :: _ => some ('"', 1)
  | '\\' :: _ => some ('\\', 1)
  | 'u' :: rest =>
      if 4 ≤ rest.length then (hexChar? (rest.take 4)).map fun c => (c, 5) else none
  | 'U' :: rest =>
      if 8 ≤ rest.length then (hexChar? (rest.take 8)).map fun c => (c, 9) else none
  | _ => none

/-- The text after a backslash at the end of a line: all blanks and line breaks
up to the next character. -/
def afterContinuation? (text : List Char) : Option (List Char) :=
  (afterLineBreak? (skipBlanks text)).map skipSpace
where
  /-- The text after blanks and line breaks. -/
  skipSpace : List Char → List Char
    | [] => []
    | '\n' :: rest => skipSpace rest
    | '\r' :: '\n' :: rest => skipSpace rest
    | c :: rest => if isBlank c then skipSpace rest else c :: rest

/-! ## Texts -/

/-- The characters of a text on one line up to its closing quote, and what
follows it.  Only double quotes have escapes. -/
def shortText? (quote : Char) (text : List Char) : Option (List Char × List Char) :=
  match text with
  | [] => none
  | c :: rest =>
      if c = quote then some ([], rest)
      else if c = '\\' ∧ quote = '"' then
        match escape? rest with
        | none => none
        | some (escaped, count) =>
            (shortText? quote (rest.drop count)).map fun found => (escaped :: found.1, found.2)
      else if isPrintable c then
        (shortText? quote rest).map fun found => (c :: found.1, found.2)
      else none
termination_by text.length
decreasing_by all_goals simp only [List.length_cons, List.length_drop]; omega

/-- The number of quotes at the start of a text. -/
def quoteCount (quote : Char) (text : List Char) : Nat :=
  (text.takeWhile (· = quote)).length

theorem length_skipSpace (text : List Char) :
    (afterContinuation?.skipSpace text).length ≤ text.length := by
  fun_induction afterContinuation?.skipSpace text with
  | case1 => exact Nat.le_refl _
  | case2 rest inductionHypothesis => exact Nat.le_succ_of_le inductionHypothesis
  | case3 rest inductionHypothesis =>
      exact Nat.le_succ_of_le (Nat.le_succ_of_le inductionHypothesis)
  | case4 c rest _ _ blank inductionHypothesis => exact Nat.le_succ_of_le inductionHypothesis
  | case5 => exact Nat.le_refl _

theorem length_skipBlanks (text : List Char) : (skipBlanks text).length ≤ text.length := by
  induction text with
  | nil => simp [skipBlanks]
  | cons c rest inductionHypothesis =>
      unfold skipBlanks at inductionHypothesis ⊢
      rw [List.dropWhile_cons]
      split
      · exact Nat.le_succ_of_le inductionHypothesis
      · exact Nat.le_refl _

theorem length_afterLineBreak? {text rest : List Char} (found : afterLineBreak? text = some rest) :
    rest.length ≤ text.length := by
  unfold afterLineBreak? at found
  split at found
  · cases found
    exact Nat.le_succ _
  · cases found
    exact Nat.le_succ_of_le (Nat.le_succ _)
  · contradiction

theorem length_afterContinuation? {text rest : List Char}
    (found : afterContinuation? text = some rest) : rest.length ≤ text.length := by
  obtain ⟨broken, breaks, equal⟩ := Option.map_eq_some_iff.mp found
  subst equal
  exact Nat.le_trans (length_skipSpace broken)
    (Nat.le_trans (length_afterLineBreak? breaks) (length_skipBlanks text))

/-- The characters of a text over several lines up to its closing quotes, and
what follows them.  Up to two quotes may stand before the closing ones. -/
def longText? (quote : Char) (text : List Char) : Option (List Char × List Char) :=
  match text with
  | [] => none
  | c :: rest =>
      let quotes := quoteCount quote (c :: rest)
      if 3 ≤ quotes then
        let extra := min quotes 5 - 3
        some (List.replicate extra quote, (c :: rest).drop (extra + 3))
      else if c = '\\' ∧ quote = '"' then
        match continued : afterContinuation? rest with
        | some after =>
            have : after.length ≤ rest.length := length_afterContinuation? continued
            longText? quote after
        | none =>
            match escape? rest with
            | none => none
            | some (escaped, count) =>
                (longText? quote (rest.drop count)).map fun found =>
                  (escaped :: found.1, found.2)
      else if c = '\r' ∧ rest.head? = some '\n' then
        longText? quote rest
      else if isPrintable c ∨ c = '\n' then
        (longText? quote rest).map fun found => (c :: found.1, found.2)
      else none
termination_by text.length
decreasing_by all_goals simp only [List.length_cons, List.length_drop]; omega

/-- The text that starts with a quote, and what follows it. -/
def text? : List Char → Option (String × List Char)
  | [] => none
  | quote :: rest =>
      if quote = '"' ∨ quote = '\'' then
        let found :=
          if 2 ≤ quoteCount quote rest then
            let body := rest.drop 2
            longText? quote ((afterLineBreak? body).getD body)
          else
            shortText? quote rest
        found.map fun parts => (String.ofList parts.1, parts.2)
      else none

end JvmDiff.Toml
