import JvmDiff.Json.Printer
import JvmDiff.Json.Token
import JvmDiff.Proofs.ClassFile.ModifiedUtf8

/-!
# Tokens read back

The characters that are written for a token are read as this token.  A string and a sign say
themselves where they end; a number ends where no digit, point or exponent follows.
-/

namespace JvmDiff.Json.Token

open Text.Utf16 (unitsOf)

/-! ## Strings -/

/-- The text holds the units up to a closing quote, and the rest behind it. -/
def Quotes (text : List Char) (units : List Nat) (rest : List Char) : Prop :=
  ∃ shorter, stringUnits? text = some (units, ⟨rest, shorter⟩)

theorem quotes_end (rest : List Char) : Quotes ('"' :: rest) [] rest := by
  refine ⟨Nat.lt_succ_self _, ?_⟩
  rw [stringUnits?]

theorem Quotes.cons {c : Char} {tail after rest : List Char} {units more : List Nat}
    (quotes : Quotes after more rest) (noQuote : c ≠ '"')
    (found : unitsAt? (c :: tail) = some (units, after)) :
    Quotes (c :: tail) (units ++ more) rest := by
  obtain ⟨shorter, read⟩ := quotes
  refine ⟨Nat.lt_trans shorter (length_of_unitsAt? found), ?_⟩
  rw [stringUnits?]
  · split
    case h_1 missing => rw [found] at missing; cases missing
    case h_2 otherUnits otherAfter same =>
      rw [found] at same
      cases same
      rw [read]
      rfl
  · exact noQuote

theorem hexValue?_digitChar : ∀ n < 16, hexValue? (Nat.digitChar n) = some n := by
  decide

theorem hexUnit?_hexPair {n : Nat} (bound : n < 256) :
    hexUnit? '0' '0' (Nat.digitChar (n / 16)) (Nat.digitChar (n % 16)) = some n := by
  rw [hexUnit?, hexValue?_digitChar _ (by omega), hexValue?_digitChar _ (by omega)]
  have joined : n / 16 * 16 + n % 16 = n := by omega
  exact congrArg some ((Nat.zero_add _).symm ▸ joined)

/-- What is written for a character inside a string spells its units. -/
theorem unitsAt?_escaped (c : Char) (rest : List Char) :
    unitsAt? (escaped c ++ rest) = some (unitsOf c, rest) := by
  unfold escaped
  split; next same => subst same; rfl
  split; next same => subst same; rfl
  split; next same => subst same; rfl
  split; next same => subst same; rfl
  split; next same => subst same; rfl
  split; next same => subst same; rfl
  split; next same => subst same; rfl
  split
  case isTrue control =>
    have units : unitsOf c = [c.toNat] := if_pos (by omega)
    rw [units]
    change (hexUnit? '0' '0' _ _).map _ = _
    rw [hexUnit?_hexPair (by omega)]
    rfl
  case isFalse noQuote noBackslash _ _ _ _ _ printed =>
    rw [List.singleton_append, unitsAt?]
    · rw [if_neg (by simp [printed, noBackslash])]
    · exact fun _ _ _ _ _ starts => absurd starts noBackslash
    · exact fun _ _ starts => absurd starts noBackslash

theorem escaped_eq_cons (c : Char) : ∃ first others, escaped c = first :: others ∧ first ≠ '"' := by
  unfold escaped
  split; · exact ⟨_, _, rfl, by decide⟩
  split; · exact ⟨_, _, rfl, by decide⟩
  split; · exact ⟨_, _, rfl, by decide⟩
  split; · exact ⟨_, _, rfl, by decide⟩
  split; · exact ⟨_, _, rfl, by decide⟩
  split; · exact ⟨_, _, rfl, by decide⟩
  split; · exact ⟨_, _, rfl, by decide⟩
  split; · exact ⟨_, _, rfl, by decide⟩
  · exact ⟨_, _, rfl, by assumption⟩

theorem quotes_escaped (text rest : List Char) :
    Quotes (text.flatMap escaped ++ '"' :: rest) (text.flatMap unitsOf) rest := by
  induction text with
  | nil => exact quotes_end rest
  | cons c text inductionHypothesis =>
    have found := unitsAt?_escaped c (text.flatMap escaped ++ '"' :: rest)
    obtain ⟨first, others, begins, noQuote⟩ := escaped_eq_cons c
    rw [List.flatMap_cons, List.flatMap_cons, List.append_assoc]
    rw [begins, List.cons_append] at found ⊢
    exact inductionHypothesis.cons noQuote found

/-! ## Numbers -/

/-- The characters that would lengthen a number. -/
def Lengthens (c : Char) : Prop :=
  c.isDigit = true ∨ c = '.' ∨ c = 'e' ∨ c = 'E'

instance : DecidablePred Lengthens := fun c =>
  inferInstanceAs (Decidable (c.isDigit = true ∨ c = '.' ∨ c = 'e' ∨ c = 'E'))

/-- A number in front of the text ends where the text begins. -/
def EndsNumber (text : List Char) : Prop :=
  ∀ c ∈ text.head?, ¬ Lengthens c

theorem endsNumber_cons {c : Char} (ends : ¬ Lengthens c) (rest : List Char) :
    EndsNumber (c :: rest) := by
  intro first head
  cases head
  exact ends

theorem digits_append {digits rest : List Char}
    (areDigits : ∀ c ∈ digits, c.isDigit = true) (ends : ∀ c ∈ rest.head?, c.isDigit = false) :
    Token.digits (digits ++ rest) = digits ∧ afterDigits (digits ++ rest) = rest := by
  unfold Token.digits afterDigits
  rw [List.takeWhile_append_of_pos areDigits, List.dropWhile_append_of_pos areDigits]
  cases rest with
  | nil => simp
  | cons c rest =>
    have noDigit : ¬ c.isDigit = true := by simp [ends c rfl]
    rw [List.takeWhile_cons_of_neg noDigit, List.dropWhile_cons_of_neg noDigit, List.append_nil]
    exact ⟨rfl, rfl⟩

theorem ofDigits_toDigits (n : Nat) : ofDigits (Nat.toDigits 10 n) = n :=
  Nat.ofDigitChars_toDigits (by decide) (by decide)

theorem appendDigits_append {start value : Nat} {first : List Char}
    (takenIn : appendDigits start first = (value, [])) (second : List Char) :
    appendDigits start (first ++ second) = appendDigits value second := by
  induction first generalizing start with
  | nil =>
    cases takenIn
    rfl
  | cons c first inductionHypothesis =>
    rw [appendDigits] at takenIn
    split at takenIn
    case isTrue fits =>
      rw [List.cons_append, appendDigits, if_pos fits]
      exact inductionHypothesis takenIn
    case isFalse => cases takenIn

theorem toNat_digitChar : ∀ n < 10, (Nat.digitChar n).toNat - '0'.toNat = n := by
  decide

/-- All digits of a number that can be kept are taken in. -/
theorem appendDigits_toDigits {n : Nat} (kept : n ≤ maxSignificand) :
    appendDigits 0 (Nat.toDigits 10 n) = (n, []) := by
  induction n using Nat.strongRecOn with
  | _ n inductionHypothesis =>
    by_cases small : n < 10
    · rw [Nat.toDigits_of_lt_base small, appendDigits, toNat_digitChar n small]
      simp only [Nat.mul_zero, Nat.zero_add]
      rw [if_pos kept, appendDigits]
    · have front := inductionHypothesis (n / 10) (by omega) (by omega)
      have joined : 10 * (n / 10) + n % 10 = n := Nat.div_add_mod n 10
      rw [Nat.toDigits_of_base_le (by decide) (Nat.le_of_not_lt small), appendDigits_append front,
        appendDigits, toNat_digitChar _ (Nat.mod_lt n (by decide))]
      simp only [joined]
      rw [if_pos kept, appendDigits]

theorem digitChar_ne_zero : ∀ n < 10, n ≠ 0 → Nat.digitChar n ≠ '0' := by
  decide

/-- Only zero is written with a zero in front. -/
theorem toDigits_eq_cons {n : Nat} (positive : n ≠ 0) :
    ∃ first others, Nat.toDigits 10 n = first :: others ∧ first ≠ '0' := by
  induction n using Nat.strongRecOn with
  | _ n inductionHypothesis =>
    by_cases small : n < 10
    · exact ⟨_, [], Nat.toDigits_of_lt_base small, digitChar_ne_zero n small positive⟩
    · obtain ⟨first, others, digits, notZero⟩ := inductionHypothesis (n / 10) (by omega) (by omega)
      rw [Nat.toDigits_of_base_le (by decide) (Nat.le_of_not_lt small), digits]
      exact ⟨first, _, rfl, notZero⟩

theorem isDigit_of_mem_toDigits {n : Nat} {c : Char} (member : c ∈ Nat.toDigits 10 n) :
    c.isDigit = true :=
  Nat.isDigit_of_mem_toDigits (by decide) (by decide) member

theorem wholePart?_toDigits (n : Nat) {rest : List Char}
    (ends : ∀ c ∈ rest.head?, c.isDigit = false) :
    wholePart? (Nat.toDigits 10 n ++ rest) = some (Nat.toDigits 10 n, rest) := by
  by_cases zero : n = 0
  · subst zero
    rfl
  · obtain ⟨first, others, digits, notZero⟩ := toDigits_eq_cons zero
    have areDigits : ∀ c ∈ first :: others, c.isDigit = true := fun c member =>
      isDigit_of_mem_toDigits (digits ▸ member)
    obtain ⟨isDigit, othersDigits⟩ := List.forall_mem_cons.mp areDigits
    obtain ⟨taken, left⟩ := digits_append othersDigits ends
    rw [digits, List.cons_append, wholePart?, if_pos isDigit, taken, left]
    exact notZero

theorem exponentDigits?_toDigits (isNegative : Bool) (n : Nat) {rest : List Char}
    (ends : ∀ c ∈ rest.head?, c.isDigit = false) :
    exponentDigits? isNegative (Nat.toDigits 10 n ++ rest) =
      some (if isNegative then -(n : Int) else n, rest) := by
  obtain ⟨taken, left⟩ := digits_append (fun _ => isDigit_of_mem_toDigits) ends
  rw [exponentDigits?, taken, left, if_neg Nat.toDigits_ne_nil, ofDigits_toDigits]

/-- A number has its digits or its sign in front. -/
def StartsNumber (c : Char) : Prop :=
  c = '-' ∨ c.isDigit = true

instance : DecidablePred StartsNumber := fun c =>
  inferInstanceAs (Decidable (c = '-' ∨ c.isDigit = true))

theorem toDigits_append_eq_cons (n : Nat) (rest : List Char) :
    ∃ first others, Nat.toDigits 10 n ++ rest = first :: others ∧ first.isDigit = true := by
  cases digits : Nat.toDigits 10 n with
  | nil => exact absurd digits Nat.toDigits_ne_nil
  | cons first others =>
      exact ⟨first, others ++ rest, rfl, isDigit_of_mem_toDigits (digits ▸ List.mem_cons_self)⟩

theorem integerChars_append_eq_cons (value : Int) (rest : List Char) :
    ∃ first others, integerChars value ++ rest = first :: others ∧ StartsNumber first := by
  cases value with
  | ofNat n =>
      obtain ⟨first, others, starts, isDigit⟩ := toDigits_append_eq_cons n rest
      exact ⟨first, others, starts, .inr isDigit⟩
  | negSucc n => exact ⟨'-', _, rfl, .inl rfl⟩

theorem decimalChars_append_eq_cons (isNegative : Bool) (significand : Nat) (exponent : Int)
    (rest : List Char) :
    ∃ first others, decimalChars isNegative significand exponent ++ rest = first :: others ∧
      StartsNumber first := by
  cases isNegative with
  | false =>
      obtain ⟨first, others, starts, isDigit⟩ :=
        toDigits_append_eq_cons significand ('e' :: integerChars exponent ++ rest)
      exact ⟨first, others, by rw [← starts]; simp [decimalChars], .inr isDigit⟩
  | true => exact ⟨'-', _, rfl, .inl rfl⟩

theorem minus_toDigits (n : Nat) (rest : List Char) :
    minus (Nat.toDigits 10 n ++ rest) = (false, Nat.toDigits 10 n ++ rest) := by
  obtain ⟨first, others, starts, isDigit⟩ := toDigits_append_eq_cons n rest
  rw [starts, minus]
  rintro _ sign
  cases sign
  cases isDigit

/-- The exponent behind its mark, in the digits that are written for it. -/
theorem exponent?_integerChars (value : Int) {rest : List Char}
    (ends : ∀ c ∈ rest.head?, c.isDigit = false) :
    exponent? ('e' :: (integerChars value ++ rest)) = some (some value, rest) := by
  cases value with
  | ofNat n =>
      have digits := exponentDigits?_toDigits false n ends
      obtain ⟨first, others, starts, isDigit⟩ := toDigits_append_eq_cons n rest
      rw [starts] at digits
      change exponent? ('e' :: (Nat.toDigits 10 n ++ rest)) = _
      rw [starts, exponent?, if_pos (.inl rfl), digits]
      · rfl
      · rintro _ sign
        cases sign
        cases isDigit
      · rintro _ sign
        cases sign
        cases isDigit
  | negSucc n =>
      have digits := exponentDigits?_toDigits true (n + 1) ends
      change (exponentDigits? true (Nat.toDigits 10 (n + 1) ++ rest)).map _ = _
      rw [digits]
      rfl

theorem number?_of_parts {isNegative : Bool}
    {text unsigned afterWhole afterFraction rest whole fraction : List Char}
    {exponent : Option Int} (sign : minus text = (isNegative, unsigned))
    (wholePart : wholePart? unsigned = some (whole, afterWhole))
    (fractionPart : fraction? afterWhole = some (fraction, afterFraction))
    (exponentPart : exponent? afterFraction = some (exponent, rest)) :
    number? text = some (ofParts isNegative whole fraction exponent, rest) := by
  simp only [number?, sign, wholePart, fractionPart, exponentPart, Option.bind_eq_bind,
    Option.bind_some, Option.pure_def]

theorem ofParts_integer {isNegative : Bool} {n : Nat} (kept : n ≤ maxSignificand)
    (noNegativeZero : ¬ (isNegative = true ∧ n = 0)) :
    ofParts isNegative (Nat.toDigits 10 n) [] none =
      .integer (if isNegative then -(n : Int) else n) := by
  simp only [ofParts, appendDigits_toDigits kept, appendDigits]
  rw [if_pos ⟨trivial, trivial, trivial, noNegativeZero⟩]

theorem ofParts_decimal (isNegative : Bool) {n : Nat} (kept : n ≤ maxSignificand)
    (exponent : Int) :
    ofParts isNegative (Nat.toDigits 10 n) [] (some exponent) =
      .decimal isNegative n exponent := by
  simp [ofParts, appendDigits_toDigits kept, appendDigits]

theorem fraction?_of_no_point {text : List Char} (noPoint : ∀ c ∈ text.head?, c ≠ '.') :
    fraction? text = some ([], text) := by
  rw [fraction?]
  rintro rest rfl
  exact noPoint '.' rfl rfl

/-- The mark of an exponent is no digit. -/
theorem endsDigits_mark (exponent : Int) (rest : List Char) :
    ∀ c ∈ ('e' :: (integerChars exponent ++ rest)).head?, c.isDigit = false := by
  rintro _ ⟨⟩
  rfl

theorem exponent?_of_no_mark {text : List Char}
    (noMark : ∀ c ∈ text.head?, ¬ (c = 'e' ∨ c = 'E')) : exponent? text = some (none, text) := by
  cases text with
  | nil => rfl
  | cons c rest =>
    unfold exponent?
    exact if_neg (noMark c rfl)

namespace EndsNumber

variable {rest : List Char} (ends : EndsNumber rest)

include ends

theorem no_digit : ∀ c ∈ rest.head?, c.isDigit = false := fun c head =>
  Bool.eq_false_iff.mpr fun isDigit => ends c head (.inl isDigit)

theorem fraction? : Token.fraction? rest = some ([], rest) :=
  fraction?_of_no_point fun c head isPoint => ends c head (.inr (.inl isPoint))

theorem exponent? : Token.exponent? rest = some (none, rest) :=
  exponent?_of_no_mark fun c head isMark => ends c head (.inr (.inr isMark))

theorem number?_integerChars {value : Int} (kept : value.natAbs ≤ maxSignificand) :
    number? (integerChars value ++ rest) = some (.integer value, rest) := by
  cases value with
  | ofNat n =>
      have small : n ≤ maxSignificand := kept
      rw [integerChars, number?_of_parts (minus_toDigits n rest)
        (wholePart?_toDigits n ends.no_digit) ends.fraction? ends.exponent?,
        ofParts_integer small (by simp)]
      rfl
  | negSucc n =>
      have small : n + 1 ≤ maxSignificand := kept
      have sign : minus ('-' :: (Nat.toDigits 10 (n + 1) ++ rest)) =
          (true, Nat.toDigits 10 (n + 1) ++ rest) := rfl
      rw [integerChars, List.cons_append, number?_of_parts sign
        (wholePart?_toDigits (n + 1) ends.no_digit) ends.fraction? ends.exponent?,
        ofParts_integer small (by simp)]
      rfl

theorem number?_decimalChars (isNegative : Bool) {significand : Nat}
    (kept : significand ≤ maxSignificand) (exponent : Int) :
    number? (decimalChars isNegative significand exponent ++ rest) =
      some (.decimal isNegative significand exponent, rest) := by
  have sign : minus (decimalChars isNegative significand exponent ++ rest) =
      (isNegative, Nat.toDigits 10 significand ++ 'e' :: (integerChars exponent ++ rest)) := by
    cases isNegative with
    | false => rw [← minus_toDigits]; simp [decimalChars]
    | true => simp [decimalChars, minus]
  have wholePart := wholePart?_toDigits significand (endsDigits_mark exponent rest)
  have fractionPart : Token.fraction? ('e' :: (integerChars exponent ++ rest)) = some ([], _) :=
    fraction?_of_no_point (by rintro _ ⟨⟩; decide)
  rw [number?_of_parts sign wholePart fractionPart (exponent?_integerChars exponent ends.no_digit),
    ofParts_decimal _ kept]

end EndsNumber

/-! ## All tokens -/

/-- The text starts with the token, and the rest follows. -/
def Starts (text : List Char) (token : Token) (rest : List Char) : Prop :=
  ∃ shorter, next? text = some (token, ⟨rest, shorter⟩)

theorem starts_punctuation {c : Char} {token : Token} (isPunctuation : punctuation? c = some token)
    (rest : List Char) : Starts (c :: rest) token rest := by
  refine ⟨Nat.lt_succ_self _, ?_⟩
  rw [next?, isPunctuation]

theorem starts_string (text : Option String) (rest : List Char) :
    Starts (stringChars text ++ rest) (.string text) rest := by
  have quoted : ∃ tail units, stringChars text ++ rest = '"' :: tail ∧ Quotes tail units rest ∧
      Text.Utf16.text? units = text := by
    cases text with
    | none =>
        have half : unitsAt? ('\\' :: 'u' :: 'd' :: '8' :: '0' :: '0' :: '"' :: rest) =
            some ([0xD800], '"' :: rest) := rfl
        exact ⟨_, _, rfl, (quotes_end rest).cons (by decide) half, rfl⟩
    | some text =>
        refine ⟨_, _, by simp [stringChars], quotes_escaped text.toList rest, ?_⟩
        rw [Text.Utf16.text?, Text.Utf16.chars_flatMap_unitsOf]
        exact congrArg some String.ofList_toList
  obtain ⟨tail, units, starts, ⟨shorter, read⟩, spelled⟩ := quoted
  rw [starts]
  refine ⟨Nat.lt_succ_of_lt shorter, ?_⟩
  rw [next?, if_pos rfl, read, Option.map_some, spelled]
  rfl

theorem starts_null (rest : List Char) : Starts ("null".toList ++ rest) .null rest :=
  ⟨_, rfl⟩

theorem starts_true (rest : List Char) : Starts ("true".toList ++ rest) (.boolean true) rest :=
  ⟨_, rfl⟩

theorem starts_false (rest : List Char) : Starts ("false".toList ++ rest) (.boolean false) rest :=
  ⟨_, rfl⟩

/-- No other token starts like a number. -/
theorem StartsNumber.no_other {c : Char} (starts : StartsNumber c) (rest : List Char) :
    punctuation? c = none ∧ c ≠ '"' ∧ word? (c :: rest) = none := by
  refine ⟨?_, ?_, ?_⟩
  · unfold punctuation?
    split
    case h_7 => rfl
    all_goals exact absurd starts (by decide)
  · rintro rfl
    exact absurd starts (by decide)
  · unfold word?
    split
    case h_4 => rfl
    all_goals
      rename_i same
      cases same
      exact absurd starts (by decide)

theorem starts_number {c : Char} {tail rest : List Char} {token : Token} (begins : StartsNumber c)
    (found : number? (c :: tail) = some (token, rest)) : Starts (c :: tail) token rest := by
  refine ⟨length_of_number? found, ?_⟩
  obtain ⟨noPunctuation, noQuote, noWord⟩ := begins.no_other tail
  rw [next?, noPunctuation]
  simp only [if_neg noQuote]
  split
  case h_1 isWord => rw [noWord] at isWord; cases isWord
  case h_2 =>
    split
    case h_1 same => rw [found] at same; cases same; rfl
    case h_2 missing => rw [found] at missing; cases missing

theorem starts_integer {value : Int} {rest : List Char} (kept : value.natAbs ≤ maxSignificand)
    (ends : EndsNumber rest) : Starts (integerChars value ++ rest) (.integer value) rest := by
  have found := ends.number?_integerChars kept
  obtain ⟨first, others, starts, begins⟩ := integerChars_append_eq_cons value rest
  rw [starts] at found ⊢
  exact starts_number begins found

theorem starts_decimal (isNegative : Bool) {significand : Nat} {rest : List Char}
    (kept : significand ≤ maxSignificand) (exponent : Int) (ends : EndsNumber rest) :
    Starts (decimalChars isNegative significand exponent ++ rest)
      (.decimal isNegative significand exponent) rest := by
  have found := ends.number?_decimalChars isNegative kept exponent
  obtain ⟨first, others, starts, begins⟩ :=
    decimalChars_append_eq_cons isNegative significand exponent rest
  rw [starts] at found ⊢
  exact starts_number begins found

theorem all?_space {c : Char} (space : isSpace c = true) (rest : List Char) :
    all? (c :: rest) = all? rest := by
  rw [all?, if_pos space]

theorem next?_space {c : Char} (space : isSpace c = true) (rest : List Char) :
    next? (c :: rest) = none := by
  simp only [isSpace, Bool.or_eq_true, decide_eq_true_eq] at space
  obtain ((rfl | rfl) | rfl) | rfl := space
  all_goals rfl

theorem Starts.all? {text rest : List Char} {token : Token} {tokens : List Token}
    (starts : Starts text token rest) (others : Token.all? rest = some tokens) :
    Token.all? text = some (token :: tokens) := by
  obtain ⟨shorter, found⟩ := starts
  cases text with
  | nil => cases shorter
  | cons c tail =>
      have noSpace : ¬ isSpace c = true := fun space => by
        rw [next?_space space] at found
        cases found
      rw [Token.all?, if_neg noSpace, found]
      simp only [others, Option.map_some]

end JvmDiff.Json.Token
