import JvmDiff.Text.Quoted

/-!
# Quoted texts read back

Inside quotes every character can be told from what follows it, and none begins with the quote.  A
quoted text therefore says where it ends, whatever it holds.
-/

namespace JvmDiff.Text

/-! ## Hexadecimal numbers -/

def hexadecimalValue (digit : Char) : Nat :=
  if digit.isDigit then digit.toNat - '0'.toNat else digit.toNat - 'a'.toNat + 10

/-- The number that hexadecimal digits spell. -/
def ofHexadecimal (digits : List Char) : Nat :=
  digits.foldl (fun n digit => 16 * n + hexadecimalValue digit) 0

theorem hexadecimalValue_digitChar :
    ∀ n < 16, hexadecimalValue (Nat.digitChar n) = n := by
  decide

theorem digitChar_ne_brace : ∀ n < 16, Nat.digitChar n ≠ '\x7d' := by
  decide

theorem ofHexadecimal_toDigits (n : Nat) : ofHexadecimal (Nat.toDigits 16 n) = n := by
  induction n using Nat.strongRecOn with
  | _ n inductionHypothesis =>
    by_cases small : n < 16
    · rw [Nat.toDigits_of_lt_base small]
      simp [ofHexadecimal, hexadecimalValue_digitChar n small]
    · have front := inductionHypothesis (n / 16) (by omega)
      have last := hexadecimalValue_digitChar (n % 16) (Nat.mod_lt n (by decide))
      rw [ofHexadecimal] at front
      rw [Nat.toDigits_of_base_le (by decide) (Nat.le_of_not_lt small), ofHexadecimal,
        List.foldl_append, front, List.foldl_cons, List.foldl_nil, last]
      exact Nat.div_add_mod n 16

theorem noBrace_toDigits (n : Nat) : '\x7d' ∉ Nat.toDigits 16 n := by
  induction n using Nat.strongRecOn with
  | _ n inductionHypothesis =>
    by_cases small : n < 16
    · rw [Nat.toDigits_of_lt_base small, List.mem_singleton]
      exact (digitChar_ne_brace n small).symm
    · rw [Nat.toDigits_of_base_le (by decide) (Nat.le_of_not_lt small), List.mem_append,
        List.mem_singleton, not_or]
      exact ⟨inductionHypothesis (n / 16) (by omega),
        (digitChar_ne_brace (n % 16) (Nat.mod_lt n (by decide))).symm⟩

/-! ## Characters inside quotes -/

/-- The character that stands first inside quotes, and the rest. -/
def firstEscaped : List Char → Option (Char × List Char)
  | [] => none
  | '\\' :: '0' :: rest => some ('\x00', rest)
  | '\\' :: 't' :: rest => some ('\t', rest)
  | '\\' :: 'n' :: rest => some ('\n', rest)
  | '\\' :: 'r' :: rest => some ('\r', rest)
  | '\\' :: 'u' :: '\x7b' :: rest =>
      some (Char.ofNat (ofHexadecimal (rest.takeWhile (· ≠ '\x7d'))),
        (rest.dropWhile (· ≠ '\x7d')).tail)
  | '\\' :: c :: rest => some (c, rest)
  | c :: rest => some (c, rest)

def IsQuote (quote : Char) : Prop :=
  quote = '"' ∨ quote = '\''

instance : DecidablePred IsQuote := fun quote =>
  inferInstanceAs (Decidable (quote = '"' ∨ quote = '\''))

theorem firstEscaped_number (c : Char) (rest : List Char) :
    firstEscaped ('\\' :: 'u' :: '\x7b' :: (Nat.toDigits 16 c.toNat ++ '\x7d' :: rest)) =
      some (c, rest) := by
  have noBrace : ∀ digit ∈ Nat.toDigits 16 c.toNat, decide (digit ≠ '\x7d') = true := by
    intro digit member
    apply decide_eq_true
    rintro rfl
    exact noBrace_toDigits c.toNat member
  rw [firstEscaped, List.takeWhile_append_of_pos noBrace, List.dropWhile_append_of_pos noBrace]
  simp [ofHexadecimal_toDigits]

theorem firstEscaped_escaped {quote : Char} (isQuote : IsQuote quote) (c : Char)
    (rest : List Char) : firstEscaped (escaped quote c ++ rest) = some (c, rest) := by
  -- The cases are those of the escapes; a quote is none of the letters that name one.
  rw [escaped]
  split
  case isTrue isNull =>
    subst isNull
    rfl
  split
  case isTrue isTab =>
    subst isTab
    rfl
  split
  case isTrue isLineFeed =>
    subst isLineFeed
    rfl
  split
  case isTrue isReturn =>
    subst isReturn
    rfl
  split
  case isTrue isBackslash =>
    subst isBackslash
    rfl
  case isFalse noBackslash =>
    split
    case isTrue isTheQuote =>
      subst isTheQuote
      rcases isQuote with rfl | rfl
      · rfl
      · rfl
    split
    case isTrue =>
      simp only [List.append_assoc, List.cons_append, List.nil_append]
      exact firstEscaped_number c rest
    case isFalse =>
      rw [List.singleton_append, firstEscaped.eq_def]
      split
      all_goals simp_all

theorem escaped_inj {quote : Char} (isQuote : IsQuote quote) {first second : Char}
    {rest other : List Char} (same : escaped quote first ++ rest = escaped quote second ++ other) :
    first = second ∧ rest = other := by
  have read := congrArg firstEscaped same
  rw [firstEscaped_escaped isQuote, firstEscaped_escaped isQuote] at read
  simpa using read

/-- A character inside quotes has a backslash before it or stands for itself. -/
theorem escaped_begins (quote c : Char) :
    (∃ tail, escaped quote c = '\\' :: tail) ∨ (escaped quote c = [c] ∧ c ≠ quote) := by
  rw [escaped]
  repeat' split
  all_goals first
    | exact Or.inl ⟨_, rfl⟩
    | exact Or.inr ⟨rfl, by assumption⟩

theorem escaped_ne_quote {quote : Char} (isQuote : IsQuote quote) (c : Char)
    (rest other : List Char) : escaped quote c ++ rest ≠ quote :: other := by
  intro same
  rcases escaped_begins quote c with ⟨tail, isEscape⟩ | ⟨isItself, noQuote⟩
  · rw [isEscape] at same
    have isBackslash : '\\' = quote := (List.cons.inj same).1
    subst isBackslash
    exact absurd isQuote (by decide)
  · rw [isItself] at same
    exact noQuote (List.cons.inj same).1

/-! ## Texts in quotes -/

/-- The first quote that stands for itself ends the text. -/
theorem flatMap_escaped_inj {quote : Char} (isQuote : IsQuote quote) {first second : List Char}
    {rest other : List Char}
    (same : first.flatMap (escaped quote) ++ quote :: rest =
      second.flatMap (escaped quote) ++ quote :: other) : first = second ∧ rest = other := by
  induction first generalizing second with
  | nil =>
    cases second with
    | nil => exact ⟨rfl, (List.cons.inj same).2⟩
    | cons c second =>
      rw [List.flatMap_cons, List.append_assoc] at same
      exact absurd same.symm (escaped_ne_quote isQuote c _ _)
  | cons c first inductionHypothesis =>
    cases second with
    | nil =>
      rw [List.flatMap_cons, List.append_assoc] at same
      exact absurd same (escaped_ne_quote isQuote c _ _)
    | cons d second =>
      rw [List.flatMap_cons, List.flatMap_cons, List.append_assoc, List.append_assoc] at same
      obtain ⟨rfl, sameTail⟩ := escaped_inj isQuote same
      obtain ⟨rfl, sameRest⟩ := inductionHypothesis sameTail
      exact ⟨rfl, sameRest⟩

theorem quoted_inj {first second : String} {rest other : List Char}
    (same : (quoted first).toList ++ rest = (quoted second).toList ++ other) :
    first = second ∧ rest = other := by
  simp only [quoted, String.toList_ofList, List.cons_append, List.append_assoc,
    List.nil_append] at same
  obtain ⟨sameChars, sameRest⟩ := flatMap_escaped_inj (Or.inl rfl) (List.cons.inj same).2
  exact ⟨String.toList_inj.mp sameChars, sameRest⟩

theorem quotedChar_inj {first second : Char} {rest other : List Char}
    (same : (quotedChar first).toList ++ rest = (quotedChar second).toList ++ other) :
    first = second ∧ rest = other := by
  simp only [quotedChar, String.toList_ofList, List.cons_append, List.append_assoc,
    List.nil_append] at same
  obtain ⟨sameChar, sameEnd⟩ := escaped_inj (Or.inr rfl) (List.cons.inj same).2
  exact ⟨sameChar, (List.cons.inj sameEnd).2⟩

end JvmDiff.Text
