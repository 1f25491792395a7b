import JvmDiff.Change.Message
import Mathlib.Data.List.Basic

/-!
# Filling templates

A template is text with places for arguments in between, and a place is a decimal number between
braces.  Filling goes over the template once: each part of it is filled whatever follows the part,
and what an argument puts in is copied and never read.
-/

namespace JvmDiff.Message

/-! ## Numerals -/

/-- A decimal number as it is written, with zeros in front or without. -/
structure Numeral where
  digits : List Char
  nonempty : digits ≠ []
  areDigits : ∀ c ∈ digits, c.isDigit = true

namespace Numeral

/-- The number that the digits spell. -/
def value (numeral : Numeral) : Nat :=
  Nat.ofDigitChars 10 numeral.digits 0

/-- The place of an argument, as it stands in a template. -/
def braced (numeral : Numeral) : List Char :=
  '\x7b' :: (numeral.digits ++ ['\x7d'])

/-- The digits of a number, without zeros in front. -/
def ofNat (number : Nat) : Numeral where
  digits := Nat.toDigits 10 number
  nonempty := Nat.toDigits_ne_nil
  areDigits := fun _ member => Nat.isDigit_of_mem_toDigits (by decide) (by decide) member

theorem value_ofNat (number : Nat) : (ofNat number).value = number :=
  Nat.ofDigitChars_toDigits (by decide) (by decide)

variable (numeral : Numeral)

theorem notMem_digits {c : Char} (noDigit : c.isDigit = false) : c ∉ numeral.digits := by
  intro member
  rw [numeral.areDigits c member] at noDigit
  cases noDigit

theorem ofDigits?_eq_some {digits : List Char} (areDigits : ∀ c ∈ digits, c.isDigit = true)
    (value : Nat) : ofDigits? digits value = some (Nat.ofDigitChars 10 digits value) := by
  induction digits generalizing value with
  | nil => rfl
  | cons c digits inductionHypothesis =>
    obtain ⟨isDigit, others⟩ := List.forall_mem_cons.mp areDigits
    rw [ofDigits?, if_pos isDigit, inductionHypothesis others, Nat.ofDigitChars_cons]

theorem slotNumber?_digits : slotNumber? numeral.digits = some numeral.value := by
  have spelled : ofDigits? numeral.digits 0 = some numeral.value :=
    ofDigits?_eq_some numeral.areDigits 0
  have noSign : '+' ∉ numeral.digits := numeral.notMem_digits rfl
  -- The number of a place may have a sign, which no digit is.
  cases digits : numeral.digits with
  | nil => exact absurd digits numeral.nonempty
  | cons c rest =>
    rw [digits] at spelled noSign
    have isNoSign : c ≠ '+' := fun sign => noSign (sign ▸ List.mem_cons_self)
    rw [slotNumber?]
    · exact spelled
    · exact List.cons_ne_nil c rest
    · intro signOnly
      exact isNoSign (List.cons.inj signOnly).1
    · intro _ signed
      exact isNoSign (List.cons.inj signed).1

theorem splitAtBrace_append {before : List Char} (absent : '\x7d' ∉ before) (after : List Char) :
    splitAtBrace (before ++ '\x7d' :: after) = some (before, after) := by
  induction before with
  | nil => simp [splitAtBrace]
  | cons c before inductionHypothesis =>
    rw [List.mem_cons, not_or] at absent
    rw [List.cons_append, splitAtBrace, if_neg (Ne.symm absent.1), inductionHypothesis absent.2,
      Option.map_some]

theorem slotArgument?_digits (arguments : List Argument) (rest : List Char) :
    ∃ shorter, slotArgument? arguments (numeral.digits ++ '\x7d' :: rest) =
      (arguments[numeral.value]?).map fun argument => (argument, ⟨rest, shorter⟩) := by
  have noBrace : '\x7d' ∉ numeral.digits := numeral.notMem_digits rfl
  have found := splitAtBrace_append noBrace rest
  refine ⟨length_of_splitAtBrace found, ?_⟩
  rw [slotArgument?]
  split
  case h_1 missing =>
    rw [found] at missing
    cases missing
  case h_2 inside after split =>
    rw [found] at split
    cases split
    rw [slotNumber?_digits, Option.bind_some]

end Numeral

/-! ## Parts of a template -/

/-- The part is filled with the text, whatever follows it. -/
def Fills (arguments : List Argument) (part text : List Char) : Prop :=
  ∀ rest, fillChars arguments (part ++ rest) = text ++ fillChars arguments rest

section Parts

variable {arguments : List Argument}

/-- Text in which no place begins is copied. -/
theorem fills_text {text : List Char} (noPlace : '\x7b' ∉ text) : Fills arguments text text := by
  intro rest
  induction text with
  | nil => rfl
  | cons c text inductionHypothesis =>
    rw [List.mem_cons, not_or] at noPlace
    rw [List.cons_append, fillChars, if_neg (Ne.symm noPlace.1), inductionHypothesis noPlace.2,
      List.cons_append]

theorem fills_argument {numeral : Numeral} {argument : Argument}
    (known : arguments[numeral.value]? = some argument) :
    Fills arguments numeral.braced argument.display.toList := by
  intro rest
  obtain ⟨shorter, found⟩ := numeral.slotArgument?_digits arguments rest
  have opened : numeral.braced ++ rest = '\x7b' :: (numeral.digits ++ '\x7d' :: rest) := by
    simp [Numeral.braced]
  rw [opened, fillChars, if_pos rfl, found, known]
  rfl

/-- A place without an argument is copied.  Of the place only the opening brace is copied as one;
nothing after it opens a place before the next part. -/
theorem fills_unknown {numeral : Numeral} (unknown : arguments[numeral.value]? = none) :
    Fills arguments numeral.braced numeral.braced := by
  intro rest
  obtain ⟨shorter, found⟩ := numeral.slotArgument?_digits arguments rest
  have opened : numeral.braced ++ rest = '\x7b' :: (numeral.digits ++ '\x7d' :: rest) := by
    simp [Numeral.braced]
  have noPlace : '\x7b' ∉ numeral.digits ++ ['\x7d'] := by
    have noBrace : '\x7b' ∉ numeral.digits := numeral.notMem_digits rfl
    simpa using noBrace
  have copied : fillChars arguments (numeral.digits ++ ['\x7d'] ++ rest) =
      numeral.digits ++ ['\x7d'] ++ fillChars arguments rest := fills_text noPlace rest
  rw [List.append_assoc, List.singleton_append] at copied
  rw [opened, fillChars, if_pos rfl, found, unknown]
  simp [copied, Numeral.braced]

/-- Filling goes over the parts once, from left to right. -/
theorem fillChars_flatMap {α : Type} {written filled : α → List Char} {parts : List α}
    (fills : ∀ part ∈ parts, Fills arguments (written part) (filled part)) :
    fillChars arguments (parts.flatMap written) = parts.flatMap filled := by
  induction parts with
  | nil => rw [List.flatMap_nil, fillChars, List.flatMap_nil]
  | cons part parts inductionHypothesis =>
    obtain ⟨first, others⟩ := List.forall_mem_cons.mp fills
    rw [List.flatMap_cons, List.flatMap_cons, first, inductionHypothesis others]

end Parts

/-! ## Segments -/

/-- A segment of a template: text in which no place begins, or a place. -/
inductive Segment where
  | literal (text : String) (noPlace : '\x7b' ∉ text.toList)
  | place (numeral : Numeral)

namespace Segment

/-- The segment as it stands in a template. -/
def written : Segment → String
  | .literal text _ => text
  | .place numeral => String.ofList numeral.braced

/-- What a message has in place of the segment: a place without an argument stays as it is
written. -/
def filled (arguments : List Argument) (segment : Segment) : String :=
  match segment with
  | .literal text _ => text
  | .place numeral =>
      match arguments[numeral.value]? with
      | some argument => argument.display
      | none => segment.written

theorem fills (arguments : List Argument) (segment : Segment) :
    Fills arguments segment.written.toList (segment.filled arguments).toList := by
  cases segment with
  | literal text noPlace => exact fills_text noPlace
  | place numeral =>
    rw [written, String.toList_ofList, filled]
    cases known : arguments[numeral.value]? with
    | some argument => exact fills_argument known
    | none =>
      dsimp only
      rw [written, String.toList_ofList]
      exact fills_unknown known

end Segment

/-- Filling puts the arguments into the places of a template, copies the text and the places
without an argument, and reads nothing that an argument has put in. -/
theorem fill_segments (segments : List Segment) (arguments : List Argument) :
    fill (String.join (segments.map Segment.written)) arguments =
      String.join (segments.map (Segment.filled arguments)) := by
  have parts := fillChars_flatMap fun segment (_ : segment ∈ segments) =>
    segment.fills arguments
  apply String.toList_inj.mp
  rw [fill, String.toList_join, String.toList_join, List.flatMap_map, List.flatMap_map, parts,
    String.toList_ofList]

/-- An argument may look like a place, and a number may begin with zeros. -/
example : fill "\x7b01\x7d, \x7b0\x7d \x7d\x7b2\x7d" [.text "\x7b1\x7d\x7b", .number 7] =
    "7, \x7b1\x7d\x7b \x7d\x7b2\x7d" := by
  decide +kernel

end JvmDiff.Message
