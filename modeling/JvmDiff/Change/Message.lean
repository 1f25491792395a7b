import JvmDiff.Change.Topic

/-!
# Messages

The message of a change is the template of its topic with the arguments in their places.  Filling
reads the template once from left to right: a place without an argument stays as it is written,
and what an argument puts in is not read again.
-/

namespace JvmDiff.Message

/-- The digits of a number below the base, most significant first. -/
def ofDigits? : List Char → Nat → Option Nat
  | [], value => some value
  | c :: rest, value =>
      if c.isDigit then ofDigits? rest (10 * value + (c.toNat - '0'.toNat)) else none

/-- The number that a text between braces spells: decimal digits, at least one,
after an optional plus sign. -/
def slotNumber? : List Char → Option Nat
  | [] => none
  | ['+'] => none
  | '+' :: digits => ofDigits? digits 0
  | digits => ofDigits? digits 0

/-- The text before the first closing brace, and the text after it. -/
def splitAtBrace : List Char → Option (List Char × List Char)
  | [] => none
  | c :: rest =>
      if c = '\x7d' then some ([], rest)
      else (splitAtBrace rest).map fun parts => (c :: parts.1, parts.2)

/-- What follows a place is shorter than the template from the place on. -/
theorem length_of_splitAtBrace {template before after : List Char}
    (split : splitAtBrace template = some (before, after)) :
    after.length < template.length := by
  induction template generalizing before with
  | nil => simp [splitAtBrace] at split
  | cons c rest inductionHypothesis =>
    rw [splitAtBrace] at split
    split at split
    · cases split
      simp
    · obtain ⟨⟨first, second⟩, restSplit, equal⟩ := Option.map_eq_some_iff.mp split
      cases equal
      exact Nat.lt_succ_of_lt (inductionHypothesis restSplit)

/-- The argument for the place that begins after an opening brace, and the
template after that place. -/
def slotArgument? (arguments : List Argument) (template : List Char) :
    Option (Argument × { after : List Char // after.length < template.length }) :=
  match split : splitAtBrace template with
  | none => none
  | some (inside, after) =>
      ((slotNumber? inside).bind (arguments[·]?)).map fun argument =>
        (argument, ⟨after, length_of_splitAtBrace split⟩)

/-- The template with the arguments in their places. -/
def fillChars (arguments : List Argument) (template : List Char) : List Char :=
  match template with
  | [] => []
  | c :: rest =>
      if c = '\x7b' then
        match slotArgument? arguments rest with
        | some (argument, ⟨after, _⟩) =>
            argument.display.toList ++ fillChars arguments after
        | none => c :: fillChars arguments rest
      else c :: fillChars arguments rest
termination_by template.length

/-- The template with the arguments in their places. -/
def fill (template : String) (arguments : List Argument) : String :=
  String.ofList (fillChars arguments template.toList)

/-- The message for a key; a key without a topic stands for itself, with the
arguments in brackets. -/
def render (key : String) (arguments : List Argument) : String :=
  match Topic.template? key with
  | some template => fill template arguments
  | none => key ++ " [" ++ ", ".intercalate (arguments.map Argument.display) ++ "]"

end JvmDiff.Message

namespace JvmDiff

def Change.message (change : Change) : String :=
  Message.render change.key change.arguments

end JvmDiff
