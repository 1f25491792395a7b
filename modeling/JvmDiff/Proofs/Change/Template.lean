import JvmDiff.Proofs.Change.Filling

/-!
# Templates in pieces

A template is text with places for arguments in between.  Filling it puts the arguments into their
places and copies the text; what an argument puts in is never read again.
-/

namespace JvmDiff.Message

/-- A piece of a template: text, or the place of the argument with a number. -/
inductive Piece where
  | literal (text : List Char)
  | place (number : Nat)
deriving DecidableEq, Repr

namespace Piece

/-- The piece as it stands in a template. -/
def written : Piece → List Char
  | .literal text => text
  | .place number => '\x7b' :: (Nat.toDigits 10 number ++ ['\x7d'])

/-- No place begins inside the text of the piece. -/
def IsPlain : Piece → Prop
  | .literal text => '\x7b' ∉ text
  | .place _ => True

/-- What a message has in place of the piece: a place without an argument stays
as it is written. -/
def filled (arguments : List Argument) (piece : Piece) : List Char :=
  match piece with
  | .literal text => text
  | .place number =>
      match arguments[number]? with
      | some argument => argument.display.toList
      | none => piece.written

end Piece

/-! ## Filling -/

theorem Piece.fills (arguments : List Argument) {piece : Piece} (plain : piece.IsPlain) :
    Fills arguments piece.written (piece.filled arguments) := by
  cases piece with
  | literal text => exact fills_text plain
  | place number =>
    have written : (Piece.place number).written = (Numeral.ofNat number).braced := rfl
    have value : (Numeral.ofNat number).value = number := Numeral.value_ofNat number
    rw [Piece.filled, written]
    cases known : arguments[number]? with
    | some argument => exact fills_argument (by rw [value, known])
    | none => exact fills_unknown (by rw [value, known])

/-- Filling goes over the pieces once, from left to right. -/
theorem fillChars_written (arguments : List Argument) {pieces : List Piece}
    (plain : ∀ piece ∈ pieces, piece.IsPlain) :
    fillChars arguments (pieces.flatMap Piece.written) =
      pieces.flatMap (Piece.filled arguments) :=
  fillChars_flatMap fun piece member => piece.fills arguments (plain piece member)

/-! ## Templates -/

/-- The template is made of the pieces. -/
structure Consists (template : String) (pieces : List Piece) : Prop where
  spelled : template.toList = pieces.flatMap Piece.written
  plain : ∀ piece ∈ pieces, piece.IsPlain

theorem Consists.fill_eq {template : String} {pieces : List Piece}
    (consists : Consists template pieces) (arguments : List Argument) :
    fill template arguments = String.ofList (pieces.flatMap (Piece.filled arguments)) := by
  rw [fill, consists.spelled, fillChars_written arguments consists.plain]

theorem Consists.append {first second : String} {firstPieces secondPieces : List Piece}
    (firstConsists : Consists first firstPieces) (secondConsists : Consists second secondPieces) :
    Consists (first ++ second) (firstPieces ++ secondPieces) where
  spelled := by
    rw [String.toList_append, List.flatMap_append, firstConsists.spelled, secondConsists.spelled]
  plain := List.forall_mem_append.mpr ⟨firstConsists.plain, secondConsists.plain⟩

theorem consists_literal {text : String} (noPlace : '\x7b' ∉ text.toList) :
    Consists text [.literal text.toList] :=
  ⟨(List.flatMap_singleton _ _).symm, List.forall_mem_singleton.mpr noPlace⟩

theorem consists_slot (number : Nat) : Consists (Topic.slot number) [.place number] where
  spelled := by
    simp [Topic.slot, Piece.written]
  plain := List.forall_mem_singleton.mpr trivial

/-- The places of the template are those of so many arguments, each of them at
least once. -/
def Takes (template : String) (arity : Nat) : Prop :=
  ∃ pieces, Consists template pieces ∧ ∀ number, .place number ∈ pieces ↔ number < arity

theorem takes_literal {text : String} (noPlace : '\x7b' ∉ text.toList) : Takes text 0 :=
  ⟨_, consists_literal noPlace, by simp⟩

theorem takes_slot : Takes (Topic.slot 0) 1 :=
  ⟨_, consists_slot 0, by simp⟩

theorem Takes.text {template : String} {arity : Nat} (takes : Takes template arity)
    (text : String) (noPlace : '\x7b' ∉ text.toList) : Takes (template ++ text) arity := by
  obtain ⟨pieces, consists, places⟩ := takes
  exact ⟨_, consists.append (consists_literal noPlace), by simpa using places⟩

/-- The next place of a template is for the next argument. -/
theorem Takes.slot {template : String} {arity : Nat} (takes : Takes template arity) :
    Takes (template ++ Topic.slot arity) (arity + 1) := by
  obtain ⟨pieces, consists, places⟩ := takes
  refine ⟨_, consists.append (consists_slot arity), fun number => ?_⟩
  rw [List.mem_append, places, List.mem_singleton, Piece.place.injEq]
  omega

end JvmDiff.Message

namespace JvmDiff.Topic

open Message

/-! ## The templates of topics -/

section Families

variable (subject aspect : String) {heading noun : String}

theorem takes_changed (headed : Takes heading 1) (noPlace : '\x7b' ∉ noun.toList) :
    Takes (changed subject aspect heading noun).template 3 := by
  have previous := (((headed.text ": " (by decide)).text noun noPlace).text " changed from "
    (by decide)).slot
  exact (previous.text " to " (by decide)).slot

theorem takes_modifiers (headed : Takes heading 1) :
    Takes (modifiers subject heading).template 5 := by
  have previous := ((headed.text ": modifiers changed from '" (by decide)).slot.text "' ("
    (by decide)).slot
  have next := ((previous.text ") to '" (by decide)).slot.text "' (" (by decide)).slot
  exact next.text ")" (by decide)

/-- Both topics of a list of parts take the owner and the part. -/
theorem takes_parts (headed : Takes heading 1) (noPlace : '\x7b' ∉ noun.toList) :
    Takes (parts subject aspect heading noun).removed.template 2 ∧
      Takes (parts subject aspect heading noun).added.template 2 := by
  have named := (((headed.text ": " (by decide)).text noun noPlace).text " " (by decide)).slot
  exact ⟨named.text " removed" (by decide), named.text " added" (by decide)⟩

end Families

theorem takes_heading : ∀ heading ∈ [classHeading, innerClassHeading, fieldHeading,
    constructorHeading, methodHeading, annotationHeading, packageHeading], Takes heading 1 := by
  intro heading isHeading
  have opened : ∀ text : String, '\x7b' ∉ text.toList → Takes (text ++ slot 0) 1 :=
    fun text noPlace => (takes_literal noPlace).slot
  simp only [List.mem_cons, List.not_mem_nil, or_false] at isHeading
  rcases isHeading with rfl | rfl | rfl | rfl | rfl | rfl | rfl
  · exact takes_slot
  all_goals exact opened _ (by decide)

theorem takes_annotationValue : Takes annotationValue.template 6 := by
  have headed := takes_heading annotationHeading (by decide)
  have key := (headed.text ": value " (by decide)).slot
  have previous := ((key.text " changed from " (by decide)).slot.text " " (by decide)).slot
  exact ((previous.text " to " (by decide)).slot.text " " (by decide)).slot

end JvmDiff.Topic
