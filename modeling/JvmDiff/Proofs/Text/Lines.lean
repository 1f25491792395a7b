import Mathlib.Algebra.GroupWithZero.Nat
import Mathlib.Data.List.Basic

/-!
# The lines of a text

A text is broken into rows at its line feeds, so it has one row more than line feeds.  A text without
a line feed is a single row, and when such texts are closed by line feeds and joined, they are found
again as rows.
-/

namespace JvmDiff.Text

/-- What stands between the line feeds of a text. -/
def rows (text : String) : List (List Char) :=
  text.toList.splitOn '\n'

/-- The number of line feeds in a text. -/
def feeds (text : String) : Nat :=
  text.toList.count '\n'

/-- The text has no line feed. -/
def IsLine (text : String) : Prop :=
  '\n' ∉ text.toList

instance (text : String) : Decidable (IsLine text) :=
  inferInstanceAs (Decidable ('\n' ∉ text.toList))

theorem feeds_append (first second : String) :
    feeds (first ++ second) = feeds first + feeds second := by
  rw [feeds, String.toList_append, List.count_append, feeds, feeds]

theorem isLine_iff {text : String} : IsLine text ↔ feeds text = 0 :=
  List.count_eq_zero.symm

theorem isLine_append {first second : String} :
    IsLine (first ++ second) ↔ IsLine first ∧ IsLine second := by
  rw [isLine_iff, isLine_iff, isLine_iff, feeds_append, Nat.add_eq_zero_iff]

theorem isLine_number (n : Nat) : IsLine (toString n) := by
  rw [IsLine, Nat.toString_eq_repr, Nat.toList_repr]
  intro isDigit
  exact absurd (Nat.isDigit_of_mem_toDigits (by decide) (by decide) isDigit) (by decide)

/-- A number and what it counts go on the line. -/
theorem IsLine.count {text : String} (isLine : IsLine text) (n : Nat) (counted : String)
    (countedLine : IsLine counted) : IsLine (text ++ toString n ++ counted) :=
  isLine_append.mpr ⟨isLine_append.mpr ⟨isLine, isLine_number n⟩, countedLine⟩

/-! ## Rows -/

theorem rows_of_isLine {text : String} (isLine : IsLine text) : rows text = [text.toList] :=
  List.splitOn_eq_singleton isLine

theorem rows_append_feed (first second : String) :
    rows (first ++ ("\n" ++ second)) = rows first ++ rows second := by
  have spelled : (first ++ ("\n" ++ second)).toList = first.toList ++ '\n' :: second.toList := by
    simp
  rw [rows, spelled]
  exact List.splitOn_append_cons_self _ _

theorem length_splitOn (chars : List Char) :
    (chars.splitOn '\n').length = chars.count '\n' + 1 := by
  induction chars with
  | nil => rfl
  | cons c chars inductionHypothesis =>
    rw [List.splitOn_cons_eq_if_modifyHead]
    split
    case isTrue isFeed => rw [List.length_cons, inductionHypothesis, List.count_cons, if_pos isFeed]
    case isFalse isOther =>
      rw [List.length_modifyHead, inductionHypothesis, List.count_cons, if_neg isOther, Nat.add_zero]

theorem length_rows (text : String) : (rows text).length = feeds text + 1 :=
  length_splitOn text.toList

section Joined

variable (lines : List String)

/-- After the last line feed nothing is left. -/
theorem rows_join : rows (String.join (lines.map (· ++ "\n"))) = lines.flatMap rows ++ [[]] := by
  induction lines with
  | nil => rfl
  | cons line lines inductionHypothesis =>
    rw [List.map_cons, String.join_cons, String.append_assoc, rows_append_feed,
      inductionHypothesis, List.flatMap_cons, List.append_assoc]

theorem length_flatMap_rows :
    (lines.flatMap rows).length = (lines.map feeds).sum + lines.length := by
  induction lines with
  | nil => rfl
  | cons line lines inductionHypothesis =>
    rw [List.flatMap_cons, List.length_append, inductionHypothesis, length_rows, List.map_cons,
      List.sum_cons, List.length_cons]
    omega

/-- The rows are the lines themselves just when no line is broken. -/
theorem flatMap_rows_eq_iff :
    lines.flatMap rows = lines.map String.toList ↔ ∀ line ∈ lines, IsLine line := by
  constructor
  · intro same
    have noFeeds : (lines.map feeds).sum = 0 := by
      have counted := length_flatMap_rows lines
      rw [same, List.length_map] at counted
      omega
    intro line member
    exact isLine_iff.mpr (List.sum_eq_zero_iff_forall_eq_nat.mp noFeeds _ (List.mem_map_of_mem member))
  · intro areLines
    rw [← List.flatMap_singleton' (lines.map String.toList), List.flatMap_map]
    exact List.flatMap_congr fun line member => rows_of_isLine (areLines line member)

end Joined

end JvmDiff.Text
