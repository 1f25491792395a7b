import JvmDiff.Proofs.Signature.Declarations

/-!
# Rendering the marks of a type

Taking in the marks of a type adds its source form to a rendering and ends the type.  The flags of
the type itself are gone afterwards, and those below are as they were, except that the arrays of
which the type is the element are paid for.
-/

namespace JvmDiff.Signature

/-! ## Lists of texts -/

theorem intercalate_cons (separator first : List Char) (texts : List (List Char)) :
    separator.intercalate (first :: texts) =
      first ++ texts.flatMap fun text => separator ++ text := by
  induction texts generalizing first with
  | nil => simp [List.intercalate]
  | cons second texts inductionHypothesis =>
    rw [List.intercalate_cons_cons, inductionHypothesis, List.flatMap_cons, List.append_assoc,
      List.append_assoc]

/-- Replacing a mark changes no name, since names have none. -/
theorem Identifier.map_chars (name : Identifier) {mark : Char} (other : Char)
    (separates : mark ∈ ['.', ';', '[', '/', '<', '>', ':']) :
    (name.chars.map fun c => if c = mark then other else c) = name.chars := by
  have unchanged : ∀ c ∈ name.chars, (if c = mark then other else c) = c := by
    intro c member
    refine if_neg ?_
    rintro rfl
    exact name.plain _ member separates
  exact (List.map_congr_left unchanged).trans (List.map_id _)

theorem dotted_path (package : List Identifier) (name : Identifier) :
    (Text.dotted (String.ofList (pathText package ++ name.chars))).toList =
      pathShown package ++ name.chars := by
  rw [Text.dotted, String.toList_ofList, String.toList_ofList, List.map_append,
    name.map_chars '.' (by decide), pathText, pathShown, List.map_flatMap]
  congr 2
  funext part
  rw [List.map_append, part.map_chars '.' (by decide)]
  rfl

theorem slashed_path (package : List Identifier) (name : Identifier) :
    (Text.slashed (String.ofList (pathShown package ++ name.chars))).toList =
      pathText package ++ name.chars := by
  rw [Text.slashed, String.toList_ofList, String.toList_ofList, List.map_append,
    name.map_chars '/' (by decide), pathText, pathShown, List.map_flatMap]
  congr 2
  funext part
  rw [List.map_append, part.map_chars '/' (by decide)]
  rfl

theorem dotted_name (name : Identifier) :
    (Text.dotted (String.ofList name.chars)).toList = name.chars :=
  dotted_path [] name

namespace Rendering

/-! ## Renderings that differ in what they show -/

@[simp] theorem marks_nil (r : Rendering) : r.marks [] = r := rfl

@[simp] theorem marks_cons (r : Rendering) (mark : Mark) (marks : List Mark) :
    r.marks (mark :: marks) = (r.mark mark).marks marks := rfl

theorem marks_append (r : Rendering) (first second : List Mark) :
    r.marks (first ++ second) = (r.marks first).marks second :=
  List.foldl_append

theorem write_write (r : Rendering) (first second : List Char) :
    (r.write first).write second = r.write (first ++ second) := by
  rw [write, write, write, List.append_assoc]

/-- The rendering with more text after what was owed before the next name. -/
def named (r : Rendering) (shown : List Char) : Rendering :=
  { r with text := r.text ++ r.separator ++ shown, separator := [] }

theorem named_eq_write {r : Rendering} (noSeparator : r.separator = []) (shown : List Char) :
    r.named shown = r.write shown := by
  rw [named, write, noSeparator, List.append_nil, ← noSeparator]

/-- The type under way is no array. -/
def AtElement (r : Rendering) : Prop :=
  ∃ flags, r.arrayFlags = false :: flags

/-- Nothing is owed before the next name, and the type under way is no array. -/
structure Settled (r : Rendering) : Prop where
  atElement : r.AtElement
  noSeparator : r.separator = []

/-- The root class is written out as things stand. -/
def ShowsRoot (r : Rendering) : Prop :=
  ((popFlag r.argumentFlags).1 || r.inArguments || r.keepsObject) = true

/-- A type that begins and ends inside another leaves the flags of that one
alone. -/
theorem endType_named_startType {r : Rendering} (atElement : r.AtElement) (shown : List Char) :
    (r.startType.named shown).endType = r.named shown := by
  obtain ⟨flags, known⟩ := atElement
  simp [endType, named, startType, popFlag, known, dropDimensions]

/-- The end of an array follows the end of its element. -/
theorem endType_named_array (r : Rendering) (shown : List Char) :
    ((r.mark .array).named shown).endType = (r.named (shown ++ ['[', ']'])).endType := by
  cases known : r.arrayFlags with
  | nil => simp [endType, named, mark, startType, raiseFlag, popFlag, known, dropDimensions]
  | cons flag flags =>
    simp [endType, named, mark, startType, raiseFlag, popFlag, known, dropDimensions]

/-! ## Argument lists -/

def withArgument (r : Rendering) (shown : List Char) : Rendering :=
  r.openArgument.write shown

theorem Settled.withArgument {r : Rendering} (settled : r.Settled) (shown : List Char) :
    (r.withArgument shown).Settled := by
  obtain ⟨⟨flags, known⟩, noSeparator⟩ := settled
  rw [Rendering.withArgument, openArgument]
  split
  · exact ⟨⟨flags, known⟩, noSeparator⟩
  · exact ⟨⟨flags, known⟩, noSeparator⟩

theorem Settled.foldl_withArgument {r : Rendering} (settled : r.Settled)
    (texts : List (List Char)) : (texts.foldl Rendering.withArgument r).Settled := by
  induction texts generalizing r with
  | nil => exact settled
  | cons text texts inductionHypothesis => exact inductionHypothesis (settled.withArgument text)

theorem withArgument_of_closed {r : Rendering} {flags : List Bool}
    (known : r.argumentFlags = false :: flags) (shown : List Char) :
    r.withArgument shown =
      { r with text := r.text ++ '<' :: shown, argumentFlags := true :: flags } := by
  simp [withArgument, openArgument, write, popFlag, raiseFlag, known]

theorem withArgument_of_open {r : Rendering} {flags : List Bool}
    (known : r.argumentFlags = true :: flags) (shown : List Char) :
    r.withArgument shown = r.write (',' :: ' ' :: shown) := by
  simp [withArgument, openArgument, write, popFlag, known]

theorem foldl_withArgument_of_open (texts : List (List Char)) {r : Rendering} {flags : List Bool}
    (known : r.argumentFlags = true :: flags) :
    texts.foldl withArgument r = r.write (texts.flatMap fun text => [',', ' '] ++ text) := by
  induction texts generalizing r with
  | nil =>
    rw [List.flatMap_nil, write, List.append_nil]
    rfl
  | cons text texts inductionHypothesis =>
    rw [List.foldl_cons, withArgument_of_open known, inductionHypothesis (by exact known)]
    simp [write]

/-- A name was written that arguments may follow. -/
def enterName (r : Rendering) : Rendering :=
  { r with argumentFlags := false :: r.argumentFlags }

/-- The arguments of a name, once they are closed, are a list between brackets,
if there are any. -/
theorem closeArguments_foldl_withArgument (r : Rendering) (texts : List (List Char)) :
    (texts.foldl withArgument r.enterName).closeArguments = r.write (listShown texts) := by
  cases texts with
  | nil => simp [closeArguments, enterName, popFlag, listShown, write]
  | cons text texts =>
    rw [List.foldl_cons, withArgument_of_closed rfl, foldl_withArgument_of_open texts rfl,
      listShown, if_neg (List.cons_ne_nil _ _), commaSeparated, intercalate_cons]
    simp [closeArguments, enterName, popFlag, write]

/-! ## Types -/

theorem mark_className {r : Rendering} {name : String}
    (isShown : name ≠ objectName ∨ r.ShowsRoot) :
    r.mark (.className name) = (r.named (Text.dotted name).toList).enterName := by
  have shown : (name ≠ objectName || (popFlag r.argumentFlags).1 || r.inArguments ||
      r.keepsObject) = true := by
    rcases isShown with notRoot | showsRoot
    · simp [notRoot]
    · rw [Bool.or_assoc, Bool.or_assoc, ← Bool.or_assoc (popFlag _).1, showsRoot]
      exact Bool.or_true _
  rw [mark]
  simp only [shown, if_true]
  rfl

/-- The root class is left out, with what would separate it, where it is not
written out. -/
theorem marks_bareRoot {r : Rendering} (hidden : ¬ r.ShowsRoot) :
    r.marks [.className objectName, .classEnd] = { r with separator := [] }.endType := by
  rw [ShowsRoot, Bool.not_eq_true] at hidden
  have notShown : (objectName ≠ objectName || (popFlag r.argumentFlags).1 || r.inArguments ||
      r.keepsObject) = false := by
    rw [Bool.or_assoc, Bool.or_assoc, ← Bool.or_assoc (popFlag _).1, hidden]
    simp
  rw [marks_cons, marks_cons, marks_nil, mark]
  simp only [notShown, Bool.false_eq_true, if_false]
  simp [mark, closeArguments, popFlag]

/-- The type of an argument is settled as the argument begins, and the list it
stands in is open. -/
theorem Settled.startArgument {r : Rendering} (settled : r.Settled) (bound : Bound) :
    (r.openArgument.write (boundText bound)).startType.Settled ∧
      (r.openArgument.write (boundText bound)).startType.ShowsRoot := by
  have opened : r.openArgument.separator = [] ∧
      (popFlag r.openArgument.argumentFlags).1 = true := by
    rw [openArgument]
    split
    case isTrue isOpen => exact ⟨settled.noSeparator, isOpen⟩
    case isFalse =>
      refine ⟨settled.noSeparator, ?_⟩
      cases r.argumentFlags <;> rfl
  refine ⟨⟨⟨_, rfl⟩, opened.1⟩, ?_⟩
  rw [ShowsRoot]
  change ((popFlag r.openArgument.argumentFlags).1 || _ || _) = true
  rw [opened.2]
  rfl

/-- The marks show the text: wherever the root class is written out, taking the
marks in adds the text and ends the type. -/
def Shows (marks : List Mark) (shown : List Char) : Prop :=
  ∀ ⦃r : Rendering⦄, r.Settled → r.ShowsRoot → r.marks marks = (r.named shown).endType

theorem Settled.endArgument {r : Rendering} (settled : r.Settled) (bound : Bound)
    (shown : List Char) :
    ((r.openArgument.write (boundText bound)).startType.named shown).endType =
      r.withArgument (boundShown bound ++ shown) := by
  have same : boundText bound = boundShown bound := by cases bound <;> rfl
  have inside := settled.withArgument (boundShown bound)
  change ((r.withArgument (boundText bound)).startType.named shown).endType = _
  rw [same, endType_named_startType inside.atElement, named_eq_write inside.noSeparator]
  exact write_write r.openArgument _ _

mutual

/-- The marks of a type add its source form. -/
theorem marks_javaType : (type : JavaType) → Shows type.marks type.shown
  | .base type, r, settled, _ => by
    rw [JavaType.marks, JavaType.shown, named_eq_write settled.noSeparator]
    cases type <;> rfl
  | .reference type, r, settled, showsRoot => by
    rw [JavaType.marks, JavaType.shown]
    exact marks_reference type settled showsRoot

theorem marks_reference : (type : ReferenceType) → Shows type.marks type.shown
  | .variable name, r, _, _ => by
    rw [ReferenceType.marks, ReferenceType.shown, marks_cons, marks_nil, mark,
      String.toList_ofList, named]
  | .array element, r, settled, showsRoot => by
    rw [ReferenceType.marks, ReferenceType.shown, marks_cons, ← endType_named_array]
    exact marks_javaType element ⟨⟨_, rfl⟩, settled.noSeparator⟩ showsRoot
  | .ofClass type, r, settled, showsRoot => by
    rw [ReferenceType.marks, ReferenceType.shown]
    exact marks_classType type settled.atElement (Or.inr showsRoot)

/-- The marks of a class type that is written out add its source form. -/
theorem marks_classType : (type : ClassType) → {r : Rendering} → r.AtElement →
    type.isRoot = false ∨ r.ShowsRoot → r.marks type.marks = (r.named type.shown).endType
  | .mk package (.mk name arguments) members, r, atElement, isShown => by
    have isShown : String.ofList (pathText package ++ name.chars) ≠ objectName ∨
        r.ShowsRoot := by
      refine isShown.imp_left fun notRoot equal => ?_
      rw [ClassType.isRoot, decide_eq_false_iff_not] at notRoot
      exact notRoot (String.ofList_injective equal)
    -- Arguments go by a flag that the name puts down and the end of them takes away.
    have settled : (r.named (pathShown package ++ name.chars)).enterName.Settled :=
      ⟨atElement, rfl⟩
    rw [ClassType.marks, marks_cons, mark_className isShown, dotted_path, marks_append,
      marks_arguments arguments settled, marks_members members (settled.foldl_withArgument _),
      closeArguments_foldl_withArgument, ClassType.shown, Segment.shown]
    simp [named, write]

theorem marks_members : (members : List Segment) → {r : Rendering} → r.Settled →
    r.marks (memberMarks members) = (r.closeArguments.write (membersShown members)).endType
  | [], r, _ => by
    rw [memberMarks, membersShown, marks_cons, marks_nil, mark, write, List.append_nil]
  | .mk name arguments :: members, r, settled => by
    have entered : r.mark (.memberName (String.ofList name.chars)) =
        (r.closeArguments.write ('.' :: name.chars)).enterName := by
      have noSeparator : (r.closeArguments.write ['.']).separator = [] := settled.noSeparator
      change ((r.closeArguments.write ['.']).named (Text.dotted _).toList).enterName = _
      rw [dotted_name, named_eq_write noSeparator, write_write]
      rfl
    have settled : (r.closeArguments.write ('.' :: name.chars)).enterName.Settled :=
      ⟨settled.atElement, settled.noSeparator⟩
    rw [memberMarks, membersShown, marks_cons, entered, marks_append,
      marks_arguments arguments settled, marks_members members (settled.foldl_withArgument _),
      closeArguments_foldl_withArgument, Segment.shown, write_write, write_write]
    simp

theorem marks_arguments : (arguments : List TypeArgument) → {r : Rendering} → r.Settled →
    r.marks (argumentMarks arguments) = (argumentsShown arguments).foldl withArgument r
  | [], r, _ => rfl
  | .any :: arguments, r, settled => by
    rw [argumentMarks, argumentsShown, TypeArgument.marks, TypeArgument.shown, marks_append,
      List.foldl_cons]
    exact marks_arguments arguments (settled.withArgument ['?'])
  | .bounded bound type :: arguments, r, settled => by
    obtain ⟨inside, showsRoot⟩ := settled.startArgument bound
    rw [argumentMarks, argumentsShown, TypeArgument.marks, TypeArgument.shown, marks_append,
      List.foldl_cons, marks_cons, mark, marks_reference type inside showsRoot,
      settled.endArgument]
    exact marks_arguments arguments (settled.withArgument _)

end

end Rendering

end JvmDiff.Signature
