import JvmDiff.Proofs.Signature.Syntax

/-!
# Scanning what a type spells

The marks of a type are listed from its tree; scanning the text of the type finds these marks and
stops where the text ends, whatever follows it.
-/

namespace JvmDiff.Signature

/-! ## The marks of a type -/

mutual

def JavaType.marks : JavaType → List Mark
  | .base type => [.primitive type.letter]
  | .reference type => type.marks

def ReferenceType.marks : ReferenceType → List Mark
  | .variable name => [.variable (String.ofList name.chars)]
  | .array element => .array :: element.marks
  | .ofClass type => type.marks

def ClassType.marks : ClassType → List Mark
  | .mk package (.mk name arguments) members =>
      .className (String.ofList (pathText package ++ name.chars)) ::
        (argumentMarks arguments ++ memberMarks members)

/-- The marks from the first member class to the end of the class type. -/
def memberMarks : List Segment → List Mark
  | [] => [.classEnd]
  | .mk name arguments :: members =>
      .memberName (String.ofList name.chars) :: (argumentMarks arguments ++ memberMarks members)

def TypeArgument.marks : TypeArgument → List Mark
  | .any => [.anyArgument]
  | .bounded bound type => .argument bound :: type.marks

def argumentMarks : List TypeArgument → List Mark
  | [] => []
  | argument :: arguments => argument.marks ++ argumentMarks arguments

end

/-! ## Names -/

theorem splitAtMark_append {mark : Char} {before : List Char} (absent : mark ∉ before)
    (after : List Char) :
    splitAtMark mark (before ++ mark :: after) = some (before, after) := by
  induction before with
  | nil => simp [splitAtMark]
  | cons c before inductionHypothesis =>
    rw [List.mem_cons, not_or] at absent
    rw [List.cons_append, splitAtMark, if_neg (Ne.symm absent.1),
      inductionHypothesis absent.2, Option.map_some]

theorem splitAtMark_eq_some {mark : Char} {text before after : List Char}
    (split : splitAtMark mark text = some (before, after)) :
    text = before ++ mark :: after ∧ mark ∉ before := by
  induction text generalizing before with
  | nil => simp [splitAtMark] at split
  | cons c text inductionHypothesis =>
    rw [splitAtMark] at split
    split at split
    case isTrue isMark =>
      cases split
      exact ⟨by rw [isMark, List.nil_append], List.not_mem_nil⟩
    case isFalse noMark =>
      obtain ⟨⟨first, second⟩, restSplit, equal⟩ := Option.map_eq_some_iff.mp split
      cases equal
      obtain ⟨rfl, absent⟩ := inductionHypothesis restSplit
      refine ⟨rfl, ?_⟩
      rw [List.mem_cons, not_or]
      exact ⟨Ne.symm noMark, absent⟩

theorem Identifier.not_mem (name : Identifier) (mark : Char)
    (separates : mark ∈ ['.', ';', '[', '/', '<', '>', ':']) : mark ∉ name.chars :=
  fun member => name.plain mark member separates

/-- What a name of a class is made of: no character that ends it. -/
def Unmarked (text : List Char) : Prop :=
  ∀ c ∈ text, ¬ (c = '.' ∨ c = ';') ∧ c ≠ '<'

theorem unmarked_nil : Unmarked [] := fun _ member => absurd member List.not_mem_nil

theorem Unmarked.append {first second : List Char} (firstUnmarked : Unmarked first)
    (secondUnmarked : Unmarked second) : Unmarked (first ++ second) := by
  intro c member
  rcases List.mem_append.mp member with inFirst | inSecond
  · exact firstUnmarked c inFirst
  · exact secondUnmarked c inSecond

theorem Identifier.unmarked (name : Identifier) : Unmarked name.chars := by
  intro c member
  have plain := name.plain c member
  simp only [List.mem_cons, List.not_mem_nil, or_false, not_or] at plain
  exact ⟨not_or.mpr ⟨plain.1, plain.2.1⟩, plain.2.2.2.2.1⟩

theorem unmarked_pathText (package : List Identifier) : Unmarked (pathText package) := by
  intro c member
  obtain ⟨name, _, inName⟩ := List.mem_flatMap.mp member
  rcases List.mem_append.mp inName with inChars | isSlash
  · exact name.unmarked c inChars
  · rw [List.mem_singleton.mp isSlash]
    decide

/-! ## Results of scans -/

/-- Scanning the type at the front of a text finds the marks and leaves the
rest. -/
def ScansType (text : List Char) (marks : List Mark) (rest : List Char) : Prop :=
  ∃ progress, scanType text = .ok ⟨marks, rest, progress⟩

def ScansName (isMember isShown : Bool) (start text : List Char) (marks : List Mark)
    (rest : List Char) : Prop :=
  ∃ progress, scanName isMember isShown start text = .ok ⟨marks, rest, progress⟩

def ScansArguments (text : List Char) (marks : List Mark) (rest : List Char) : Prop :=
  ∃ progress, scanArguments text = .ok ⟨marks, rest, progress⟩

/-- The mark for a name at its end. -/
def segmentMark (isMember : Bool) (name : List Char) : Mark :=
  if isMember then .memberName (String.ofList name) else .className (String.ofList name)

theorem nameMark_append (isMember : Bool) {name : List Char} (nonempty : name ≠ [])
    (rest : List Char) :
    nameMark isMember (name ++ rest) rest = .ok (segmentMark isMember name) := by
  have longer : ¬ (name ++ rest).length ≤ rest.length := by
    have := List.length_pos_iff.mpr nonempty
    rw [List.length_append]
    omega
  have taken : (name ++ rest).take ((name ++ rest).length - rest.length) = name := by
    rw [List.length_append, Nat.add_sub_cancel, List.take_left']
    rfl
  rw [nameMark]
  simp only [longer, if_false, taken]
  cases isMember <;> rfl

/-- Characters without a meaning of their own are passed over. -/
theorem ScansName.pass {isMember isShown : Bool} {start skipped text : List Char}
    {marks : List Mark} {rest : List Char} (unmarked : Unmarked skipped)
    (scans : ScansName isMember isShown start text marks rest) :
    ScansName isMember isShown start (skipped ++ text) marks rest := by
  induction skipped with
  | nil => exact scans
  | cons c skipped inductionHypothesis =>
    obtain ⟨notEnd, notOpening⟩ := unmarked c List.mem_cons_self
    obtain ⟨progress, scanned⟩ :=
      inductionHypothesis fun other member => unmarked other (List.mem_cons_of_mem c member)
    change ScansName isMember isShown start (c :: (skipped ++ text)) marks rest
    refine ⟨Nat.lt_succ_of_lt progress, ?_⟩
    rw [scanName]
    simp only [notEnd, notOpening, if_false, scanned]

theorem ScansName.semicolon {isMember isShown : Bool} {start : List Char} {shown : List Mark}
    (rest : List Char)
    (known : (if isShown then .ok [] else
      (nameMark isMember start (';' :: rest)).map ([·])) = .ok shown) :
    ScansName isMember isShown start (';' :: rest) (shown ++ [.classEnd]) rest := by
  refine ⟨Nat.lt_succ_self _, ?_⟩
  rw [scanName]
  simp [known]

/-- A dot leads on to a member class. -/
theorem ScansName.dot {isMember isShown : Bool} {start text : List Char} {shown marks : List Mark}
    {rest : List Char}
    (known : (if isShown then .ok [] else
      (nameMark isMember start ('.' :: text)).map ([·])) = .ok shown)
    (scans : ScansName true false text text marks rest) :
    ScansName isMember isShown start ('.' :: text) (shown ++ marks) rest := by
  obtain ⟨progress, scanned⟩ := scans
  refine ⟨Nat.lt_succ_of_lt progress, ?_⟩
  rw [scanName]
  simp [known, scanned]

/-- An opening bracket leads on to type arguments, a closing one back to the
name. -/
theorem ScansName.brackets {isMember isShown : Bool} {start arguments text : List Char}
    {name : Mark} {argumentMarks marks : List Mark} {rest : List Char}
    (known : nameMark isMember start ('<' :: (arguments ++ '>' :: text)) = .ok name)
    (inside : ScansArguments (arguments ++ '>' :: text) argumentMarks ('>' :: text))
    (scans : ScansName isMember true start text marks rest) :
    ScansName isMember isShown start ('<' :: (arguments ++ '>' :: text))
      (name :: (argumentMarks ++ marks)) rest := by
  have unmarked : Unmarked ['>'] := by
    intro c member
    rw [List.mem_singleton.mp member]
    decide
  have afterBracket : ScansName isMember true start ('>' :: text) marks rest :=
    ScansName.pass unmarked scans
  obtain ⟨insideProgress, insideScanned⟩ := inside
  obtain ⟨progress, scanned⟩ := afterBracket
  refine ⟨Nat.lt_of_lt_of_le progress (Nat.le_succ_of_le insideProgress), ?_⟩
  rw [scanName]
  simp [known, insideScanned, scanned]

/-- Scanning from the end of a name on, whether its mark is still to be shown
or not. -/
def ScansTail (text : List Char) (marks : List Mark) (rest : List Char) : Prop :=
  ∀ (isMember isShown : Bool) (start : List Char) (shown : List Mark),
    (if isShown then .ok [] else (nameMark isMember start text).map ([·])) = .ok shown →
      ScansName isMember isShown start text (shown ++ marks) rest

/-- A name with its arguments, from the start of the name to the end of the
class type. -/
theorem ScansName.segment (isMember : Bool) {name arguments tail : List Char}
    {argumentMarks marks : List Mark} {rest : List Char} (unmarked : Unmarked name)
    (nonempty : name ≠ [])
    (inside : ∀ after, ScansArguments (arguments ++ '>' :: after) argumentMarks ('>' :: after))
    (bare : arguments = [] → argumentMarks = [])
    (scans : ScansTail tail marks rest) :
    ScansName isMember false (name ++ (inBrackets arguments ++ tail))
      (name ++ (inBrackets arguments ++ tail))
      (segmentMark isMember name :: (argumentMarks ++ marks)) rest := by
  refine ScansName.pass unmarked ?_
  rw [inBrackets]
  by_cases none : arguments = []
  · rw [if_pos none, bare none]
    refine scans isMember false _ [segmentMark isMember name] ?_
    rw [List.nil_append, nameMark_append isMember nonempty]
    rfl
  · rw [if_neg none]
    have bracketed :
        ('<' :: (arguments ++ ['>'])) ++ tail = '<' :: (arguments ++ '>' :: tail) := by
      simp
    rw [bracketed]
    exact ScansName.brackets (nameMark_append isMember nonempty _) (inside tail)
      (scans isMember true _ [] rfl)

/-! ## Scanning a text that spells a type -/

/-- Only the first letters of reference types are told apart from other
arguments. -/
theorem ReferenceType.text_eq_cons (type : ReferenceType) :
    ∃ c text, type.text = c :: text ∧ (c = 'T' ∨ c = '[' ∨ c = 'L') := by
  match type with
  | .variable name => exact ⟨'T', _, by rw [ReferenceType.text], Or.inl rfl⟩
  | .array element => exact ⟨'[', _, by rw [ReferenceType.text], Or.inr (Or.inl rfl)⟩
  | .ofClass (.mk package outer members) =>
    exact ⟨'L', _, by rw [ReferenceType.text, ClassType.text], Or.inr (Or.inr rfl)⟩

theorem scansType_primitive {letter : Char} (known : (primitiveName? letter).isSome = true)
    (rest : List Char) : ScansType (letter :: rest) [.primitive letter] rest := by
  refine ⟨Nat.lt_succ_self _, ?_⟩
  rw [scanType]
  simp only [known, if_true]

theorem BaseType.isSome_primitiveName? (type : BaseType) :
    (primitiveName? type.letter).isSome = true := by
  cases type <;> rfl

theorem scansType_variable {name : List Char} (closed : ';' ∉ name) (rest : List Char) :
    ScansType ('T' :: (name ++ ';' :: rest)) [.variable (String.ofList name)] rest := by
  have known := splitAtMark_append closed rest
  have progress := length_of_splitAtMark known
  refine ⟨Nat.lt_succ_of_lt progress, ?_⟩
  rw [scanType]
  have notPrimitive : (primitiveName? 'T').isSome = false := rfl
  have notArray : ¬ 'T' = '[' := by decide
  simp only [notPrimitive, notArray, Bool.false_eq_true, if_false, if_true]
  split
  case h_1 missing =>
    rw [known] at missing
    cases missing
  case h_2 before after found =>
    rw [known] at found
    cases found
    rfl

theorem scansType_array {text rest : List Char} {marks : List Mark}
    (scans : ScansType text marks rest) : ScansType ('[' :: text) (.array :: marks) rest := by
  obtain ⟨progress, scanned⟩ := scans
  refine ⟨Nat.lt_succ_of_lt progress, ?_⟩
  rw [scanType]
  have notPrimitive : (primitiveName? '[').isSome = false := rfl
  simp [notPrimitive, scanned]

theorem scansType_class {text rest : List Char} {marks : List Mark}
    (scans : ScansName false false text text marks rest) :
    ScansType ('L' :: text) marks rest := by
  obtain ⟨progress, scanned⟩ := scans
  refine ⟨Nat.lt_succ_of_lt progress, ?_⟩
  rw [scanType]
  have notPrimitive : (primitiveName? 'L').isSome = false := rfl
  simp [notPrimitive, scanned]

/-- Only a list without arguments spells nothing. -/
theorem bare_of_argumentTexts (arguments : List TypeArgument)
    (spelled : argumentTexts arguments = []) : argumentMarks arguments = [] := by
  match arguments with
  | [] => rfl
  | .any :: arguments => simp [argumentTexts, TypeArgument.text] at spelled
  | .bounded bound type :: arguments =>
    obtain ⟨c, text, first, -⟩ := type.text_eq_cons
    simp [argumentTexts, TypeArgument.text, first] at spelled

theorem scansArguments_end (rest : List Char) :
    ScansArguments ('>' :: rest) [] ('>' :: rest) := by
  refine ⟨Nat.le_refl _, ?_⟩
  rw [scanArguments]

theorem scansArguments_any {text rest : List Char} {marks : List Mark}
    (scans : ScansArguments text marks rest) :
    ScansArguments ('*' :: text) (.anyArgument :: marks) rest := by
  obtain ⟨progress, scanned⟩ := scans
  refine ⟨Nat.le_succ_of_le progress, ?_⟩
  rw [scanArguments, scanned]

theorem scansArguments_bounded (bound : Bound) {c : Char} (noMark : c ∉ ['>', '*', '+', '-'])
    {text after rest : List Char} {firstMarks marks : List Mark}
    (scansFirst : ScansType (c :: text) firstMarks after)
    (scans : ScansArguments after marks rest) :
    ScansArguments (boundMark bound ++ c :: text) (.argument bound :: (firstMarks ++ marks))
      rest := by
  obtain ⟨firstProgress, firstScanned⟩ := scansFirst
  obtain ⟨progress, scanned⟩ := scans
  have shorter := Nat.le_trans progress (Nat.le_of_lt firstProgress)
  cases bound with
  | subtypes =>
    refine ⟨Nat.le_succ_of_le shorter, ?_⟩
    change scanArguments ('+' :: c :: text) = _
    rw [scanArguments, scanBounded, firstScanned]
    simp only [scanned]
    rfl
  | supertypes =>
    refine ⟨Nat.le_succ_of_le shorter, ?_⟩
    change scanArguments ('-' :: c :: text) = _
    rw [scanArguments, scanBounded, firstScanned]
    simp only [scanned]
    rfl
  | exactly =>
    -- Nothing marks the argument, so its first letter has to rule the other cases out.
    refine ⟨shorter, ?_⟩
    simp only [List.mem_cons, List.not_mem_nil, or_false, not_or] at noMark
    change scanArguments (c :: text) = _
    rw [scanArguments, scanBounded, firstScanned]
    · simp only [scanned]
      rfl
    · exact noMark.1
    · exact noMark.2.1
    · exact noMark.2.2.1
    · exact noMark.2.2.2

mutual

theorem JavaType.scans : (type : JavaType) → (rest : List Char) →
    ScansType (type.text ++ rest) type.marks rest
  | .base type, rest => by
    rw [JavaType.text, JavaType.marks]
    exact scansType_primitive type.isSome_primitiveName? rest
  | .reference type, rest => by
    rw [JavaType.text, JavaType.marks]
    exact type.scans rest

theorem ReferenceType.scans : (type : ReferenceType) → (rest : List Char) →
    ScansType (type.text ++ rest) type.marks rest
  | .variable name, rest => by
    rw [ReferenceType.text, ReferenceType.marks, List.cons_append, List.append_assoc]
    exact scansType_variable (name.not_mem ';' (by decide)) rest
  | .array element, rest => by
    rw [ReferenceType.text, ReferenceType.marks]
    exact scansType_array (element.scans rest)
  | .ofClass type, rest => by
    rw [ReferenceType.text, ReferenceType.marks]
    exact type.scans rest

theorem ClassType.scans : (type : ClassType) → (rest : List Char) →
    ScansType (type.text ++ rest) type.marks rest
  | .mk package (.mk name arguments) members, rest => by
    have nonempty : pathText package ++ name.chars ≠ [] := by
      rw [Ne, List.append_eq_nil_iff, not_and]
      exact fun _ => name.nonempty
    have scans := ScansName.segment false
      ((unmarked_pathText package).append name.unmarked) nonempty (scansArguments arguments)
      (bare_of_argumentTexts arguments) (scansMembers members rest)
    rw [ClassType.text, Segment.text, ClassType.marks]
    simp only [List.cons_append, List.append_assoc, List.nil_append] at scans ⊢
    exact scansType_class scans

theorem scansMembers : (members : List Segment) → (rest : List Char) →
    ScansTail (memberTexts members ++ ';' :: rest) (memberMarks members) rest
  | [], rest => by
    intro isMember isShown start shown known
    rw [memberTexts, memberMarks]
    exact ScansName.semicolon rest known
  | .mk name arguments :: members, rest => by
    intro isMember isShown start shown known
    have scans := ScansName.segment true name.unmarked name.nonempty
      (scansArguments arguments) (bare_of_argumentTexts arguments) (scansMembers members rest)
    rw [memberTexts, Segment.text, memberMarks] at *
    simp only [List.cons_append, List.append_assoc] at known scans ⊢
    exact ScansName.dot known scans

theorem scansArguments : (arguments : List TypeArgument) → (after : List Char) →
    ScansArguments (argumentTexts arguments ++ '>' :: after) (argumentMarks arguments)
      ('>' :: after)
  | [], after => by
    rw [argumentTexts, argumentMarks]
    exact scansArguments_end after
  | .any :: arguments, after => by
    rw [argumentTexts, argumentMarks, TypeArgument.text, TypeArgument.marks]
    exact scansArguments_any (scansArguments arguments after)
  | .bounded bound type :: arguments, after => by
    obtain ⟨c, text, spelled, first⟩ := type.text_eq_cons
    have noMark : c ∉ ['>', '*', '+', '-'] := by
      rcases first with rfl | rfl | rfl <;> decide
    have scansFirst := type.scans (argumentTexts arguments ++ '>' :: after)
    rw [argumentTexts, argumentMarks, TypeArgument.text, TypeArgument.marks, List.append_assoc,
      List.append_assoc, List.cons_append]
    rw [spelled, List.cons_append] at scansFirst ⊢
    exact scansArguments_bounded bound noMark scansFirst (scansArguments arguments after)

end

end JvmDiff.Signature
