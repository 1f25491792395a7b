import JvmDiff.Proofs.Signature.Scanning

/-!
# What the scan takes a type for

The scan of a type goes from mark to mark and asks little of what stands in between.  A reading is
what it takes a text for, as a tree.  A type is scanned exactly where the text of a reading stands,
whatever follows it.
-/

namespace JvmDiff.Signature

mutual

/-- A type as the scan takes it.  Void is one of the primitive types, and a variable may lack its
name. -/
inductive TypeReading where
  | primitive (letter : Char) (known : (primitiveName? letter).isSome = true)
  | variable (name : List Char) (closed : ';' ∉ name)
  | array (element : TypeReading)
  | ofClass (outer : SegmentReading) (members : List SegmentReading)

/-- A name of a class or a member class, and any number of brackets. -/
inductive SegmentReading where
  | mk (name : List Char) (nonempty : name ≠ []) (unmarked : Unmarked name)
      (brackets : List BracketReading)

/-- Any number of arguments between angle brackets, and the text that is passed over behind
them. -/
inductive BracketReading where
  | mk (arguments : List ArgumentReading) (behind : List Char) (unmarked : Unmarked behind)

inductive ArgumentReading where
  | any
  | bounded (bound : Bound) (type : TypeReading)

end

/-- What the first letter of a type tells. -/
inductive TypeKind where
  | primitive
  | variable
  | array
  | ofClass
deriving DecidableEq, Repr

def TypeReading.kind : TypeReading → TypeKind
  | .primitive _ _ => .primitive
  | .variable _ _ => .variable
  | .array _ => .array
  | .ofClass _ _ => .ofClass

/-! ## The text of a reading -/

mutual

def TypeReading.text : TypeReading → List Char
  | .primitive letter _ => [letter]
  | .variable name _ => 'T' :: (name ++ [';'])
  | .array element => '[' :: element.text
  | .ofClass outer members => 'L' :: (outer.text ++ (SegmentReading.texts members ++ [';']))

def SegmentReading.text : SegmentReading → List Char
  | .mk name _ _ brackets => name ++ BracketReading.texts brackets

def SegmentReading.texts : List SegmentReading → List Char
  | [] => []
  | member :: members => '.' :: (member.text ++ SegmentReading.texts members)

def BracketReading.text : BracketReading → List Char
  | .mk arguments behind _ => '<' :: (ArgumentReading.texts arguments ++ '>' :: behind)

def BracketReading.texts : List BracketReading → List Char
  | [] => []
  | bracket :: brackets => bracket.text ++ BracketReading.texts brackets

def ArgumentReading.text : ArgumentReading → List Char
  | .any => ['*']
  | .bounded bound type => boundMark bound ++ type.text

def ArgumentReading.texts : List ArgumentReading → List Char
  | [] => []
  | argument :: arguments => argument.text ++ ArgumentReading.texts arguments

end

/-! ## From the scan to a reading -/

theorem lt_length_of_nameMark {isMember : Bool} {start rest : List Char} {mark : Mark}
    (marked : nameMark isMember start rest = .ok mark) : rest.length < start.length := by
  refine Nat.lt_of_not_le fun tooLong => ?_
  rw [nameMark] at marked
  simp only [if_pos tooLong] at marked
  cases marked

/-- The text from inside a name that began at `start` up to the end of the class type, the rest
behind it: what is left of the name, its brackets and the member classes.  A name that is not shown
yet has a character by its end. -/
def ReadsName (isShown : Bool) (start text rest : List Char) : Prop :=
  ∃ name brackets members, Unmarked name ∧
    (isShown = false → text.length < start.length + name.length) ∧
      text = name ++ (BracketReading.texts brackets ++
        (SegmentReading.texts members ++ ';' :: rest))

/-- What follows a name does not start with a character that could be passed over. -/
theorem tail_eq_cons (brackets : List BracketReading) (members : List SegmentReading)
    (rest : List Char) :
    ∃ c others, BracketReading.texts brackets ++ (SegmentReading.texts members ++ ';' :: rest) =
      c :: others ∧ (c = '<' ∨ c = '.' ∨ c = ';') := by
  match brackets, members with
  | [], [] => exact ⟨';', rest, rfl, .inr (.inr rfl)⟩
  | [], member :: members => exact ⟨'.', _, by rw [SegmentReading.texts]; rfl, .inr (.inl rfl)⟩
  | .mk _ _ _ :: brackets, members =>
    exact ⟨'<', _, by rw [BracketReading.texts, BracketReading.text]; rfl, .inl rfl⟩

namespace ReadsName

variable {isShown : Bool} {start text rest : List Char}

theorem semicolon (begun : isShown = false → (';' :: rest).length < start.length) :
    ReadsName isShown start (';' :: rest) rest :=
  ⟨[], [], [], unmarked_nil, begun, rfl⟩

/-- From the start of a name on, the whole name with its brackets is read. -/
theorem exists_segment (reads : ReadsName false text text rest) :
    ∃ segment members, text = SegmentReading.text segment ++
      (SegmentReading.texts members ++ ';' :: rest) := by
  obtain ⟨name, brackets, members, unmarked, begun, split⟩ := reads
  have nonempty : name ≠ [] := by
    rintro rfl
    exact absurd (begun rfl) (Nat.lt_irrefl _)
  refine ⟨.mk name nonempty unmarked brackets, members, ?_⟩
  rw [SegmentReading.text, List.append_assoc]
  exact split

theorem dot (begun : isShown = false → ('.' :: text).length < start.length)
    (reads : ReadsName false text text rest) : ReadsName isShown start ('.' :: text) rest := by
  obtain ⟨segment, members, split⟩ := reads.exists_segment
  refine ⟨[], [], segment :: members, unmarked_nil, begun, ?_⟩
  rw [SegmentReading.texts, split]
  simp [BracketReading.texts]

theorem pass {c : Char} (unmarked : Unmarked [c]) (reads : ReadsName isShown start text rest) :
    ReadsName isShown start (c :: text) rest := by
  obtain ⟨name, brackets, members, nameUnmarked, begun, rfl⟩ := reads
  refine ⟨c :: name, brackets, members, unmarked.append nameUnmarked, fun notShown => ?_, rfl⟩
  have lengths := begun notShown
  rw [List.length_cons, List.length_cons]
  omega

theorem brackets {arguments : List ArgumentReading} {after tail : List Char}
    (closed : after = '>' :: tail)
    (begun : ('<' :: (ArgumentReading.texts arguments ++ after)).length < start.length)
    (reads : ReadsName true start after rest) :
    ReadsName isShown start ('<' :: (ArgumentReading.texts arguments ++ after)) rest := by
  obtain ⟨name, brackets, members, unmarked, -, split⟩ := reads
  subst closed
  -- The closing bracket is no mark of its own, so it is the first character passed over.
  cases name with
  | nil =>
    obtain ⟨c, others, tail, isMark⟩ := tail_eq_cons brackets members rest
    rw [List.nil_append, tail] at split
    cases split
    simp at isMark
  | cons c behind =>
    cases split
    have behindUnmarked : Unmarked behind := fun c member =>
      unmarked c (List.mem_cons_of_mem _ member)
    refine ⟨[], .mk arguments behind behindUnmarked :: brackets, members, unmarked_nil,
      fun _ => begun, ?_⟩
    simp [BracketReading.texts, BracketReading.text]

end ReadsName

mutual

theorem exists_reading_of_scanType (text : List Char) {scan : Scan text}
    (scanned : scanType text = .ok scan) :
    ∃ reading : TypeReading, text = reading.text ++ scan.rest := by
  cases text with
  | nil => simp [scanType] at scanned
  | cons c rest =>
    rw [scanType] at scanned
    split at scanned
    case isTrue known =>
      cases scanned
      exact ⟨.primitive c known, rfl⟩
    case isFalse =>
      split at scanned
      case isTrue isArray =>
        subst isArray
        split at scanned
        case h_1 => cases scanned
        case h_2 element found =>
          cases scanned
          obtain ⟨reading, split⟩ := exists_reading_of_scanType rest found
          exact ⟨.array reading, congrArg ('[' :: ·) split⟩
      case isFalse =>
        split at scanned
        case isTrue isVariable =>
          subst isVariable
          split at scanned
          case h_1 => cases scanned
          case h_2 name after found =>
            cases scanned
            obtain ⟨rfl, closed⟩ := splitAtMark_eq_some found
            exact ⟨.variable name closed, by simp [TypeReading.text]⟩
        case isFalse =>
          split at scanned
          case isTrue isClass =>
            subst isClass
            split at scanned
            case h_1 => cases scanned
            case h_2 found foundName =>
              cases scanned
              obtain ⟨segment, members, split⟩ :=
                (readsName_of_scanName false false rest rest foundName).exists_segment
              refine ⟨.ofClass segment members, (congrArg ('L' :: ·) split).trans ?_⟩
              simp [TypeReading.text]
          case isFalse => cases scanned
termination_by (text.length, 0)

theorem readsName_of_scanName (isMember isShown : Bool) (start text : List Char) {scan : Scan text}
    (scanned : scanName isMember isShown start text = .ok scan) :
    ReadsName isShown start text scan.rest := by
  match text, scan, scanned with
  | [], _, scanned => simp [scanName] at scanned
  | c :: rest, scan, scanned =>
    rw [scanName] at scanned
    split at scanned
    case isTrue isEnd =>
      split at scanned
      case h_1 => cases scanned
      case h_2 shown found =>
        have begun : isShown = false → (c :: rest).length < start.length := by
          rintro rfl
          simp only [Bool.false_eq_true, if_false] at found
          cases marked : nameMark isMember start (c :: rest) with
          | error fault => rw [marked] at found; cases found
          | ok mark => exact lt_length_of_nameMark marked
        split at scanned
        case isTrue isSemicolon =>
          subst isSemicolon
          cases scanned
          exact .semicolon begun
        case isFalse notSemicolon =>
          obtain rfl := isEnd.resolve_right notSemicolon
          split at scanned
          case h_1 => cases scanned
          case h_2 more foundMore =>
            cases scanned
            exact .dot begun (readsName_of_scanName true false rest rest foundMore)
    case isFalse notEnd =>
      split at scanned
      case isTrue isOpening =>
        subst isOpening
        split at scanned
        case h_1 => cases scanned
        case h_2 mark marked =>
          split at scanned
          case h_1 => cases scanned
          case h_2 arguments foundArguments =>
            split at scanned
            case h_1 => cases scanned
            case h_2 more foundMore =>
              cases scanned
              obtain ⟨readings, tail, closed, split⟩ :=
                exists_readings_of_scanArguments rest foundArguments
              have begun := lt_length_of_nameMark marked
              have shorter := arguments.progress
              have reads := readsName_of_scanName isMember true start arguments.rest foundMore
              have bracketed : ReadsName isShown start
                  ('<' :: (ArgumentReading.texts readings ++ arguments.rest)) more.rest :=
                .brackets closed (by rw [← split]; exact begun) reads
              rw [← split] at bracketed
              exact bracketed
      case isFalse notOpening =>
        split at scanned
        case h_1 => cases scanned
        case h_2 more foundMore =>
          cases scanned
          have unmarked : Unmarked [c] := fun other member => by
            rw [List.mem_singleton.mp member]
            exact ⟨notEnd, notOpening⟩
          exact .pass unmarked (readsName_of_scanName isMember isShown start rest foundMore)
termination_by (text.length, 0)

theorem exists_readings_of_scanArguments (text : List Char) {scan : ArgumentScan text}
    (scanned : scanArguments text = .ok scan) :
    ∃ arguments tail, scan.rest = '>' :: tail ∧
      text = ArgumentReading.texts arguments ++ scan.rest := by
  rw [scanArguments.eq_def] at scanned
  split at scanned
  case h_1 => cases scanned
  case h_2 rest =>
    cases scanned
    exact ⟨[], rest, rfl, rfl⟩
  case h_3 rest =>
    split at scanned
    case h_1 => cases scanned
    case h_2 more foundMore =>
      cases scanned
      obtain ⟨arguments, tail, closed, split⟩ := exists_readings_of_scanArguments rest foundMore
      exact ⟨.any :: arguments, tail, closed, congrArg ('*' :: ·) split⟩
  case h_4 rest =>
    obtain ⟨type, arguments, tail, closed, split⟩ :=
      exists_readings_of_scanBounded .subtypes rest _ scanned
    refine ⟨.bounded .subtypes type :: arguments, tail, closed, ?_⟩
    simp [ArgumentReading.texts, ArgumentReading.text, boundMark, split]
  case h_5 rest =>
    obtain ⟨type, arguments, tail, closed, split⟩ :=
      exists_readings_of_scanBounded .supertypes rest _ scanned
    refine ⟨.bounded .supertypes type :: arguments, tail, closed, ?_⟩
    simp [ArgumentReading.texts, ArgumentReading.text, boundMark, split]
  case h_6 c rest _ _ _ _ =>
    obtain ⟨type, arguments, tail, closed, split⟩ :=
      exists_readings_of_scanBounded .exactly (c :: rest) _ scanned
    refine ⟨.bounded .exactly type :: arguments, tail, closed, ?_⟩
    simp [ArgumentReading.texts, ArgumentReading.text, boundMark, split]
termination_by (text.length, 2)
decreasing_by
  all_goals subst text
  all_goals first
    | exact Prod.Lex.left _ _ (Nat.lt_succ_self _)
    | exact Prod.Lex.right _ (Nat.lt_succ_self _)

theorem exists_readings_of_scanBounded {text : List Char} (bound : Bound) (rest : List Char)
    (shorter : rest.length ≤ text.length) {scan : ArgumentScan text}
    (scanned : scanBounded bound rest shorter = .ok scan) :
    ∃ type arguments tail, scan.rest = '>' :: tail ∧
      rest = TypeReading.text type ++ (ArgumentReading.texts arguments ++ scan.rest) := by
  rw [scanBounded] at scanned
  split at scanned
  case h_1 => cases scanned
  case h_2 type foundType =>
    split at scanned
    case h_1 => cases scanned
    case h_2 more foundMore =>
      cases scanned
      obtain ⟨reading, typeSplit⟩ := exists_reading_of_scanType rest foundType
      have shorter := type.progress
      obtain ⟨arguments, tail, closed, split⟩ :=
        exists_readings_of_scanArguments type.rest foundMore
      exact ⟨reading, arguments, tail, closed, by rw [← split]; exact typeSplit⟩
termination_by (rest.length, 1)

end

/-! ## From a reading to the scan -/

/-- The first letter of a type tells it from everything else that could stand in its place. -/
theorem TypeReading.text_eq_cons (reading : TypeReading) :
    ∃ c others, reading.text = c :: others ∧
      c ∉ ['>', '*', '+', '-', '(', ')', '<', ':', '^'] := by
  match reading with
  | .primitive letter known =>
    refine ⟨letter, [], by rw [TypeReading.text], fun isMark => ?_⟩
    simp only [List.mem_cons, List.not_mem_nil, or_false] at isMark
    rcases isMark with rfl | rfl | rfl | rfl | rfl | rfl | rfl | rfl | rfl <;> cases known
  | .variable name _ => exact ⟨'T', _, by rw [TypeReading.text], by decide⟩
  | .array element => exact ⟨'[', _, by rw [TypeReading.text], by decide⟩
  | .ofClass outer members => exact ⟨'L', _, by rw [TypeReading.text], by decide⟩

theorem exists_nameMark (isMember : Bool) {start rest : List Char}
    (begun : rest.length < start.length) : ∃ mark, nameMark isMember start rest = .ok mark := by
  rw [nameMark]
  simp only [if_neg (Nat.not_le_of_lt begun)]
  cases isMember
  · exact ⟨_, rfl⟩
  · exact ⟨_, rfl⟩

theorem exists_shown (isMember isShown : Bool) {start rest : List Char}
    (begun : rest.length < start.length) :
    ∃ shown, (if isShown then .ok [] else (nameMark isMember start rest).map ([·])) =
      .ok shown := by
  cases isShown with
  | true => exact ⟨[], rfl⟩
  | false =>
    obtain ⟨mark, marked⟩ := exists_nameMark isMember begun
    exact ⟨[mark], by rw [marked]; rfl⟩

/-- Once a name has begun, the scan gets from the text to the end of the class type. -/
def Finishes (text rest : List Char) : Prop :=
  ∀ (isMember isShown : Bool) (start : List Char), text.length < start.length →
    ∃ marks, ScansName isMember isShown start text marks rest

theorem finishes_semicolon (rest : List Char) : Finishes (';' :: rest) rest := by
  intro isMember isShown start begun
  obtain ⟨shown, known⟩ := exists_shown isMember isShown begun
  exact ⟨_, ScansName.semicolon rest known⟩

theorem Finishes.pass {skipped text rest : List Char} (finishes : Finishes text rest)
    (unmarked : Unmarked skipped) : Finishes (skipped ++ text) rest := by
  intro isMember isShown start begun
  rw [List.length_append] at begun
  obtain ⟨marks, scans⟩ := finishes isMember isShown start (by omega)
  exact ⟨marks, scans.pass unmarked⟩

/-- A whole name begins where its text does. -/
theorem Finishes.scans {name text rest : List Char} (finishes : Finishes text rest)
    (unmarked : Unmarked name) (nonempty : name ≠ []) (isMember : Bool) :
    ∃ marks, ScansName isMember false (name ++ text) (name ++ text) marks rest := by
  have begun : text.length < (name ++ text).length := by
    have := List.length_pos_iff.mpr nonempty
    rw [List.length_append]
    omega
  obtain ⟨marks, scans⟩ := finishes isMember false (name ++ text) begun
  exact ⟨marks, scans.pass unmarked⟩

mutual

theorem TypeReading.scans : (reading : TypeReading) → (rest : List Char) →
    ∃ marks, ScansType (reading.text ++ rest) marks rest
  | .primitive letter known, rest => by
    rw [TypeReading.text]
    exact ⟨_, scansType_primitive known rest⟩
  | .variable name closed, rest => by
    rw [TypeReading.text, List.cons_append, List.append_assoc]
    exact ⟨_, scansType_variable closed rest⟩
  | .array element, rest => by
    obtain ⟨marks, scans⟩ := element.scans rest
    rw [TypeReading.text]
    exact ⟨_, scansType_array scans⟩
  | .ofClass (.mk name nonempty unmarked brackets) members, rest => by
    obtain ⟨marks, scans⟩ :=
      (finishes_brackets brackets (finishes_members members rest)).scans unmarked nonempty false
    refine ⟨marks, ?_⟩
    rw [TypeReading.text, SegmentReading.text]
    simp only [List.cons_append, List.append_assoc, List.nil_append]
    exact scansType_class scans

theorem finishes_members : (members : List SegmentReading) → (rest : List Char) →
    Finishes (SegmentReading.texts members ++ ';' :: rest) rest
  | [], rest => by
    rw [SegmentReading.texts]
    exact finishes_semicolon rest
  | .mk name nonempty unmarked brackets :: members, rest => by
    intro isMember isShown start begun
    obtain ⟨marks, scans⟩ :=
      (finishes_brackets brackets (finishes_members members rest)).scans unmarked nonempty true
    obtain ⟨shown, known⟩ := exists_shown isMember isShown begun
    refine ⟨shown ++ marks, ?_⟩
    rw [SegmentReading.texts, SegmentReading.text] at known ⊢
    simp only [List.cons_append, List.append_assoc] at known ⊢
    exact ScansName.dot known scans

theorem finishes_brackets : (brackets : List BracketReading) → {text rest : List Char} →
    Finishes text rest → Finishes (BracketReading.texts brackets ++ text) rest
  | [], _, _, finishes => by
    rw [BracketReading.texts]
    exact finishes
  | .mk arguments behind unmarked :: brackets, text, rest, finishes => by
    intro isMember isShown start begun
    rw [BracketReading.texts, BracketReading.text] at begun ⊢
    simp only [List.cons_append, List.append_assoc] at begun ⊢
    obtain ⟨name, known⟩ := exists_nameMark isMember begun
    obtain ⟨argumentMarks, inside⟩ := exists_scansArguments arguments
      (behind ++ (BracketReading.texts brackets ++ text))
    simp only [List.length_cons, List.length_append] at begun
    obtain ⟨marks, scans⟩ := (finishes_brackets brackets finishes).pass unmarked isMember true
      start (by simp only [List.length_append]; omega)
    exact ⟨_, ScansName.brackets known inside scans⟩

theorem exists_scansArguments : (arguments : List ArgumentReading) → (after : List Char) →
    ∃ marks, ScansArguments (ArgumentReading.texts arguments ++ '>' :: after) marks
      ('>' :: after)
  | [], after => by
    rw [ArgumentReading.texts]
    exact ⟨_, scansArguments_end after⟩
  | .any :: arguments, after => by
    obtain ⟨marks, scans⟩ := exists_scansArguments arguments after
    rw [ArgumentReading.texts, ArgumentReading.text]
    exact ⟨_, scansArguments_any scans⟩
  | .bounded bound type :: arguments, after => by
    obtain ⟨c, text, spelled, noMark⟩ := type.text_eq_cons
    obtain ⟨marks, scans⟩ := exists_scansArguments arguments after
    obtain ⟨firstMarks, scansFirst⟩ :=
      type.scans (ArgumentReading.texts arguments ++ '>' :: after)
    rw [ArgumentReading.texts, ArgumentReading.text, List.append_assoc, List.append_assoc]
    rw [spelled, List.cons_append] at scansFirst ⊢
    exact ⟨_, scansArguments_bounded bound
      (fun isMark => noMark (List.mem_append_left _ isMark)) scansFirst scans⟩

end

/-- A type is scanned exactly where the text of a reading stands. -/
theorem exists_scansType_iff {text rest : List Char} :
    (∃ marks, ScansType text marks rest) ↔
      ∃ reading : TypeReading, text = reading.text ++ rest := by
  constructor
  · rintro ⟨marks, progress, scanned⟩
    exact exists_reading_of_scanType text scanned
  · rintro ⟨reading, rfl⟩
    exact reading.scans rest

end JvmDiff.Signature
