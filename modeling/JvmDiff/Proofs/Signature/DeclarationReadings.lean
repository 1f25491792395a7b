import JvmDiff.Proofs.Signature.Declarations
import JvmDiff.Proofs.Signature.Readings
import Mathlib.Data.List.Chain

/-!
# What the scan takes a declaration for

Where a declaration has a type, the scan takes any type, and the name of a type parameter may hold
anything but a colon.  The scan of a declaration succeeds exactly on the text of a reading.
-/

namespace JvmDiff.Signature

/-! ## Type parameters -/

/-- A type parameter as the scan takes it. -/
structure ParameterReading where
  name : List Char
  nonempty : name ≠ []
  noColon : ':' ∉ name
  classBound : Option TypeReading
  isReference : ∀ bound ∈ classBound, bound.kind ≠ .primitive
  interfaceBounds : List TypeReading

namespace ParameterReading

def text (parameter : ParameterReading) : List Char :=
  parameter.name ++ ':' :: (parameter.classBound.elim [] TypeReading.text ++
    parameter.interfaceBounds.flatMap fun bound => ':' :: bound.text)

def IsBare (parameter : ParameterReading) : Prop :=
  parameter.classBound = none ∧ parameter.interfaceBounds = []

/-- A character that can follow a type parameter: behind one without bounds no letter may stand
that begins a bound. -/
def EndsBefore (parameter : ParameterReading) (c : Char) : Prop :=
  c ≠ ':' ∧ (parameter.IsBare → c ∉ ['L', '[', 'T'])

/-- The next type parameter begins like nothing else that could follow. -/
def Precedes (parameter next : ParameterReading) : Prop :=
  ∀ c ∈ next.name.head?, c ≠ '>' ∧ parameter.EndsBefore c

theorem length_text (parameter : ParameterReading) : 0 < parameter.text.length := by
  rw [text, List.length_append, List.length_cons]
  omega

/-- A text that starts with a type parameter starts with its name. -/
theorem head?_of_split (parameter : ParameterReading) {c : Char} {rest behind : List Char}
    (split : c :: rest = parameter.text ++ behind) : parameter.name.head? = some c := by
  obtain ⟨first, name, named⟩ := List.exists_cons_of_ne_nil parameter.nonempty
  rw [text, named] at split
  rw [named, List.head?_cons, (List.cons.inj split).1]

end ParameterReading

/-! ### From the scan to the readings -/

/-- Types after a mark each, as long as it comes again. -/
theorem exists_readings_of_scanMarked (mark : Char) (text : List Char)
    {found : { scanned : List (List Mark) × List Char // scanned.2.length ≤ text.length }}
    (scanned : scanMarked mark text = .ok found) :
    ∃ readings : List TypeReading,
      text = (readings.flatMap fun reading => mark :: reading.text) ++ found.1.2 ∧
        ∃ c others, found.1.2 = c :: others ∧ c ≠ mark := by
  match text, found, scanned with
  | [], _, scanned => simp [scanMarked] at scanned
  | c :: others, _, scanned =>
    rw [scanMarked] at scanned
    split at scanned
    case isTrue isMark =>
      subst isMark
      split at scanned
      case h_1 => cases scanned
      case h_2 type foundType =>
        split at scanned
        case h_1 => cases scanned
        case h_2 more after moreShorter foundMore =>
          cases scanned
          have progress := type.progress
          obtain ⟨reading, typeSplit⟩ := exists_reading_of_scanType others foundType
          obtain ⟨readings, split, ends⟩ := exists_readings_of_scanMarked c type.rest foundMore
          refine ⟨reading :: readings, (congrArg (c :: ·) typeSplit).trans ?_, ends⟩
          rw [List.flatMap_cons, List.append_assoc, ← split]
          rfl
    case isFalse noMark =>
      cases scanned
      exact ⟨[], rfl, c, others, rfl, noMark⟩
termination_by text.length

theorem exists_reading_of_scanClassBound {text : List Char}
    {found : { scanned : Option (List Mark) × List Char // scanned.2.length ≤ text.length }}
    (scanned : scanClassBound text = .ok found) :
    ∃ classBound : Option TypeReading, (∀ type ∈ classBound, type.kind ≠ .primitive) ∧
      text = classBound.elim [] TypeReading.text ++ found.1.2 ∧
        (classBound = none → ∃ c others, found.1.2 = c :: others ∧ c ∉ ['L', '[', 'T']) := by
  cases text with
  | nil => simp [scanClassBound] at scanned
  | cons c others =>
    rw [scanClassBound] at scanned
    split at scanned
    case isTrue begins =>
      split at scanned
      case h_1 => cases scanned
      case h_2 type foundType =>
        cases scanned
        obtain ⟨reading, split⟩ := exists_reading_of_scanType (c :: others) foundType
        refine ⟨some reading, ?_, split, fun missing => by cases missing⟩
        rintro _ ⟨⟩
        cases reading
        case primitive letter known =>
          obtain rfl : c = letter := (List.cons.inj split).1
          rcases begins with rfl | rfl | rfl <;> cases known
        all_goals exact TypeKind.noConfusion
    case isFalse noBound =>
      cases scanned
      exact ⟨.none, fun _ missing => (by cases missing), rfl,
        fun _ => ⟨c, others, rfl, by simpa using noBound⟩⟩

/-- One type parameter at the front of the text, with what is scanned behind it. -/
theorem exists_reading_of_scanFurther {text : List Char} {parameters : List TypeParameter}
    {body : List Char} (scanned : scanTypeParameters text = .ok (parameters, body)) :
    ∃ (reading : ParameterReading) (parameter : TypeParameter) (c : Char) (rest : List Char),
      text = reading.text ++ c :: rest ∧ reading.EndsBefore c ∧
        scanFurther parameter (c :: rest) = .ok (parameters, body) := by
  rw [scanTypeParameters] at scanned
  split at scanned
  case h_1 => cases scanned
  case h_2 => cases scanned
  case h_3 first name after split =>
    obtain ⟨parted, noColon⟩ := splitAtMark_eq_some split
    split at scanned
    case h_1 => cases scanned
    case h_2 foundClass afterClass classShorter scannedClass =>
      obtain ⟨classBound, isReference, classSplit, noBound⟩ :=
        exists_reading_of_scanClassBound scannedClass
      split at scanned
      case h_1 => cases scanned
      case h_2 bounds rest shorter scannedBounds =>
        obtain ⟨interfaceBounds, boundsSplit, c, others, rfl, noMark⟩ :=
          exists_readings_of_scanMarked ':' _ scannedBounds
        dsimp only at classSplit noBound boundsSplit
        refine ⟨⟨first :: name, List.cons_ne_nil _ _, noColon, classBound, isReference,
          interfaceBounds⟩, _, c, others, ?_, ⟨noMark, ?_⟩, scanned⟩
        · simp only [ParameterReading.text, List.append_assoc, List.cons_append]
          rw [← boundsSplit, ← classSplit]
          exact parted
        · rintro ⟨noClass, noInterface⟩
          obtain ⟨other, behind, starts, noLetter⟩ := noBound noClass
          subst noInterface
          rw [boundsSplit] at starts
          obtain rfl : c = other := (List.cons.inj starts).1
          exact noLetter

theorem afterBracket?_eq_some {text rest : List Char} (closed : afterBracket? text = some rest) :
    text = '>' :: rest := by
  rw [afterBracket?.eq_def] at closed
  split at closed
  · cases closed
    rfl
  · cases closed

/-- Type parameters up to the closing bracket. -/
theorem exists_readings_of_scanTypeParameters (text : List Char)
    {parameters : List TypeParameter} {body : List Char}
    (scanned : scanTypeParameters text = .ok (parameters, body)) :
    ∃ first others, List.IsChain ParameterReading.Precedes (first :: others) ∧
      text = (first :: others).flatMap ParameterReading.text ++ '>' :: body := by
  obtain ⟨reading, parameter, c, rest, split, ends, further⟩ :=
    exists_reading_of_scanFurther scanned
  rw [scanFurther] at further
  split at further
  case h_1 after closed =>
    cases further
    refine ⟨reading, [], .singleton _, ?_⟩
    rw [List.flatMap_singleton, ← afterBracket?_eq_some closed]
    exact split
  case h_2 noBracket =>
    split at further
    case h_1 => cases further
    case h_2 more after foundMore =>
      cases further
      have shorter : (c :: rest).length < text.length := by
        rw [split, List.length_append]
        exact Nat.lt_add_of_pos_left reading.length_text
      obtain ⟨next, others, chain, nextSplit⟩ :=
        exists_readings_of_scanTypeParameters (c :: rest) foundMore
      refine ⟨reading, next :: others, .cons_cons ?_ chain, ?_⟩
      · rw [List.flatMap_cons, List.append_assoc] at nextSplit
        intro first starts
        obtain rfl : c = first := by
          rw [next.head?_of_split nextSplit] at starts
          exact Option.some.inj starts
        refine ⟨?_, ends⟩
        rintro rfl
        cases noBracket
      · rw [List.flatMap_cons, List.append_assoc, ← nextSplit]
        exact split
termination_by text.length

/-! ### From the readings to the scan -/

theorem exists_scansBounds (bounds : List TypeReading) {c : Char} (notColon : c ≠ ':')
    (rest : List Char) :
    ∃ types, ScansBounds ((bounds.flatMap fun bound => ':' :: bound.text) ++ c :: rest) types
      (c :: rest) := by
  induction bounds with
  | nil => exact ⟨[], scansBounds_end notColon rest⟩
  | cons bound bounds inductionHypothesis =>
    obtain ⟨types, scans⟩ := inductionHypothesis
    obtain ⟨marks, scansFirst⟩ :=
      bound.scans ((bounds.flatMap fun bound => ':' :: bound.text) ++ c :: rest)
    rw [List.flatMap_cons, List.append_assoc, List.cons_append]
    exact ⟨_, ScansBounds.more scansFirst scans⟩

theorem TypeReading.starts_of_reference {type : TypeReading}
    (isReference : type.kind ≠ .primitive) :
    ∃ c others, type.text = c :: others ∧ (c = 'L' ∨ c = '[' ∨ c = 'T') := by
  match type with
  | .primitive _ _ => exact absurd rfl isReference
  | .variable _ _ => exact ⟨'T', _, by rw [TypeReading.text], .inr (.inr rfl)⟩
  | .array _ => exact ⟨'[', _, by rw [TypeReading.text], .inr (.inl rfl)⟩
  | .ofClass _ _ => exact ⟨'L', _, by rw [TypeReading.text], .inl rfl⟩

theorem exists_scanClassBound {classBound : Option TypeReading}
    (isReference : ∀ type ∈ classBound, type.kind ≠ .primitive) {text : List Char}
    (noLetter : classBound = none → ∃ c rest, text = c :: rest ∧ c ∉ ['L', '[', 'T']) :
    ∃ found shorter, scanClassBound (classBound.elim [] TypeReading.text ++ text) =
      .ok ⟨(found, text), shorter⟩ := by
  cases classBound with
  | none =>
    obtain ⟨c, rest, rfl, noLetter⟩ := noLetter rfl
    refine ⟨none, Nat.le_refl _, ?_⟩
    change scanClassBound (c :: rest) = _
    rw [scanClassBound]
    exact if_neg (by simpa using noLetter)
  | some bound =>
    obtain ⟨c, others, spelled, starts⟩ := TypeReading.starts_of_reference (isReference bound rfl)
    obtain ⟨marks, scans⟩ := bound.scans text
    simp only [Option.elim_some]
    rw [spelled, List.cons_append] at scans ⊢
    obtain ⟨progress, scanned⟩ := scans
    refine ⟨some marks, Nat.le_of_lt progress, ?_⟩
    rw [scanClassBound]
    simp only [starts, if_true, scanned]

/-- The scan of the first type parameter, up to a character that can follow it. -/
theorem ParameterReading.scanTypeParameters_text (reading : ParameterReading) {c : Char}
    (ends : reading.EndsBefore c) (rest : List Char) :
    ∃ parameter, scanTypeParameters (reading.text ++ c :: rest) =
      scanFurther parameter (c :: rest) := by
  obtain ⟨noColon, noLetter⟩ := ends
  have noBound : reading.classBound = none → ∃ d others,
      (reading.interfaceBounds.flatMap fun bound => ':' :: bound.text) ++ c :: rest =
        d :: others ∧ d ∉ ['L', '[', 'T'] := by
    intro noClass
    cases bounds : reading.interfaceBounds with
    | nil => exact ⟨c, rest, rfl, noLetter ⟨noClass, bounds⟩⟩
    | cons bound bounds => exact ⟨':', _, rfl, by decide⟩
  obtain ⟨foundClass, classShorter, classScanned⟩ :=
    exists_scanClassBound reading.isReference noBound
  obtain ⟨types, shorter, scanned⟩ := exists_scansBounds reading.interfaceBounds noColon rest
  have known := splitAtMark_append reading.noColon
    (reading.classBound.elim [] TypeReading.text ++
      ((reading.interfaceBounds.flatMap fun bound => ':' :: bound.text) ++ c :: rest))
  refine ⟨⟨String.ofList reading.name, foundClass, types⟩, ?_⟩
  rw [ParameterReading.text, List.append_assoc, List.cons_append, List.append_assoc,
    scanTypeParameters]
  split
  case h_1 missing =>
    rw [known] at missing
    cases missing
  case h_2 after found =>
    rw [known] at found
    exact absurd (congrArg Prod.fst (Option.some.inj found)) reading.nonempty
  case h_3 d others after found =>
    rw [known] at found
    injection found with found
    injection found with foundName foundAfter
    subst foundAfter
    simp only [classScanned, scanned, ← foundName]
    rfl

/-- Type parameters that can stand one after another, up to the closing bracket. -/
theorem exists_scanTypeParameters (first : ParameterReading) (others : List ParameterReading)
    (chain : List.IsChain ParameterReading.Precedes (first :: others)) (body : List Char) :
    ∃ parameters, scanTypeParameters
      ((first :: others).flatMap ParameterReading.text ++ '>' :: body) =
        .ok (parameters, body) := by
  induction others generalizing first with
  | nil =>
    have ends : first.EndsBefore '>' := ⟨by decide, fun _ => by decide⟩
    obtain ⟨parameter, scanned⟩ := first.scanTypeParameters_text ends body
    rw [List.flatMap_singleton, scanned]
    exact ⟨_, rfl⟩
  | cons next others inductionHypothesis =>
    cases chain with
    | cons_cons precedes chain =>
    obtain ⟨c, name, named⟩ := List.exists_cons_of_ne_nil next.nonempty
    obtain ⟨noBracket, ends⟩ := precedes c (by rw [named]; rfl)
    obtain ⟨parameters, more⟩ := inductionHypothesis next chain
    obtain ⟨text, spelled⟩ : ∃ text,
        (next :: others).flatMap ParameterReading.text ++ '>' :: body = c :: text := by
      rw [List.flatMap_cons, ParameterReading.text, named]
      exact ⟨_, rfl⟩
    obtain ⟨parameter, scanned⟩ := first.scanTypeParameters_text ends text
    rw [spelled] at more
    have goesOn : afterBracket? (c :: text) = none := by
      rw [afterBracket?]
      rintro rest equal
      cases equal
      exact noBracket rfl
    rw [List.flatMap_cons, List.append_assoc, spelled, scanned, scanFurther, goesOn, more]
    exact ⟨_, rfl⟩

/-! ## The types of a body -/

inductive BodyReading where
  | ofClass (superclass : TypeReading) (interfaces : List TypeReading)
  | ofMethod (arguments : List TypeReading) (result : TypeReading) (exceptions : List TypeReading)

def BodyReading.text : BodyReading → List Char
  | .ofClass superclass interfaces => superclass.text ++ interfaces.flatMap TypeReading.text
  | .ofMethod arguments result exceptions =>
      '(' :: (arguments.flatMap TypeReading.text ++
        ')' :: (result.text ++ exceptions.flatMap fun type => '^' :: type.text))

theorem exists_readings_of_scanParameters (text : List Char) {types : List (List Mark)}
    {after : List Char} (scanned : scanParameters text = .ok (types, after)) :
    ∃ readings : List TypeReading, text = readings.flatMap TypeReading.text ++ ')' :: after := by
  rw [scanParameters.eq_def] at scanned
  split at scanned
  case h_1 => cases scanned
  case h_2 rest =>
    cases scanned
    exact ⟨[], rfl⟩
  case h_3 c rest _ =>
    split at scanned
    case h_1 => cases scanned
    case h_2 type foundType =>
      split at scanned
      case h_1 => cases scanned
      case h_2 more others foundMore =>
        cases scanned
        have progress := type.progress
        obtain ⟨reading, typeSplit⟩ := exists_reading_of_scanType (c :: rest) foundType
        obtain ⟨readings, split⟩ := exists_readings_of_scanParameters type.rest foundMore
        refine ⟨reading :: readings, ?_⟩
        rw [List.flatMap_cons, List.append_assoc, ← split]
        exact typeSplit
termination_by text.length

theorem exists_scanParameters (readings : List TypeReading) (after : List Char) :
    ∃ types, scanParameters (readings.flatMap TypeReading.text ++ ')' :: after) =
      .ok (types, after) := by
  induction readings with
  | nil =>
    refine ⟨[], ?_⟩
    change scanParameters (')' :: after) = _
    rw [scanParameters]
  | cons reading readings inductionHypothesis =>
    obtain ⟨types, more⟩ := inductionHypothesis
    obtain ⟨c, others, spelled, noMark⟩ := reading.text_eq_cons
    obtain ⟨marks, scans⟩ := reading.scans (readings.flatMap TypeReading.text ++ ')' :: after)
    rw [List.flatMap_cons, List.append_assoc]
    rw [spelled, List.cons_append] at scans ⊢
    obtain ⟨progress, scanned⟩ := scans
    refine ⟨marks :: types, ?_⟩
    rw [scanParameters]
    · simp only [scanned, more]
    · rintro rfl
      exact noMark (by decide)

theorem exists_readings_of_scanExceptions (text : List Char) {types : List (List Mark)}
    (scanned : scanExceptions text = .ok types) :
    ∃ readings : List TypeReading,
      text = readings.flatMap fun reading => '^' :: reading.text := by
  match text with
  | [] => exact ⟨[], rfl⟩
  | c :: rest =>
    rw [scanExceptions] at scanned
    split at scanned
    case isTrue isMark =>
      subst isMark
      split at scanned
      case h_1 => cases scanned
      case h_2 type foundType =>
        split at scanned
        case h_1 => cases scanned
        case h_2 more foundMore =>
          have progress := type.progress
          obtain ⟨reading, typeSplit⟩ := exists_reading_of_scanType rest foundType
          obtain ⟨readings, split⟩ := exists_readings_of_scanExceptions type.rest foundMore
          refine ⟨reading :: readings, ?_⟩
          rw [List.flatMap_cons, ← split]
          exact congrArg ('^' :: ·) typeSplit
    case isFalse => cases scanned
termination_by text.length

theorem exists_scanExceptions (readings : List TypeReading) :
    ∃ types, scanExceptions (readings.flatMap fun reading => '^' :: reading.text) = .ok types := by
  induction readings with
  | nil => exact ⟨[], by rw [List.flatMap_nil, scanExceptions]⟩
  | cons reading readings inductionHypothesis =>
    obtain ⟨types, more⟩ := inductionHypothesis
    obtain ⟨marks, progress, scanned⟩ :=
      reading.scans (readings.flatMap fun reading => '^' :: reading.text)
    refine ⟨marks :: types, ?_⟩
    rw [List.flatMap_cons, List.cons_append, scanExceptions]
    simp only [if_true, scanned, more]

theorem exists_readings_of_scanTypes (text : List Char) {types : List (List Mark)}
    (scanned : scanTypes text = .ok types) :
    ∃ readings : List TypeReading, text = readings.flatMap TypeReading.text := by
  match text with
  | [] => exact ⟨[], rfl⟩
  | c :: rest =>
    rw [scanTypes] at scanned
    split at scanned
    case h_1 => cases scanned
    case h_2 type foundType =>
      split at scanned
      case h_1 => cases scanned
      case h_2 more foundMore =>
        have progress := type.progress
        obtain ⟨reading, typeSplit⟩ := exists_reading_of_scanType (c :: rest) foundType
        obtain ⟨readings, split⟩ := exists_readings_of_scanTypes type.rest foundMore
        refine ⟨reading :: readings, ?_⟩
        rw [List.flatMap_cons, ← split]
        exact typeSplit
termination_by text.length
decreasing_by exact progress

theorem exists_scanTypes (readings : List TypeReading) :
    ∃ types, scanTypes (readings.flatMap TypeReading.text) = .ok types := by
  induction readings with
  | nil => exact ⟨[], by rw [List.flatMap_nil, scanTypes]⟩
  | cons reading readings inductionHypothesis =>
    obtain ⟨types, more⟩ := inductionHypothesis
    obtain ⟨c, others, spelled, -⟩ := reading.text_eq_cons
    obtain ⟨marks, scans⟩ := reading.scans (readings.flatMap TypeReading.text)
    rw [List.flatMap_cons]
    rw [spelled, List.cons_append] at scans ⊢
    obtain ⟨progress, scanned⟩ := scans
    refine ⟨marks :: types, ?_⟩
    rw [scanTypes]
    simp only [scanned, more]

/-- Steps one after another succeed where each does. -/
theorem bind_eq_ok {ε α β : Type} {first : Except ε α} {next : α → Except ε β} {result : β} :
    (first >>= next) = .ok result ↔ ∃ found, first = .ok found ∧ next found = .ok result := by
  cases first with
  | error fault =>
    constructor
    · intro done
      cases done
    · rintro ⟨_, failed, _⟩
      cases failed
  | ok found =>
    constructor
    · intro done
      exact ⟨found, rfl, done⟩
    · rintro ⟨_, same, done⟩
      cases same
      exact done

theorem exists_reading_of_scanBody {text : List Char} {body : Body}
    (scanned : scanBody text = .ok body) : ∃ reading : BodyReading, text = reading.text := by
  rw [scanBody.eq_def] at scanned
  split at scanned
  case h_1 => cases scanned
  case h_2 rest =>
    obtain ⟨⟨types, afterArguments⟩, scannedArguments, scanned⟩ := bind_eq_ok.mp scanned
    obtain ⟨type, scannedType, scanned⟩ := bind_eq_ok.mp scanned
    obtain ⟨thrown, scannedThrown, -⟩ := bind_eq_ok.mp scanned
    obtain ⟨arguments, split⟩ := exists_readings_of_scanParameters rest scannedArguments
    obtain ⟨result, resultSplit⟩ := exists_reading_of_scanType afterArguments scannedType
    obtain ⟨exceptions, thrownSplit⟩ := exists_readings_of_scanExceptions type.rest scannedThrown
    refine ⟨.ofMethod arguments result exceptions, ?_⟩
    rw [BodyReading.text, ← thrownSplit, ← resultSplit, ← split]
  case h_3 =>
    obtain ⟨type, scannedType, scanned⟩ := bind_eq_ok.mp scanned
    obtain ⟨types, scannedTypes, -⟩ := bind_eq_ok.mp scanned
    obtain ⟨superclass, split⟩ := exists_reading_of_scanType text scannedType
    obtain ⟨interfaces, typesSplit⟩ := exists_readings_of_scanTypes type.rest scannedTypes
    refine ⟨.ofClass superclass interfaces, ?_⟩
    rw [BodyReading.text, ← typesSplit]
    exact split

theorem BodyReading.exists_scanBody (reading : BodyReading) :
    ∃ body, scanBody reading.text = .ok body := by
  cases reading with
  | ofClass superclass interfaces =>
    obtain ⟨types, scannedTypes⟩ := exists_scanTypes interfaces
    obtain ⟨c, others, spelled, noMark⟩ := superclass.text_eq_cons
    obtain ⟨marks, scans⟩ := superclass.scans (interfaces.flatMap TypeReading.text)
    rw [BodyReading.text]
    rw [spelled, List.cons_append] at scans ⊢
    obtain ⟨progress, scanned⟩ := scans
    refine ⟨.ofClass marks types, ?_⟩
    rw [scanBody, bind_eq_ok]
    · exact ⟨_, scanned, bind_eq_ok.mpr ⟨types, scannedTypes, rfl⟩⟩
    · simp
    · rintro rest equal
      cases equal
      exact noMark (by decide)
  | ofMethod arguments result exceptions =>
    obtain ⟨types, scannedArguments⟩ := exists_scanParameters arguments
      (result.text ++ exceptions.flatMap fun type => '^' :: type.text)
    obtain ⟨thrown, scannedThrown⟩ := exists_scanExceptions exceptions
    obtain ⟨marks, progress, scanned⟩ :=
      result.scans (exceptions.flatMap fun type => '^' :: type.text)
    refine ⟨.ofMethod types marks thrown, ?_⟩
    rw [BodyReading.text, scanBody, bind_eq_ok]
    exact ⟨_, scannedArguments, bind_eq_ok.mpr ⟨_, scanned,
      bind_eq_ok.mpr ⟨_, scannedThrown, rfl⟩⟩⟩

/-! ## Declarations -/

/-- A declaration as the scan takes it. -/
structure DeclarationReading where
  parameters : List ParameterReading
  chain : List.IsChain ParameterReading.Precedes parameters
  body : BodyReading

namespace DeclarationReading

def text (declared : DeclarationReading) : List Char :=
  inBrackets (declared.parameters.flatMap ParameterReading.text) ++ declared.body.text

end DeclarationReading

theorem BodyReading.text_eq_cons (reading : BodyReading) :
    ∃ c others, reading.text = c :: others ∧ c ≠ '<' := by
  cases reading with
  | ofClass superclass interfaces =>
    obtain ⟨c, others, spelled, noMark⟩ := superclass.text_eq_cons
    refine ⟨c, _, by rw [BodyReading.text, spelled, List.cons_append], ?_⟩
    rintro rfl
    exact noMark (by decide)
  | ofMethod arguments result exceptions => exact ⟨'(', _, rfl, by decide⟩

/-- Type parameters in brackets, with the body behind them. -/
theorem formals_append (first : ParameterReading) (others : List ParameterReading)
    (body : List Char) :
    inBrackets ((first :: others).flatMap ParameterReading.text) ++ body =
      '<' :: ((first :: others).flatMap ParameterReading.text ++ '>' :: body) := by
  have nonempty : (first :: others).flatMap ParameterReading.text ≠ [] := by
    rw [List.flatMap_cons, ParameterReading.text]
    simp
  rw [inBrackets, if_neg nonempty]
  simp

/-- A declaration is scanned exactly where the text is that of a reading. -/
theorem exists_scanDeclaration_iff {text : List Char} :
    (∃ declaration, scanDeclaration text = .ok declaration) ↔
      ∃ reading : DeclarationReading, text = reading.text := by
  constructor
  · rintro ⟨declaration, scanned⟩
    rw [scanDeclaration.eq_def] at scanned
    split at scanned
    case h_1 => cases scanned
    case h_2 rest =>
      obtain ⟨⟨parameters, afterParameters⟩, scannedParameters, scanned⟩ := bind_eq_ok.mp scanned
      obtain ⟨body, scannedBody, -⟩ := bind_eq_ok.mp scanned
      obtain ⟨first, others, chain, split⟩ :=
        exists_readings_of_scanTypeParameters rest scannedParameters
      obtain ⟨reading, bodySplit⟩ := exists_reading_of_scanBody scannedBody
      refine ⟨⟨first :: others, chain, reading⟩, ?_⟩
      rw [DeclarationReading.text, formals_append, ← bodySplit, ← split]
    case h_3 =>
      obtain ⟨body, scannedBody, -⟩ := bind_eq_ok.mp scanned
      obtain ⟨reading, split⟩ := exists_reading_of_scanBody scannedBody
      exact ⟨⟨[], .nil, reading⟩, split⟩
  · rintro ⟨⟨parameters, chain, body⟩, rfl⟩
    obtain ⟨found, scannedBody⟩ := body.exists_scanBody
    cases parameters with
    | nil =>
      obtain ⟨c, others, spelled, noBracket⟩ := body.text_eq_cons
      change ∃ declaration, scanDeclaration body.text = .ok declaration
      rw [spelled] at scannedBody ⊢
      refine ⟨⟨[], found⟩, ?_⟩
      rw [scanDeclaration, bind_eq_ok]
      · exact ⟨found, scannedBody, rfl⟩
      · simp
      · rintro rest equal
        exact noBracket (List.cons.inj equal).1
    | cons first others =>
      obtain ⟨parameters, scannedParameters⟩ :=
        exists_scanTypeParameters first others chain body.text
      refine ⟨⟨parameters, found⟩, ?_⟩
      rw [DeclarationReading.text, formals_append, scanDeclaration, bind_eq_ok]
      exact ⟨_, scannedParameters, bind_eq_ok.mpr ⟨found, scannedBody, rfl⟩⟩

end JvmDiff.Signature
