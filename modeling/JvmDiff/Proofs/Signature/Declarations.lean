import JvmDiff.Proofs.Signature.Scanning

/-!
# Scanning what a declaration spells

The declaration that a heading stands for is listed from its tree; scanning the signature of the
heading finds this declaration.
-/

namespace JvmDiff.Signature

/-! ## The declaration of a heading -/

/-- The type parameter with the marks of its bounds. -/
def FormalParameter.scanned (parameter : FormalParameter) : TypeParameter where
  name := String.ofList parameter.name.chars
  classBound := parameter.classBound.map fun bound => bound.toReference.marks
  interfaceBounds := parameter.interfaceBounds.map fun bound => bound.toReference.marks

def ClassSyntax.declaration (declared : ClassSyntax) : Declaration where
  typeParameters := declared.parameters.map FormalParameter.scanned
  body := .ofClass declared.superclass.marks (declared.interfaces.map ClassType.marks)

def MethodSyntax.declaration (declared : MethodSyntax) : Declaration where
  typeParameters := declared.parameters.map FormalParameter.scanned
  body :=
    .ofMethod (declared.arguments.map JavaType.marks)
      (declared.result.elim [.primitive 'V'] JavaType.marks)
      (declared.exceptions.map fun type => type.toReference.marks)

/-! ## Type parameters -/

/-- Scanning bounds after their colons finds their marks and leaves the rest. -/
def ScansBounds (text : List Char) (types : List (List Mark)) (rest : List Char) : Prop :=
  ∃ shorter, scanMarked ':' text = .ok ⟨(types, rest), shorter⟩

theorem scansBounds_end {c : Char} (notColon : c ≠ ':') (rest : List Char) :
    ScansBounds (c :: rest) [] (c :: rest) := by
  refine ⟨Nat.le_refl _, ?_⟩
  rw [scanMarked]
  simp only [notColon, if_false]

theorem ScansBounds.more {text after rest : List Char} {marks : List Mark}
    {types : List (List Mark)} (scansFirst : ScansType text marks after)
    (scans : ScansBounds after types rest) : ScansBounds (':' :: text) (marks :: types) rest := by
  obtain ⟨progress, firstScanned⟩ := scansFirst
  obtain ⟨shorter, scanned⟩ := scans
  refine ⟨Nat.le_succ_of_le (Nat.le_trans shorter (Nat.le_of_lt progress)), ?_⟩
  rw [scanMarked]
  simp only [if_true, firstScanned, scanned]

/-- Bounds end before a character that is no colon. -/
theorem scansBounds (bounds : List NamedType) {c : Char} (notColon : c ≠ ':')
    (rest : List Char) :
    ScansBounds ((bounds.flatMap fun bound => ':' :: bound.toReference.text) ++ c :: rest)
      (bounds.map fun bound => bound.toReference.marks) (c :: rest) := by
  induction bounds with
  | nil => exact scansBounds_end notColon rest
  | cons bound bounds inductionHypothesis =>
    rw [List.flatMap_cons, List.append_assoc, List.cons_append, List.map_cons]
    exact ScansBounds.more (bound.toReference.scans _) inductionHypothesis

/-- A bound by a class is scanned if it is there, else the text stays. -/
theorem scanClassBound_bound (classBound : Option NamedType) {text : List Char}
    (colonNext : classBound = none → ∃ rest, text = ':' :: rest) :
    ∃ shorter, scanClassBound
        ((classBound.elim [] fun bound => bound.toReference.text) ++ text) =
      .ok ⟨(classBound.map fun bound => bound.toReference.marks, text), shorter⟩ := by
  cases classBound with
  | none =>
    obtain ⟨rest, rfl⟩ := colonNext rfl
    exact ⟨Nat.le_refl _, rfl⟩
  | some bound =>
    obtain ⟨c, first, spelled, starts⟩ := bound.toReference.text_eq_cons
    have startsType : c = 'L' ∨ c = '[' ∨ c = 'T' := by
      rcases starts with rfl | rfl | rfl <;> decide
    have scans := bound.toReference.scans text
    simp only [Option.elim_some, Option.map_some]
    rw [spelled, List.cons_append] at scans ⊢
    obtain ⟨progress, scanned⟩ := scans
    refine ⟨Nat.le_of_lt progress, ?_⟩
    rw [scanClassBound]
    simp only [startsType, if_true, scanned]

/-- A type parameter and those in the text after it, up to the bracket that ends
them. -/
def scanFurther (parameter : TypeParameter) (text : List Char) :
    Except Fault (List TypeParameter × List Char) :=
  match afterBracket? text with
  | some body => .ok ([parameter], body)
  | none =>
      match scanTypeParameters text with
      | .error fault => .error fault
      | .ok (parameters, body) => .ok (parameter :: parameters, body)

theorem FormalParameter.scanTypeParameters_text (parameter : FormalParameter) {c : Char}
    (notColon : c ≠ ':') (rest : List Char) :
    scanTypeParameters (parameter.text ++ c :: rest) =
      scanFurther parameter.scanned (c :: rest) := by
  obtain ⟨first, name, named⟩ := List.exists_cons_of_ne_nil parameter.name.nonempty
  have colonNext : parameter.classBound = none →
      ∃ rest', (parameter.interfaceBounds.flatMap fun bound => ':' :: bound.toReference.text) ++
        c :: rest = ':' :: rest' := by
    intro noClass
    rcases parameter.bounded with isSome | someInterface
    · rw [noClass] at isSome
      cases isSome
    · obtain ⟨bound, bounds, equal⟩ := List.exists_cons_of_ne_nil someInterface
      exact ⟨_, by rw [equal, List.flatMap_cons]; rfl⟩
  obtain ⟨classShorter, classScanned⟩ := scanClassBound_bound parameter.classBound colonNext
  obtain ⟨shorter, scanned⟩ := scansBounds parameter.interfaceBounds notColon rest
  have known := splitAtMark_append (parameter.name.not_mem ':' (by decide))
    ((parameter.classBound.elim [] fun bound => bound.toReference.text) ++
      ((parameter.interfaceBounds.flatMap fun bound => ':' :: bound.toReference.text) ++
        c :: rest))
  rw [FormalParameter.text, List.append_assoc, List.cons_append, List.append_assoc,
    scanTypeParameters]
  split
  case h_1 missing =>
    rw [known] at missing
    cases missing
  case h_2 after found =>
    rw [known, named] at found
    cases found
  case h_3 d others after found =>
    rw [known] at found
    injection found with found
    injection found with foundName foundAfter
    subst foundAfter
    simp only [classScanned, scanned, FormalParameter.scanned, ← foundName]
    rfl

theorem scanTypeParameters_formals (parameter : FormalParameter)
    (parameters : List FormalParameter) (rest : List Char) :
    scanTypeParameters ((parameter :: parameters).flatMap FormalParameter.text ++ '>' :: rest) =
      .ok ((parameter :: parameters).map FormalParameter.scanned, rest) := by
  induction parameters generalizing parameter with
  | nil =>
    rw [List.flatMap_cons, List.flatMap_nil, List.append_nil,
      parameter.scanTypeParameters_text (by decide)]
    rfl
  | cons next parameters inductionHypothesis =>
    obtain ⟨c, name, named⟩ := List.exists_cons_of_ne_nil next.name.nonempty
    have plain := next.name.plain c (by rw [named]; exact List.mem_cons_self)
    have notColon : c ≠ ':' := by
      rintro rfl
      exact plain (by decide)
    have notBracket : c ≠ '>' := by
      rintro rfl
      exact plain (by decide)
    have more := inductionHypothesis next
    obtain ⟨text, spelled⟩ : ∃ text,
        (next :: parameters).flatMap FormalParameter.text ++ '>' :: rest = c :: text := by
      rw [List.flatMap_cons, FormalParameter.text, named]
      exact ⟨_, rfl⟩
    rw [spelled] at more
    rw [List.flatMap_cons, List.append_assoc, spelled,
      parameter.scanTypeParameters_text notColon, scanFurther, more]
    have noBracket : afterBracket? (c :: text) = none := by
      rw [afterBracket?]
      rintro rest equal
      cases equal
      exact notBracket rfl
    rw [noBracket]
    rfl

/-! ## The types of a body -/

theorem JavaType.text_eq_cons (type : JavaType) :
    ∃ c text, type.text = c :: text ∧ c ≠ ')' := by
  match type with
  | .base type =>
    refine ⟨type.letter, [], by rw [JavaType.text], ?_⟩
    cases type <;> decide
  | .reference type =>
    obtain ⟨c, text, spelled, first⟩ := type.text_eq_cons
    refine ⟨c, text, by rw [JavaType.text, spelled], ?_⟩
    rcases first with rfl | rfl | rfl <;> decide

theorem scanParameters_arguments (arguments : List JavaType) (rest : List Char) :
    scanParameters (arguments.flatMap JavaType.text ++ ')' :: rest) =
      .ok (arguments.map JavaType.marks, rest) := by
  induction arguments with
  | nil =>
    change scanParameters (')' :: rest) = _
    rw [scanParameters]
    rfl
  | cons type arguments inductionHypothesis =>
    obtain ⟨c, text, spelled, notClosing⟩ := type.text_eq_cons
    have scans := type.scans (arguments.flatMap JavaType.text ++ ')' :: rest)
    rw [List.flatMap_cons, List.append_assoc]
    rw [spelled, List.cons_append] at scans ⊢
    obtain ⟨progress, scanned⟩ := scans
    rw [scanParameters]
    · simp only [scanned, inductionHypothesis, List.map_cons]
    · exact notClosing

theorem scanExceptions_types (types : List NamedType) :
    scanExceptions (types.flatMap fun type => '^' :: type.toReference.text) =
      .ok (types.map fun type => type.toReference.marks) := by
  induction types with
  | nil =>
    rw [List.flatMap_nil, scanExceptions]
    rfl
  | cons type types inductionHypothesis =>
    obtain ⟨progress, scanned⟩ := type.toReference.scans
      (types.flatMap fun type => '^' :: type.toReference.text)
    rw [List.flatMap_cons, List.cons_append, scanExceptions]
    simp only [if_true, scanned, inductionHypothesis, List.map_cons]

theorem ClassType.text_eq_cons (type : ClassType) : ∃ text, type.text = 'L' :: text := by
  obtain ⟨package, ⟨name, arguments⟩, members⟩ := type
  exact ⟨_, by rw [ClassType.text]⟩

theorem scanTypes_classes (types : List ClassType) :
    scanTypes (types.flatMap ClassType.text) = .ok (types.map ClassType.marks) := by
  induction types with
  | nil =>
    rw [List.flatMap_nil, scanTypes]
    rfl
  | cons type types inductionHypothesis =>
    obtain ⟨text, spelled⟩ := type.text_eq_cons
    have scans := type.scans (types.flatMap ClassType.text)
    rw [List.flatMap_cons]
    rw [spelled, List.cons_append] at scans ⊢
    obtain ⟨progress, scanned⟩ := scans
    rw [scanTypes]
    simp only [scanned, inductionHypothesis, List.map_cons]

/-- A result is scanned like a type; the letter for none stands for itself. -/
theorem scansType_result (result : Option JavaType) (rest : List Char) :
    ScansType (result.elim ['V'] JavaType.text ++ rest)
      (result.elim [.primitive 'V'] JavaType.marks) rest := by
  cases result with
  | none =>
    refine ⟨Nat.lt_succ_self _, ?_⟩
    change scanType ('V' :: rest) = _
    rw [scanType]
    rfl
  | some type => exact type.scans rest

/-! ## Signatures -/

/-- Type parameters, if there are any, come before the body. -/
theorem scanDeclaration_formals (parameters : List FormalParameter) {text : List Char}
    {body : Body} (scanned : scanBody text = .ok body) (notBracket : text.head? ≠ some '<') :
    scanDeclaration (formalsText parameters ++ text) =
      .ok ⟨parameters.map FormalParameter.scanned, body⟩ := by
  cases parameters with
  | nil =>
    change scanDeclaration text = _
    cases text with
    | nil => cases scanned
    | cons c rest =>
      rw [scanDeclaration]
      · rw [scanned]
        rfl
      · simp
      · rintro rest equal
        cases equal
        exact notBracket rfl
  | cons parameter parameters =>
    have nonempty : ((parameter :: parameters).flatMap FormalParameter.text) ≠ [] := by
      rw [List.flatMap_cons, FormalParameter.text]
      simp
    rw [formalsText, inBrackets, if_neg nonempty, List.cons_append, List.append_assoc,
      scanDeclaration, List.singleton_append, scanTypeParameters_formals]
    change (do
      let body ← scanBody text
      return Declaration.mk _ body) = _
    rw [scanned]
    rfl

theorem ClassSyntax.scanDeclaration_signature (declared : ClassSyntax) :
    scanDeclaration declared.signature.toList = .ok declared.declaration := by
  obtain ⟨parameters, superclass, interfaces, rootIsBare⟩ := declared
  obtain ⟨text, spelled⟩ := superclass.text_eq_cons
  have scans := superclass.scans (interfaces.flatMap ClassType.text)
  rw [ClassSyntax.signature, String.toList_ofList, List.append_assoc]
  refine scanDeclaration_formals parameters ?_ (by dsimp only; rw [spelled]; simp)
  dsimp only
  rw [spelled, List.cons_append] at scans ⊢
  obtain ⟨progress, scanned⟩ := scans
  rw [scanBody, scanned]
  · change (do
      let interfaces ← scanTypes (interfaces.flatMap ClassType.text)
      return Body.ofClass superclass.marks interfaces) = _
    rw [scanTypes_classes]
    rfl
  · simp
  · simp

theorem MethodSyntax.scanDeclaration_signature (declared : MethodSyntax) :
    scanDeclaration declared.signature.toList = .ok declared.declaration := by
  obtain ⟨parameters, arguments, result, exceptions⟩ := declared
  obtain ⟨progress, scanned⟩ := scansType_result result
    (exceptions.flatMap fun (type : NamedType) => '^' :: type.toReference.text)
  rw [MethodSyntax.signature, String.toList_ofList]
  refine scanDeclaration_formals parameters ?_ (by simp)
  rw [scanBody, scanParameters_arguments]
  change (do
    let result ← scanType (result.elim ['V'] JavaType.text ++
      exceptions.flatMap fun (type : NamedType) => '^' :: type.toReference.text)
    let exceptions ← scanExceptions result.rest
    return Body.ofMethod (arguments.map JavaType.marks) result.marks exceptions) = _
  rw [scanned]
  change (do
    let exceptions ← scanExceptions
      (exceptions.flatMap fun (type : NamedType) => '^' :: type.toReference.text)
    return Body.ofMethod (arguments.map JavaType.marks)
      (result.elim [.primitive 'V'] JavaType.marks) exceptions) = _
  rw [scanExceptions_types]
  rfl

end JvmDiff.Signature
