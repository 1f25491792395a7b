import JvmDiff.Proofs.Signature.DecoderCourse
import JvmDiff.Proofs.Signature.Written

/-!
# The course of a declaration

The walks through the signature of a class or a method have the outcome of their decoders, like
those through a single type.
-/

namespace JvmDiff.Signature

open Walk

variable {text : String} {steps : Nat}

/-! ## Type parameters -/

/-- The same value, up to the same place. -/
def SamePart {α : Type} {start : List Char} (text : String) (found : α × Nat)
    (scanned : { scanned : α × List Char // scanned.2.length ≤ start.length }) : Prop :=
  found.1 = scanned.val.1 ∧ AtRest text found.2 scanned.val.2

/-- The bounds of a type parameter are never the last of the text. -/
theorem interfaceBounds_follows {rest : List Char} (place : Place text rest)
    (enough : 2 * byteLength rest < steps) :
    Follows text (fun found scanned => SamePart text found scanned ∧ scanned.val.2 ≠ [])
      (interfaceBounds text steps place.offset) (scanMarked ':' rest) := by
  induction steps generalizing rest with
  | zero => exact absurd enough (Nat.not_lt_zero _)
  | succ steps inductionHypothesis =>
    cases rest with
    | nil =>
      rw [interfaceBounds, place.peek_nil, scanMarked]
      exact .fault place _
    | cons c rest =>
      rw [interfaceBounds, place.peek_cons, pure_bind, scanMarked]
      simp only [asChar_firstByte_eq_iff (show ':'.toNat < 128 by decide)]
      by_cases colon : c = ':'
      · subst colon
        have size : 2 * (1 + byteLength rest) < steps + 1 := enough
        rw [if_pos rfl, if_pos rfl, ← place.offset_next_ascii (by decide)]
        refine ((typesFollow text steps).type place.next (by omega)).bind ?_
        rintro ⟨marks, next⟩ first scanned ⟨rfl, behind, rfl⟩
        rw [scanned]
        dsimp only
        have fits := place.next.byteLength_lt behind first.progress
        refine (inductionHypothesis behind (by omega)).bind ?_
        rintro ⟨bounds, stop⟩ ⟨⟨more, after⟩, shorter⟩ scannedMore ⟨⟨rfl, atRest⟩, goesOn⟩
        rw [scannedMore]
        exact .found ⟨⟨rfl, atRest⟩, goesOn⟩
      · rw [if_neg colon, if_neg colon]
        exact .found ⟨⟨rfl, place, rfl⟩, List.cons_ne_nil c rest⟩

theorem classBound_follows {rest : List Char} (place : Place text rest)
    (enough : 2 * byteLength rest < steps) :
    Follows text (SamePart text) (classBound text steps place.offset) (scanClassBound rest) := by
  cases rest with
  | nil =>
    rw [classBound, place.peek_nil, scanClassBound]
    exact .fault place _
  | cons c rest =>
    rw [classBound, place.peek_cons, pure_bind, scanClassBound]
    simp only [asChar_firstByte_eq_iff (show 'L'.toNat < 128 by decide),
      asChar_firstByte_eq_iff (show '['.toNat < 128 by decide),
      asChar_firstByte_eq_iff (show 'T'.toNat < 128 by decide)]
    by_cases begins : c = 'L' ∨ c = '[' ∨ c = 'T'
    · rw [if_pos begins, if_pos begins]
      refine ((typesFollow text steps).type place enough).bind ?_
      rintro ⟨marks, stop⟩ bound scanned ⟨rfl, atRest⟩
      rw [scanned]
      exact .found ⟨rfl, atRest⟩
    · rw [if_neg begins, if_neg begins]
      exact .found ⟨rfl, place, rfl⟩

theorem typeParameters_follows {rest : List Char} (place : Place text rest)
    (enough : 2 * byteLength rest < steps) :
    Follows text (ClosedBy text) (typeParameters text steps place.offset)
      (scanTypeParameters rest) := by
  induction steps generalizing rest with
  | zero => exact absurd enough (Nat.not_lt_zero _)
  | succ steps inductionHypothesis =>
    rw [typeParameters, scanTypeParameters]
    split
    case h_1 missing =>
      rw [place.find_missing (by decide) missing]
      exact .fault place _
    case h_2 after found =>
      have short : place.offset + byteLength [] = place.offset := rfl
      rw [place.find_found (by decide) found, pure_bind, if_pos short]
      exact .fault place _
    case h_3 c name after found =>
      rw [place.find_found (by decide) found, pure_bind]
      obtain ⟨rfl, _⟩ := splitAtMark_eq_some found
      have nonempty := byteLength_pos (List.cons_ne_nil c name)
      have long : ¬ place.offset + byteLength (c :: name) = place.offset := by omega
      rw [if_neg long, place.slice_eq, pure_bind, ← place.offset_past,
        ← place.past.offset_next_ascii (by decide)]
      have fits := place.byteLength_lt place.past.next (length_of_splitAtMark found)
      refine (classBound_follows place.past.next (by omega)).bind ?_
      rintro ⟨bound, afterBound⟩ ⟨⟨scannedBound, others⟩, shorter⟩ scanned ⟨same, behind, stop⟩
      dsimp only at same behind stop
      subst same stop
      rw [scanned]
      dsimp only
      have fits := place.past.next.byteLength_le behind shorter
      refine (interfaceBounds_follows behind (by omega)).bind ?_
      rintro ⟨bounds, stop⟩ ⟨⟨scannedBounds, others⟩, shorter⟩ scanned ⟨⟨same, atEnd, stop⟩, goesOn⟩
      dsimp only at same atEnd stop goesOn
      subst same stop
      rw [scanned]
      dsimp only
      have fits := behind.byteLength_le atEnd shorter
      obtain ⟨next, others, rfl⟩ := List.exists_cons_of_ne_nil goesOn
      rw [atEnd.peek_cons, pure_bind]
      simp only [asChar_firstByte_eq_iff (show '>'.toNat < 128 by decide)]
      by_cases closing : next = '>'
      · subst closing
        rw [if_pos rfl, afterBracket?]
        exact .found ⟨rfl, .behind_mark atEnd (by decide)⟩
      · have noBracket : afterBracket? (next :: others) = none := by
          rw [afterBracket?]
          rintro rest same
          exact closing (List.cons.inj same).1
        rw [if_neg closing, noBracket]
        refine (inductionHypothesis atEnd (by omega)).bind ?_
        rintro ⟨parameters, stop⟩ more scannedMore ⟨rfl, atRest⟩
        rw [scannedMore]
        exact .found ⟨rfl, atRest⟩

/-! ## Types -/

theorem arguments_follows {rest : List Char} (place : Place text rest)
    (enough : 2 * byteLength rest + 1 < steps) :
    Follows text (ClosedBy text) (arguments text steps place.offset) (scanParameters rest) := by
  induction steps generalizing rest with
  | zero => exact absurd enough (Nat.not_lt_zero _)
  | succ steps inductionHypothesis =>
    cases rest with
    | nil =>
      rw [arguments, place.peek_nil, scanParameters]
      exact .fault place _
    | cons c rest =>
      rw [arguments, place.peek_cons, pure_bind]
      simp only [asChar_firstByte_eq_iff (show ')'.toNat < 128 by decide)]
      by_cases closing : c = ')'
      · subst closing
        rw [if_pos rfl, scanParameters]
        exact .found ⟨rfl, .behind_mark place (by decide)⟩
      rw [if_neg closing, scanParameters.eq_3 _ _ closing]
      refine ((typesFollow text steps).type place (by omega)).bind ?_
      rintro ⟨marks, next⟩ first scanned ⟨rfl, behind, rfl⟩
      rw [scanned]
      dsimp only
      have fits := place.byteLength_lt behind first.progress
      refine (inductionHypothesis behind (by omega)).bind ?_
      rintro ⟨types, stop⟩ more scannedMore ⟨rfl, atRest⟩
      rw [scannedMore]
      exact .found ⟨rfl, atRest⟩

/-- Whether a walk is at the end of the text. -/
theorem Place.offset_lt_length_iff {rest : List Char} (place : Place text rest) :
    place.offset < (bytesOf text).length ↔ rest ≠ [] := by
  rw [Ne, ← place.offset_eq_length_iff, ← place.offset_add]
  omega

theorem exceptions_follows {rest : List Char} (place : Place text rest)
    (enough : 2 * byteLength rest < steps) :
    Follows text Eq (exceptions text steps place.offset) (scanExceptions rest) := by
  induction steps generalizing rest with
  | zero => exact absurd enough (Nat.not_lt_zero _)
  | succ steps inductionHypothesis =>
    rw [exceptions]
    simp only [place.offset_lt_length_iff]
    cases rest with
    | nil =>
      rw [if_neg (not_not.mpr rfl), scanExceptions]
      exact .found rfl
    | cons c rest =>
      have here : index text place.offset = pure (firstByte c) := by
        rw [index, place.getElem?_bytesOf_offset]
      rw [if_pos (List.cons_ne_nil c rest), here, pure_bind, scanExceptions]
      simp only [asChar_firstByte_eq_iff (show '^'.toNat < 128 by decide)]
      by_cases caret : c = '^'
      · subst caret
        have size : 2 * (1 + byteLength rest) < steps + 1 := enough
        rw [if_pos rfl, if_pos rfl, ← place.offset_next_ascii (by decide)]
        refine ((typesFollow text steps).type place.next (by omega)).bind ?_
        rintro ⟨marks, next⟩ first scanned ⟨rfl, behind, rfl⟩
        rw [scanned]
        dsimp only
        have fits := place.next.byteLength_lt behind first.progress
        refine (inductionHypothesis behind (by omega)).bind fun types _ scannedMore same => ?_
        subst same
        rw [scannedMore]
        exact .found rfl
      · rw [if_neg caret, if_neg caret]
        exact .fault place _

theorem interfaces_follows {rest : List Char} (place : Place text rest)
    (enough : 2 * byteLength rest + 1 < steps) :
    Follows text Eq (interfaces text steps place.offset) (scanTypes rest) := by
  induction steps generalizing rest with
  | zero => exact absurd enough (Nat.not_lt_zero _)
  | succ steps inductionHypothesis =>
    rw [interfaces]
    simp only [place.offset_lt_length_iff]
    cases rest with
    | nil =>
      rw [if_neg (not_not.mpr rfl), scanTypes]
      exact .found rfl
    | cons c rest =>
      rw [if_pos (List.cons_ne_nil c rest), scanTypes]
      refine ((typesFollow text steps).type place (by omega)).bind ?_
      rintro ⟨marks, next⟩ first scanned ⟨rfl, behind, rfl⟩
      rw [scanned]
      dsimp only
      have fits := place.byteLength_lt behind first.progress
      refine (inductionHypothesis behind (by omega)).bind fun types _ scannedMore same => ?_
      subst same
      rw [scannedMore]
      exact .found rfl

/-! ## Declarations -/

theorem body_follows {rest : List Char} (place : Place text rest)
    (enough : 2 * byteLength text.toList < steps) :
    Follows text Eq (body text steps place.offset) (scanBody rest) := by
  have fits := place.byteLength_le_text
  cases rest with
  | nil =>
    rw [body, place.peek_nil, scanBody]
    exact .fault place _
  | cons c rest =>
    rw [body, place.peek_cons, pure_bind]
    simp only [asChar_firstByte_eq_iff (show '('.toNat < 128 by decide)]
    by_cases opening : c = '('
    · subst opening
      have fits : 1 + byteLength rest ≤ byteLength text.toList := fits
      rw [if_pos rfl, scanBody, ← place.offset_next_ascii (by decide)]
      refine (arguments_follows place.next (by omega)).bind_bind ?_
      rintro ⟨types, closing⟩ ⟨scannedTypes, after⟩ _ ⟨same, behind, stop⟩
      dsimp only at same behind stop ⊢
      subst same
      rw [stop]
      have fits := behind.byteLength_le_text
      refine ((typesFollow text steps).type behind (by omega)).bind_bind ?_
      rintro ⟨result, next⟩ scan _ ⟨rfl, ending, rfl⟩
      have fits := ending.byteLength_le_text
      refine (exceptions_follows ending (by omega)).bind_bind fun types _ _ same => ?_
      subst same
      exact .found rfl
    · rw [if_neg opening, scanBody.eq_3 _ (List.cons_ne_nil c rest)
        fun _ same => opening (List.cons.inj same).1]
      refine ((typesFollow text steps).type place (by omega)).bind_bind ?_
      rintro ⟨superclass, next⟩ scan _ ⟨rfl, behind, rfl⟩
      have shorter := place.byteLength_lt behind scan.progress
      refine (interfaces_follows behind (by omega)).bind_bind fun types _ _ same => ?_
      subst same
      exact .found rfl

theorem declaration_follows (enough : 2 * byteLength text.toList < steps) :
    Follows text Eq (declaration text steps) (scanDeclaration text.toList) := by
  cases known : text.toList with
  | nil =>
    let place : Place text [] := ⟨[], known⟩
    rw [declaration, show peek text 0 _ = _ from place.peek_nil .endOfSignature, scanDeclaration]
    exact .fault place _
  | cons c rest =>
    let place : Place text (c :: rest) := ⟨[], known⟩
    rw [declaration, show peek text 0 _ = _ from place.peek_cons .endOfSignature, pure_bind]
    simp only [asChar_firstByte_eq_iff (show '<'.toNat < 128 by decide)]
    by_cases opening : c = '<'
    · subst opening
      have second : place.next.offset = 1 := place.offset_next_ascii (by decide)
      have fits := place.next.byteLength_le_text
      have course := typeParameters_follows place.next (show _ < steps by omega)
      rw [second] at course
      rw [if_pos rfl, scanDeclaration]
      refine course.bind_bind ?_
      rintro ⟨parameters, closing⟩ ⟨scannedParameters, after⟩ _ ⟨same, behind, stop⟩
      dsimp only at same behind stop ⊢
      subst same
      rw [stop]
      refine (body_follows behind enough).bind_bind fun types _ _ same => ?_
      subst same
      exact .found rfl
    · rw [if_neg opening, scanDeclaration.eq_3 _ (List.cons_ne_nil c rest)
        fun _ same => opening (List.cons.inj same).1]
      refine (@body_follows text steps _ place enough).bind_bind fun types _ _ same => ?_
      subst same
      exact .found rfl

theorem classSignature_settles (text : String) (more : Nat) :
    Settles text (classSignature text (enough text + more)) (decodeClass text) := by
  rw [classSignature, decodeClass, decodeDeclaration]
  refine (declaration_follows (lt_enough text more)).settles fun declared _ scanned same => ?_
  subst same
  rw [scanned]
  exact settles_found declared.toClass

theorem methodSignature_settles (text : String) (more : Nat) :
    Settles text (methodSignature text (enough text + more)) (decodeMethod text) := by
  rw [methodSignature, decodeMethod, decodeDeclaration]
  refine (declaration_follows (lt_enough text more)).settles fun declared _ scanned same => ?_
  subst same
  rw [scanned]
  dsimp only
  rw [writtenArguments_written, pure_bind]
  exact settles_found declared.toMethod

end JvmDiff.Signature
