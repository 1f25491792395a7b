import JvmDiff.Proofs.Signature.Grammar

/-!
# What the decoders accept

Each decoder accepts the texts of its readings and refuses all others as malformed.  So what it
accepts is a signature of the grammar as long as the reading takes no liberty.
-/

namespace JvmDiff.Signature

/-! ## Acceptance -/

/-- The decoder accepts the text if it has a reading, and refuses it as malformed if it has none. -/
structure Accepts {α Reading : Type} (decode : String → Except Malformed α)
    (text : Reading → List Char) (signature : String) : Prop where
  accepted_iff : (∃ found, decode signature = .ok found) ↔
    ∃ reading, signature.toList = text reading
  refused : (∀ reading, signature.toList ≠ text reading) →
    ∃ malformed, decode signature = .error malformed ∧ malformed.text = signature

section Accepts

variable {α Reading : Type} {decode : String → Except Malformed α} {text : Reading → List Char}
  {signature : String}

/-- What a decoder refuses it refuses as a whole. -/
theorem Accepts.of_faults
    (accepted : (∃ found, decode signature = .ok found) ↔
      ∃ reading, signature.toList = text reading)
    (faults : ∀ malformed, decode signature = .error malformed → malformed.text = signature) :
    Accepts decode text signature where
  accepted_iff := accepted
  refused := by
    intro noReading
    cases decoded : decode signature with
    | error malformed => exact ⟨malformed, rfl, faults malformed decoded⟩
    | ok found =>
      obtain ⟨reading, spelled⟩ := accepted.mp ⟨found, decoded⟩
      exact absurd spelled (noReading reading)

theorem exists_map_eq_ok_iff {β : Type} (make : α → β) {decoded : Except Malformed α} :
    (∃ found, decoded.map make = .ok found) ↔ ∃ found, decoded = .ok found := by
  cases decoded with
  | error malformed =>
    constructor
    · rintro ⟨_, made⟩
      cases made
    · rintro ⟨_, made⟩
      cases made
  | ok found => exact ⟨fun _ => ⟨found, rfl⟩, fun _ => ⟨make found, rfl⟩⟩

/-- What is made of an accepted text does not matter. -/
theorem Accepts.map {β : Type} (accepts : Accepts decode text signature) (make : α → β) :
    Accepts (fun signature => (decode signature).map make) text signature where
  accepted_iff := (exists_map_eq_ok_iff make).trans accepts.accepted_iff
  refused := by
    intro noReading
    obtain ⟨malformed, decoded, same⟩ := accepts.refused noReading
    exact ⟨malformed, by rw [decoded]; rfl, same⟩

end Accepts

theorem decodeField_of_scansType {signature : String} {marks : List Mark}
    (scans : ScansType signature.toList marks []) :
    decodeField signature = .ok (Rendering.ofType true marks) := by
  obtain ⟨progress, scanned⟩ := scans
  rw [decodeField, scanned]
  exact if_pos rfl

theorem exists_decodeField_iff (signature : String) :
    (∃ found, decodeField signature = .ok found) ↔
      ∃ reading : TypeReading, signature.toList = reading.text := by
  have scans := @exists_scansType_iff signature.toList []
  simp only [List.append_nil] at scans
  rw [← scans]
  constructor
  · rintro ⟨found, decoded⟩
    rw [decodeField] at decoded
    split at decoded
    case h_1 => cases decoded
    case h_2 scan scanned =>
      split at decoded
      case isTrue atEnd =>
        obtain ⟨marks, rest, progress⟩ := scan
        obtain rfl : rest = [] := atEnd
        exact ⟨marks, progress, scanned⟩
      case isFalse => cases decoded
  · rintro ⟨marks, scans⟩
    exact ⟨_, decodeField_of_scansType scans⟩

theorem text_of_decodeField_error {signature : String} {malformed : Malformed}
    (decoded : decodeField signature = .error malformed) : malformed.text = signature := by
  rw [decodeField] at decoded
  split at decoded
  case h_1 =>
    cases decoded
    rfl
  case h_2 =>
    split at decoded
    case isTrue => cases decoded
    case isFalse =>
      cases decoded
      rfl

theorem exists_decodeDeclaration_iff (signature : String) :
    (∃ found, decodeDeclaration signature = .ok found) ↔
      ∃ reading : DeclarationReading, signature.toList = reading.text := by
  rw [← exists_scanDeclaration_iff, decodeDeclaration]
  constructor
  · rintro ⟨found, decoded⟩
    split at decoded
    case h_1 => cases decoded
    case h_2 declaration scanned => exact ⟨declaration, scanned⟩
  · rintro ⟨declaration, scanned⟩
    rw [scanned]
    exact ⟨declaration, rfl⟩

theorem text_of_decodeDeclaration_error {signature : String} {malformed : Malformed}
    (decoded : decodeDeclaration signature = .error malformed) : malformed.text = signature := by
  rw [decodeDeclaration] at decoded
  split at decoded
  case h_1 =>
    cases decoded
    rfl
  case h_2 => cases decoded

theorem accepts_field (signature : String) : Accepts decodeField TypeReading.text signature :=
  .of_faults (exists_decodeField_iff signature) fun _ => text_of_decodeField_error

/-- One walk serves classes and methods. -/
theorem accepts_declaration (signature : String) :
    Accepts decodeDeclaration DeclarationReading.text signature :=
  .of_faults (exists_decodeDeclaration_iff signature) fun _ => text_of_decodeDeclaration_error

/-- Each decoder accepts a text that has a reading and refuses any other as malformed.  The texts
that have a reading without liberties are the types of the grammar, and its classes and methods
whose type parameters can be told apart. -/
theorem decoders_accept_readings (signature : String) :
    (Accepts decodeField TypeReading.text signature ∧
      ((∃ type : JavaType, signature.toList = type.text) ↔
        ∃ reading : TypeReading, reading.IsRegular ∧ signature.toList = reading.text)) ∧
    (Accepts decodeClass DeclarationReading.text signature ∧
      ((∃ form : ClassForm, form.IsClear ∧ signature.toList = form.text) ↔
        ∃ declared : DeclarationReading, declared.IsRegularClass ∧
          signature.toList = declared.text)) ∧
    (Accepts decodeMethod DeclarationReading.text signature ∧
      ((∃ form : MethodForm, form.IsClear ∧ signature.toList = form.text) ↔
        ∃ declared : DeclarationReading, declared.IsRegularMethod ∧
          signature.toList = declared.text)) :=
  ⟨⟨accepts_field signature, exists_javaType_iff⟩,
    ⟨(accepts_declaration signature).map Declaration.toClass, exists_classForm_iff⟩,
    ⟨(accepts_declaration signature).map Declaration.toMethod, exists_methodForm_iff⟩⟩

/-! ## Liberties -/

theorem inBrackets_append_eq_cons (inside : List Char) {c : Char} (others : List Char) :
    ∃ d behind, inBrackets inside ++ c :: others = d :: behind ∧ (d = '<' ∨ d = c) := by
  rw [inBrackets]
  split
  · exact ⟨c, others, rfl, .inr rfl⟩
  · exact ⟨'<', _, rfl, .inl rfl⟩

theorem ClassForm.text_eq_cons (form : ClassForm) :
    ∃ c others, form.text = c :: others ∧ (c = '<' ∨ c = 'L') := by
  obtain ⟨others, spelled⟩ := form.superclass.text_eq_cons
  rw [ClassForm.text, spelled]
  exact inBrackets_append_eq_cons _ _

theorem MethodForm.text_eq_cons (form : MethodForm) :
    ∃ c others, form.text = c :: others ∧ (c = '<' ∨ c = '(') :=
  inBrackets_append_eq_cons _ _

theorem not_isTypeSignature_void : ¬ IsTypeSignature "V" := by
  rintro ⟨type, spelled⟩
  cases type with
  | base type =>
    rw [JavaType.text] at spelled
    cases type <;> cases spelled
  | reference type =>
    obtain ⟨c, others, same, first⟩ := type.text_eq_cons
    rw [JavaType.text, same] at spelled
    rcases first with rfl | rfl | rfl <;> cases spelled

/-- Void is read as a type wherever one may stand, and neither decoder of declarations asks for the
kind that it gets. -/
theorem decoders_accept_liberties :
    (decodeField "V" = .ok "void" ∧ ¬ IsTypeSignature "V") ∧
      ((∃ found, decodeClass "(I)V" = .ok found) ∧ ¬ IsClassSignature "(I)V") ∧
      ((∃ found, decodeMethod "LA<>;" = .ok found) ∧ ¬ IsMethodSignature "LA<>;") := by
  refine ⟨⟨?_, not_isTypeSignature_void⟩, ⟨?_, ?_⟩, ⟨?_, ?_⟩⟩
  · have scans : ScansType "V".toList [.primitive 'V'] [] := scansType_primitive rfl []
    rw [decodeField_of_scansType scans]
    rfl
  · refine (exists_map_eq_ok_iff _).mpr ((exists_decodeDeclaration_iff _).mpr ?_)
    exact ⟨⟨[], .nil, .ofMethod [.primitive 'I' rfl] (.primitive 'V' rfl) []⟩, rfl⟩
  · rintro ⟨form, spelled⟩
    obtain ⟨c, others, same, first⟩ := form.text_eq_cons
    rw [same] at spelled
    rcases first with rfl | rfl <;> cases spelled
  · refine (exists_map_eq_ok_iff _).mpr ((exists_decodeDeclaration_iff _).mpr ?_)
    have unmarked : Unmarked ['A'] := by
      intro c member
      rw [List.mem_singleton.mp member]
      decide
    exact ⟨⟨[], .nil, .ofClass (.ofClass (.mk ['A'] (List.cons_ne_nil _ _) unmarked
      [.mk [] [] unmarked_nil]) []) []⟩, rfl⟩
  · rintro ⟨form, spelled⟩
    obtain ⟨c, others, same, first⟩ := form.text_eq_cons
    rw [same] at spelled
    rcases first with rfl | rfl <;> cases spelled

end JvmDiff.Signature
