import JvmDiff.Proofs.Signature.DeclarationCourse

/-!
# Every type ends behind its beginning

Whatever the offset is at which a walk over a type starts, and however many steps it may take: if it
comes to an end of the type, this end is behind the start and inside the text.  So the loops around
it always get further.
-/

namespace JvmDiff.Signature

open Walk

/-- Where the walk comes to a value, its offset is at least the bound and inside the text or at its
end. -/
def Reaches {α : Type} (text : String) (bound : Nat) (walk : Walk (α × Nat)) : Prop :=
  ∀ value stop, walk = pure (value, stop) → bound ≤ stop ∧ stop ≤ text.utf8ByteSize

variable {text : String} {bound : Nat}

theorem length_bytesOf_eq (text : String) : (bytesOf text).length = text.utf8ByteSize := by
  rw [length_bytesOf, byteLength_toList]

theorem reaches_pure {α : Type} (value : α) {stop : Nat} (far : bound ≤ stop)
    (inside : stop ≤ text.utf8ByteSize) : Reaches text bound (pure (value, stop)) := by
  rintro _ _ same
  cases same
  exact ⟨far, inside⟩

theorem reaches_malformed {α : Type} (position : Nat) (reason : Reason) :
    Reaches text bound (malformed text position reason : Walk (α × Nat)) :=
  nofun

theorem Reaches.mono {α : Type} {further : Nat} {walk : Walk (α × Nat)}
    (reaches : Reaches text further walk) (le : bound ≤ further) : Reaches text bound walk :=
  fun value stop found =>
    ⟨le.trans (reaches value stop found).1, (reaches value stop found).2⟩

theorem reaches_unfinished {α : Type} : Reaches text bound (unfinished : Walk (α × Nat)) :=
  nofun

theorem exists_of_bind_eq_pure {α β : Type} {walk : Walk α} {next : α → Walk β} {value : β}
    (found : walk >>= next = pure value) :
    ∃ first, walk = pure first ∧ next first = pure value := by
  obtain _ | _ | first := walk
  · cases found
  · cases found
  · exact ⟨first, rfl, found⟩

theorem reaches_bind {α β : Type} {walk : Walk α} {next : α → Walk (β × Nat)}
    (reaches : ∀ value, walk = pure value → Reaches text bound (next value)) :
    Reaches text bound (walk >>= next) := by
  intro value stop found
  obtain ⟨first, comes, goesOn⟩ := exists_of_bind_eq_pure found
  exact reaches first comes value stop goesOn

theorem peek_lt {offset : Nat} {ending : Reason} {byte : UInt8}
    (peeked : peek text offset ending = pure byte) : offset < text.utf8ByteSize := by
  by_contra outside
  have none : (bytesOf text)[offset]? = none := by
    rw [List.getElem?_eq_none_iff, length_bytesOf_eq]
    exact Nat.le_of_not_lt outside
  rw [peek, none] at peeked
  cases peeked

theorem add_findIdx?_lt {start count : Nat} {isMark : UInt8 → Bool}
    (counted : ((bytesOf text).drop start).findIdx? isMark = some count) :
    start + count < text.utf8ByteSize := by
  have inside := (List.findIdx?_eq_some_iff_getElem.mp counted).1
  rw [List.length_drop, length_bytesOf_eq] at inside
  omega

/-- A mark is found from the start on, inside the text. -/
theorem find_bounds {start stop : Nat} {mark : Char} (found : find text start mark = pure stop) :
    start ≤ stop ∧ stop < text.utf8ByteSize := by
  rw [find] at found
  split at found
  case h_1 count counted =>
    cases found
    exact ⟨Nat.le_add_right _ _, add_findIdx?_lt counted⟩
  case h_2 => cases found

theorem tail_eq_pure {offset : Nat} {bytes : List UInt8} (taken : tail text offset = pure bytes) :
    bytes = (bytesOf text).drop offset := by
  rw [tail] at taken
  split at taken
  · cases taken
    rfl
  · cases taken

/-! ## Types of signatures -/

structure TypesAdvance (text : String) (steps : Nat) : Prop where
  type : ∀ start, Reaches text (start + 1) (type text steps start)
  className : ∀ isMember isShown start offset,
    Reaches text (offset + 1) (className text steps isMember isShown start offset)
  typeArguments : ∀ offset, Reaches text offset (typeArguments text steps offset)

section Steps

variable {steps : Nat}

theorem type_advances (types : TypesAdvance text steps) (start : Nat) :
    Reaches text (start + 1) (type text (steps + 1) start) := by
  rw [type]
  refine reaches_bind fun byte peeked => ?_
  have inside := peek_lt peeked
  by_cases primitive : (primitiveName? (asChar byte)).isSome
  · rw [if_pos primitive]
    exact reaches_pure _ (Nat.le_refl _) inside
  rw [if_neg primitive]
  by_cases bracket : asChar byte = '['
  · rw [if_pos bracket]
    refine reaches_bind ?_
    rintro ⟨marks, stop⟩ element
    obtain ⟨far, atMost⟩ := types.type _ _ _ element
    exact reaches_pure _ (Nat.le_of_succ_le far) atMost
  rw [if_neg bracket]
  by_cases variableMark : asChar byte = 'T'
  · rw [if_pos variableMark]
    refine reaches_bind fun stop found => reaches_bind fun name _ => ?_
    obtain ⟨far, atMost⟩ := find_bounds found
    exact reaches_pure _ (Nat.le_succ_of_le far) atMost
  rw [if_neg variableMark]
  by_cases classMark : asChar byte = 'L'
  · rw [if_pos classMark]
    exact (types.className _ _ _ _).mono (Nat.le_succ _)
  · rw [if_neg classMark]
    exact reaches_malformed _ _

theorem className_advances (types : TypesAdvance text steps) (isMember isShown : Bool)
    (start offset : Nat) :
    Reaches text (offset + 1) (className text (steps + 1) isMember isShown start offset) := by
  rw [className]
  refine reaches_bind fun byte peeked => ?_
  have inside := peek_lt peeked
  by_cases endMark : asChar byte = '.' ∨ asChar byte = ';'
  · rw [if_pos endMark]
    refine reaches_bind fun shown _ => ?_
    by_cases semicolon : asChar byte = ';'
    · rw [if_pos semicolon]
      exact reaches_pure _ (Nat.le_refl _) inside
    · rw [if_neg semicolon]
      refine reaches_bind ?_
      rintro ⟨marks, stop⟩ member
      obtain ⟨far, atMost⟩ := types.className _ _ _ _ _ _ member
      exact reaches_pure _ (Nat.le_of_succ_le far) atMost
  rw [if_neg endMark]
  by_cases opening : asChar byte = '<'
  · rw [if_pos opening]
    refine reaches_bind fun name _ => reaches_bind ?_
    rintro ⟨arguments, closing⟩ listed
    obtain ⟨closingFar, _⟩ := types.typeArguments _ _ _ listed
    refine reaches_bind ?_
    rintro ⟨marks, stop⟩ more
    obtain ⟨far, atMost⟩ := types.className _ _ _ _ _ _ more
    exact reaches_pure _ (by omega) atMost
  · rw [if_neg opening]
    exact (types.className _ _ _ _).mono (Nat.le_succ _)

/-- The type of an argument and the arguments behind it. -/
theorem bounded_advances (types : TypesAdvance text steps) (bound : Bound) (start : Nat) :
    Reaches text start
      (do
        let (type, next) ← Walk.type text steps start
        let (marks, stop) ← typeArguments text steps next
        return (.argument bound :: (type ++ marks), stop)) := by
  refine reaches_bind ?_
  rintro ⟨type, next⟩ first
  refine reaches_bind ?_
  rintro ⟨marks, stop⟩ others
  obtain ⟨nextFar, _⟩ := types.type _ _ _ first
  obtain ⟨far, atMost⟩ := types.typeArguments _ _ _ others
  exact reaches_pure _ (by omega) atMost

theorem typeArguments_advances (types : TypesAdvance text steps) (offset : Nat) :
    Reaches text offset (typeArguments text (steps + 1) offset) := by
  rw [typeArguments]
  refine reaches_bind fun byte peeked => ?_
  by_cases closing : asChar byte = '>'
  · rw [if_pos closing]
    exact reaches_pure _ (Nat.le_refl _) (Nat.le_of_lt (peek_lt peeked))
  rw [if_neg closing]
  by_cases wildcard : asChar byte = '*'
  · rw [if_pos wildcard]
    refine reaches_bind ?_
    rintro ⟨marks, stop⟩ others
    obtain ⟨far, atMost⟩ := types.typeArguments _ _ _ others
    exact reaches_pure _ (Nat.le_of_succ_le far) atMost
  rw [if_neg wildcard]
  by_cases plus : asChar byte = '+'
  · rw [if_pos plus]
    exact (bounded_advances types .subtypes _).mono (Nat.le_succ _)
  rw [if_neg plus]
  by_cases minus : asChar byte = '-'
  · rw [if_pos minus]
    exact (bounded_advances types .supertypes _).mono (Nat.le_succ _)
  · rw [if_neg minus]
    exact bounded_advances types .exactly _

end Steps

theorem typesAdvance (text : String) (steps : Nat) : TypesAdvance text steps := by
  induction steps with
  | zero =>
    refine ⟨fun start => ?_, fun isMember isShown start offset => ?_, fun offset => ?_⟩
    · rw [type]
      exact reaches_unfinished
    · rw [className]
      exact reaches_unfinished
    · rw [typeArguments]
      exact reaches_unfinished
  | succ steps types =>
    exact ⟨type_advances types, className_advances types, typeArguments_advances types⟩

/-! ## Types of descriptors -/

theorem brackets_le {steps start count stop : Nat}
    (counted : brackets text steps start = pure (count, stop)) : start ≤ stop := by
  induction steps generalizing start count with
  | zero => cases counted
  | succ steps inductionHypothesis =>
    rw [brackets] at counted
    split at counted
    · obtain ⟨⟨more, last⟩, countedMore, same⟩ := exists_of_bind_eq_pure counted
      cases same
      exact Nat.le_of_succ_le (inductionHypothesis countedMore)
    · cases counted
      exact Nat.le_refl _

theorem descriptorElement_advances (count offset : Nat) :
    Reaches text (offset + 1) (descriptorElement text count offset) := by
  rw [descriptorElement]
  refine reaches_bind fun byte peeked => ?_
  by_cases classMark : asChar byte = 'L'
  · rw [if_pos classMark]
    refine reaches_bind fun bytes taken => ?_
    split
    case h_1 => exact reaches_malformed _ _
    case h_2 past found =>
      rw [tail_eq_pure taken] at found
      have inside := add_findIdx?_lt found
      split
      · exact reaches_malformed _ _
      · refine reaches_bind fun name _ => ?_
        exact reaches_pure _ (Nat.succ_le_succ (Nat.le_add_right _ _)) inside
  · rw [if_neg classMark]
    split
    case h_1 => exact reaches_malformed _ _
    case h_2 name known => exact reaches_pure _ (Nat.le_refl _) (peek_lt peeked)

theorem descriptorType_advances (text : String) (steps start : Nat) :
    Reaches text (start + 1) (descriptorType text steps start) := by
  refine reaches_bind ?_
  rintro ⟨count, offset⟩ counted
  exact (descriptorElement_advances count offset).mono (Nat.succ_le_succ (brackets_le counted))

/-! ## Decoders -/

/-- Every decoder ends, as a walk that takes nothing which is not there, with its value or
with a fault of the text at a place of it; and on any way through a text, every type ends behind its
beginning and inside the text. -/
theorem decoders_settle_and_types_advance (text : String) :
    (∀ more,
      Settles text (classSignature text (enough text + more)) (decodeClass text) ∧
      Settles text (methodSignature text (enough text + more)) (decodeMethod text) ∧
      Settles text (fieldSignature text (enough text + more)) (decodeField text) ∧
      Settles text (fieldDescriptor text (enough text + more)) (decodeFieldDescriptor text) ∧
      Settles text (methodDescriptor text (enough text + more)) (decodeMethodDescriptor text)) ∧
    ∀ steps start,
      Reaches text (start + 1) (type text steps start) ∧
      Reaches text (start + 1) (descriptorType text steps start) :=
  ⟨fun more => ⟨classSignature_settles text more, methodSignature_settles text more,
      fieldSignature_settles text more, fieldDescriptor_settles text more,
      methodDescriptor_settles text more⟩,
    fun steps start => ⟨(typesAdvance text steps).type start,
      descriptorType_advances text steps start⟩⟩

end JvmDiff.Signature
