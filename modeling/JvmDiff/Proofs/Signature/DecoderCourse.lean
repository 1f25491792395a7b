import JvmDiff.Proofs.Signature.Course

/-!
# The course of the decoders

Every decoder can be run as a walk over the bytes of its text.  With two steps for each byte and one
more the walk ends, never takes anything that is not there, and has the outcome of the decoder; and
every type that is read on the way ends behind where it began.
-/

namespace JvmDiff.Signature

open Walk

variable {text : String}

/-! ## Descriptors -/

def SameRead (text : String) {start : List Char} (found : String × Nat)
    (read : Descriptor.Read start) : Prop :=
  found.1 = read.type ∧ AtRest text found.2 read.rest

/-- One more pair of brackets goes behind the type. -/
theorem descriptorElement_succ (count offset : Nat) :
    descriptorElement text (count + 1) offset =
      descriptorElement text count offset >>= fun found => pure (found.1 ++ "[]", found.2) := by
  rw [descriptorElement, descriptorElement, bind_assoc]
  refine bind_congr fun byte => ?_
  split
  · rw [bind_assoc]
    refine bind_congr fun bytes => ?_
    split
    · rfl
    · split
      · rfl
      · rw [bind_assoc]
        rfl
  · split <;> rfl

theorem splitAtMark_cons {mark c : Char} (other : c ≠ mark) (rest : List Char) :
    splitAtMark mark (c :: rest) =
      (splitAtMark mark rest).map fun parts => (c :: parts.1, parts.2) := by
  rw [splitAtMark, if_neg other]

theorem descriptorElement_follows {c : Char} {rest : List Char} (place : Place text (c :: rest))
    (noBracket : c ≠ '[') :
    Follows text (SameRead text) (descriptorElement text 0 place.offset)
      (Descriptor.readType (c :: rest)) := by
  rw [descriptorElement, place.peek_cons, pure_bind, Descriptor.readType, if_neg noBracket,
    primitiveName?_firstByte]
  simp only [asChar_firstByte_eq_iff (show 'L'.toNat < 128 by decide)]
  by_cases classMark : c = 'L'
  · subst classMark
    have inside : place.offset ≤ (bytesOf text).length := by
      rw [← place.offset_add]
      exact Nat.le_add_right _ _
    have fromHere : tail text place.offset =
        pure (('L' :: rest).flatMap String.utf8EncodeChar) := by
      rw [tail, if_pos inside, place.drop_bytesOf]
    rw [if_pos rfl, if_pos rfl]
    split
    case h_1 missing =>
      rw [fromHere, pure_bind, findIdx?_encoded (by decide), splitAtMark_cons (by decide), missing]
      exact .fault place _
    case h_2 name after found =>
      obtain ⟨rfl, _⟩ := splitAtMark_eq_some found
      have stop : place.offset + byteLength ('L' :: name) =
          place.next.offset + byteLength name := by
        rw [place.offset_next_ascii (by decide), Nat.add_assoc]
        rfl
      have past : (('L' :: (name ++ ';' :: after)).flatMap String.utf8EncodeChar).findIdx?
          (fun byte => asChar byte = ';') = some (byteLength ('L' :: name)) := by
        rw [findIdx?_encoded (by decide), splitAtMark_cons (by decide), found]
        rfl
      rw [fromHere, pure_bind, past]
      dsimp only
      by_cases nameless : name = []
      · subst nameless
        have short : place.offset + byteLength ['L'] = place.offset + 1 := rfl
        rw [if_pos short, if_pos rfl]
        exact .fault place _
      · have long : ¬ place.offset + byteLength ('L' :: name) = place.offset + 1 := by
          have := byteLength_pos nameless
          rw [stop, place.offset_next_ascii (by decide)]
          omega
        rw [if_neg long, if_neg nameless, stop, ← place.offset_next_ascii (by decide),
          place.next.slice_eq, pure_bind, ← place.next.offset_past]
        exact .found ⟨rfl, .behind_mark place.next.past (by decide)⟩
  rw [if_neg classMark, if_neg classMark]
  cases primitive : primitiveName? c with
  | none => exact .fault place _
  | some name =>
    have ascii : c.toNat < 128 := by
      by_contra large
      rw [primitiveName?_eq_none (Nat.le_of_not_lt large)] at primitive
      cases primitive
    exact .found ⟨rfl, .behind_mark place ascii⟩

theorem descriptorType_follows {steps : Nat} {rest : List Char} (place : Place text rest)
    (enough : byteLength rest < steps) :
    Follows text (SameRead text) (descriptorType text steps place.offset)
      (Descriptor.readType rest) := by
  obtain ⟨fewer, rfl⟩ := Nat.exists_eq_succ_of_ne_zero (Nat.ne_of_gt (Nat.zero_lt_of_lt enough))
  induction rest generalizing fewer with
  | nil =>
    have noBracket : ¬ ((bytesOf text)[place.offset]?).map asChar = some '[' := by
      rw [place.getElem?_bytesOf_end]
      nofun
    rw [descriptorType, brackets, if_neg noBracket, pure_bind]
    dsimp only
    rw [descriptorElement, place.peek_nil]
    exact .fault place _
  | cons c rest inductionHypothesis =>
    have size := c.utf8Size_pos
    rw [byteLength] at enough
    by_cases bracket : c = '['
    · subst bracket
      have isBracket : ((bytesOf text)[place.offset]?).map asChar = some '[' := by
        rw [place.getElem?_bytesOf_offset, Option.map_some, asChar_firstByte (by decide)]
      obtain ⟨less, rfl⟩ : ∃ less, fewer = less + 1 :=
        Nat.exists_eq_succ_of_ne_zero (by omega)
      have inner : descriptorType text (less + 1 + 1) place.offset =
          descriptorType text (less + 1) place.next.offset >>= fun found =>
            pure (found.1 ++ "[]", found.2) := by
        rw [descriptorType, brackets, if_pos isBracket, descriptorType, bind_assoc, bind_assoc,
          place.offset_next_ascii (by decide)]
        exact bind_congr fun found => descriptorElement_succ found.1 found.2
      rw [inner, Descriptor.readType, if_pos rfl]
      refine (inductionHypothesis place.next less (by omega)).bind ?_
      rintro ⟨type, stop⟩ element read ⟨rfl, atRest⟩
      rw [read]
      exact .found ⟨rfl, atRest⟩
    · have noBracket : ¬ ((bytesOf text)[place.offset]?).map asChar = some '[' := by
        rw [place.getElem?_bytesOf_offset, Option.map_some, Option.some.injEq,
          asChar_firstByte_eq_iff (by decide)]
        exact bracket
      rw [descriptorType, brackets, if_neg noBracket, pure_bind]
      exact descriptorElement_follows place bracket

/-- The same types; the walk stays on the closing mark that the scan has passed. -/
def ClosedBy {α : Type} (text : String) (found : α × Nat) (scanned : α × List Char) : Prop :=
  found.1 = scanned.1 ∧ AtRest text (found.2 + 1) scanned.2

theorem descriptorArguments_follows {steps : Nat} {rest : List Char} (place : Place text rest)
    (enough : byteLength rest + 1 < steps) :
    Follows text (ClosedBy text) (descriptorArguments text steps place.offset)
      (Descriptor.readArguments rest) := by
  induction steps generalizing rest with
  | zero => exact absurd enough (Nat.not_lt_zero _)
  | succ steps inductionHypothesis =>
    cases rest with
    | nil =>
      rw [descriptorArguments, place.peek_nil, Descriptor.readArguments]
      exact .fault place _
    | cons c rest =>
      rw [descriptorArguments, place.peek_cons, pure_bind]
      simp only [asChar_firstByte_eq_iff (show ')'.toNat < 128 by decide)]
      by_cases closing : c = ')'
      · subst closing
        rw [if_pos rfl, Descriptor.readArguments]
        exact .found ⟨rfl, .behind_mark place (by decide)⟩
      rw [if_neg closing, Descriptor.readArguments.eq_3 _ _ closing]
      refine (descriptorType_follows place (Nat.lt_of_succ_lt_succ enough)).bind ?_
      rintro ⟨type, next⟩ first read ⟨rfl, behind, rfl⟩
      rw [read]
      dsimp only
      have fits := place.byteLength_lt behind first.progress
      refine (inductionHypothesis behind (by omega)).bind ?_
      rintro ⟨types, stop⟩ more readMore ⟨rfl, atRest⟩
      rw [readMore]
      exact .found ⟨rfl, atRest⟩

/-! ## Outcomes of decoders -/

/-- The walk ends without taking anything that is not there, it has the outcome of the
decoder, and a fault is one of the text at a place of it. -/
structure Settles {α : Type} (text : String) (walk : Walk α) (decoded : Except Malformed α) :
    Prop where
  ends : walk = match decoded with
    | .ok value => pure value
    | .error fault => throw (.malformed fault)
  liesIn : ∀ fault, decoded = .error fault → fault.LiesIn text

theorem settles_found {α : Type} (value : α) : Settles text (pure value) (.ok value) :=
  ⟨rfl, nofun⟩

theorem Place.settles {α : Type} {rest : List Char} (place : Place text rest) (reason : Reason) :
    Settles text (malformed text place.offset reason : Walk α)
      (.error (Fault.within ⟨rest, reason⟩ text)) := by
  refine ⟨?_, fun _ same => Except.error.inj same ▸ place.liesIn reason⟩
  have position : (Fault.within ⟨rest, reason⟩ text).position = place.offset := by
    change byteLength text.toList - byteLength rest = _
    rw [place.split, byteLength_append, Nat.add_sub_cancel]
    rfl
  dsimp only
  rw [malformed, ← position]
  rfl

/-- A walk settles as a decoder does that stops where the scan stops. -/
theorem Follows.settles {α β γ : Type} {agree : α → β → Prop} {walk : Walk α}
    {scan : Except Fault β} {next : α → Walk γ} {whole : Except Malformed γ}
    (follows : Follows text agree walk scan)
    (settlesNext : ∀ value result, scan = .ok result → agree value result →
      Settles text (next value) whole)
    (stops : ∀ stopped, scan = .error stopped → whole = .error (stopped.within text) := by
      intro stopped failed
      rw [failed]
      try rfl) :
    Settles text (walk >>= next) whole := by
  cases follows with
  | found agrees => exact settlesNext _ _ rfl agrees
  | fault place reason =>
    rw [stops _ rfl]
    exact place.settles reason

/-- A text that is read as types has to be used up. -/
theorem Place.settles_end {α : Type} {rest : List Char} (place : Place text rest)
    {reason : Reason} {value : α} {whole : Except Malformed α}
    (complete : rest = [] → whole = .ok value)
    (incomplete : rest ≠ [] → whole = .error (Fault.within ⟨rest, reason⟩ text)) :
    Settles text
      (if place.offset = (bytesOf text).length then pure value
        else malformed text place.offset reason)
      whole := by
  by_cases atEnd : rest = []
  · rw [if_pos (place.offset_eq_length_iff.mpr atEnd), complete atEnd]
    exact settles_found value
  · rw [if_neg (mt place.offset_eq_length_iff.mp atEnd), incomplete atEnd]
    exact place.settles reason

/-- The steps that are enough for a walk over the text. -/
def enough (text : String) : Nat :=
  2 * text.utf8ByteSize + 1

theorem lt_enough (text : String) (more : Nat) :
    2 * byteLength text.toList < enough text + more := by
  rw [byteLength_toList, enough]
  omega

theorem fieldDescriptor_settles (text : String) (more : Nat) :
    Settles text (fieldDescriptor text (enough text + more)) (decodeFieldDescriptor text) := by
  have size := lt_enough text more
  have course := descriptorType_follows (Place.first text) (show _ < enough text + more by omega)
  rw [fieldDescriptor, decodeFieldDescriptor]
  refine course.settles ?_
  rintro ⟨type, stop⟩ read scanned ⟨rfl, behind, rfl⟩
  rw [scanned]
  exact behind.settles_end (fun complete => if_pos complete) fun more => if_neg more

theorem fieldSignature_settles (text : String) (more : Nat) :
    Settles text (fieldSignature text (enough text + more)) (decodeField text) := by
  have course := (typesFollow text (enough text + more)).type (Place.first text)
    (lt_enough text more)
  rw [fieldSignature, decodeField]
  refine course.settles ?_
  rintro ⟨marks, stop⟩ scan scanned ⟨rfl, behind, rfl⟩
  rw [scanned]
  exact behind.settles_end (fun complete => if_pos complete) fun more => if_neg more

/-- The two bytes of the name are counted. -/
example : decodeField "Té;x" = .error ⟨"Té;x", 4, .trailingAfterType⟩ := by cbv

theorem methodDescriptor_settles (text : String) (more : Nat) :
    Settles text (methodDescriptor text (enough text + more)) (decodeMethodDescriptor text) := by
  have size := lt_enough text more
  generalize enough text + more = steps at size ⊢
  rw [methodDescriptor, decodeMethodDescriptor]
  cases known : text.toList with
  | nil =>
    let place : Place text [] := ⟨[], known⟩
    have head : (bytesOf text).head? = none :=
      List.head?_eq_getElem?.trans place.getElem?_bytesOf_end
    rw [head, if_neg nofun]
    exact place.settles _
  | cons c rest =>
    let place : Place text (c :: rest) := ⟨[], known⟩
    have head : (bytesOf text).head? = some (firstByte c) :=
      List.head?_eq_getElem?.trans place.getElem?_bytesOf_offset
    simp only [head, Option.map_some, Option.some.injEq,
      asChar_firstByte_eq_iff (show '('.toNat < 128 by decide)]
    by_cases opening : c = '('
    · subst opening
      have second : place.next.offset = 1 := place.offset_next_ascii (by decide)
      have fits : 1 + byteLength rest ≤ byteLength text.toList := place.byteLength_le_text
      have course := descriptorArguments_follows place.next (show _ < steps by omega)
      rw [second] at course
      rw [if_pos rfl, Descriptor.readMethod]
      refine course.settles ?_
      rintro ⟨types, closing⟩ ⟨scanned, after⟩ read ⟨rfl, behind, stop⟩
      rw [read]
      dsimp only at stop ⊢
      rw [stop]
      have fits := behind.byteLength_le_text
      refine (descriptorType_follows behind (by omega)).settles ?_
      rintro ⟨type, stop⟩ result readResult ⟨rfl, ending, rfl⟩
      rw [readResult]
      exact ending.settles_end (fun complete => by simp only [if_pos complete])
        fun more => by simp only [if_neg more]
    · rw [if_neg opening, Descriptor.readMethod]
      · exact place.settles _
      · rintro others same
        exact opening (List.cons.inj same).1

end JvmDiff.Signature
