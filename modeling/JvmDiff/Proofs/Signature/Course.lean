import JvmDiff.Proofs.Signature.Places

/-!
# The course of a walk

A walk that starts at a place and has two steps for each byte of the rest follows the scan of the
rest: it comes to the same value at the place where the scan leaves off, or stops with the same
fault.  So it ends, and never takes anything from outside the text or from inside a character.
-/

namespace JvmDiff.Signature

open Walk

/-- The walk comes to a value as the scan does, or to the fault of the scan at its
place. -/
inductive Follows (text : String) {α β : Type} (agree : α → β → Prop) :
    Walk α → Except Fault β → Prop
  | found {value : α} {result : β} (agrees : agree value result) :
      Follows text agree (pure value) (.ok result)
  | fault {rest : List Char} (place : Place text rest) (reason : Reason) :
      Follows text agree (malformed text place.offset reason) (.error ⟨rest, reason⟩)

variable {text : String}

/-- A walk goes on as a scan does that stops where the first part of it stops. -/
theorem Follows.bind {α β γ δ : Type} {agree : α → β → Prop} {agreeNext : γ → δ → Prop}
    {walk : Walk α} {scan : Except Fault β} {next : α → Walk γ} {whole : Except Fault δ}
    (follows : Follows text agree walk scan)
    (followsNext : ∀ value result, scan = .ok result → agree value result →
      Follows text agreeNext (next value) whole)
    (stops : ∀ stopped, scan = .error stopped → whole = .error stopped := by
      intro stopped failed
      rw [failed]
      try rfl) :
    Follows text agreeNext (walk >>= next) whole := by
  cases follows with
  | found agrees => exact followsNext _ _ rfl agrees
  | fault place reason =>
    rw [stops _ rfl]
    exact .fault place reason

/-- The case of a scan that is itself in two parts. -/
theorem Follows.bind_bind {α β γ δ : Type} {agree : α → β → Prop} {agreeNext : γ → δ → Prop}
    {walk : Walk α} {scan : Except Fault β} {next : α → Walk γ} {nextScan : β → Except Fault δ}
    (follows : Follows text agree walk scan)
    (followsNext : ∀ value result, scan = .ok result → agree value result →
      Follows text agreeNext (next value) (nextScan result)) :
    Follows text agreeNext (walk >>= next) (scan >>= nextScan) :=
  follows.bind fun value result scanned agrees => by
    rw [scanned]
    exact followsNext value result scanned agrees

/-- The offset is that of a place with the rest. -/
def AtRest (text : String) (offset : Nat) (rest : List Char) : Prop :=
  ∃ place : Place text rest, offset = place.offset

/-- The same marks, up to the same place. -/
def SameScan (text : String) {start : List Char} (found : List Mark × Nat) (scan : Scan start) :
    Prop :=
  found.1 = scan.marks ∧ AtRest text found.2 scan.rest

def SameArguments (text : String) {start : List Char} (found : List Mark × Nat)
    (scan : ArgumentScan start) : Prop :=
  found.1 = scan.marks ∧ AtRest text found.2 scan.rest

/-- The walks over types follow the scans when they have the given number of steps. -/
structure TypesFollow (text : String) (steps : Nat) : Prop where
  type : ∀ {rest : List Char} (place : Place text rest), 2 * byteLength rest < steps →
    Follows text (SameScan text) (type text steps place.offset) (scanType rest)
  className : ∀ {begun name rest : List Char} (isMember isShown : Bool)
    (start : Place text begun), begun = name ++ rest → 2 * byteLength rest < steps →
    Follows text (SameScan text)
      (className text steps isMember isShown start.offset (start.offset + byteLength name))
      (scanName isMember isShown begun rest)
  typeArguments : ∀ {rest : List Char} (place : Place text rest),
    2 * byteLength rest + 1 < steps →
    Follows text (SameArguments text) (typeArguments text steps place.offset) (scanArguments rest)

/-- An offset of the walk that is a place, one byte behind a mark. -/
theorem AtRest.behind_mark {mark : Char} {rest : List Char} (place : Place text (mark :: rest))
    (ascii : mark.toNat < 128) : AtRest text (place.offset + 1) rest :=
  ⟨place.next, (place.offset_next_ascii ascii).symm⟩

section Steps

variable {fewer : Nat}

theorem type_follows (known : TypesFollow text fewer) {rest : List Char} (place : Place text rest)
    (enough : 2 * byteLength rest ≤ fewer) :
    Follows text (SameScan text) (type text (fewer + 1) place.offset) (scanType rest) := by
  cases rest with
  | nil =>
    rw [type, place.peek_nil, scanType]
    exact .fault place _
  | cons c rest =>
    have size := c.utf8Size_pos
    rw [byteLength] at enough
    rw [type, place.peek_cons, pure_bind, scanType, primitiveName?_firstByte]
    by_cases primitive : (primitiveName? c).isSome
    · have ascii : c.toNat < 128 := by
        by_contra large
        rw [primitiveName?_eq_none (Nat.le_of_not_lt large)] at primitive
        exact Bool.false_ne_true primitive
      rw [if_pos primitive, if_pos primitive, asChar_firstByte ascii]
      exact .found ⟨rfl, .behind_mark place ascii⟩
    rw [if_neg primitive, if_neg primitive]
    simp only [asChar_firstByte_eq_iff (show '['.toNat < 128 by decide),
      asChar_firstByte_eq_iff (show 'T'.toNat < 128 by decide),
      asChar_firstByte_eq_iff (show 'L'.toNat < 128 by decide)]
    by_cases bracket : c = '['
    · subst bracket
      rw [if_pos rfl, if_pos rfl, ← place.offset_next_ascii (by decide)]
      refine (known.type place.next (by omega)).bind ?_
      rintro ⟨marks, stop⟩ element scanned ⟨rfl, atRest⟩
      rw [scanned]
      exact .found ⟨rfl, atRest⟩
    rw [if_neg bracket, if_neg bracket]
    by_cases variableMark : c = 'T'
    · subst variableMark
      rw [if_pos rfl, if_pos rfl, ← place.offset_next_ascii (by decide)]
      split
      case h_1 missing =>
        rw [place.next.find_missing (by decide) missing]
        exact .fault place.next _
      case h_2 name after found =>
        rw [place.next.find_found (by decide) found, pure_bind]
        obtain ⟨rfl, _⟩ := splitAtMark_eq_some found
        rw [place.next.slice_eq, pure_bind, ← place.next.offset_past]
        exact .found ⟨rfl, .behind_mark place.next.past (by decide)⟩
    rw [if_neg variableMark, if_neg variableMark]
    by_cases classMark : c = 'L'
    · subst classMark
      have course : Follows text (SameScan text)
          (className text fewer false false place.next.offset place.next.offset)
          (scanName false false rest rest) :=
        @TypesFollow.className text fewer known rest [] rest false false place.next rfl (by omega)
      rw [if_pos rfl, if_pos rfl, ← place.offset_next_ascii (by decide),
        ← bind_pure (className text fewer false false _ _)]
      refine course.bind ?_
      rintro ⟨marks, stop⟩ scan scanned ⟨rfl, atRest⟩
      rw [scanned]
      exact .found ⟨rfl, atRest⟩
    rw [if_neg classMark, if_neg classMark]
    exact .fault place _

theorem name_follows {name rest : List Char} (isMember : Bool)
    (start : Place text (name ++ rest)) :
    Follows text Eq (Walk.name text isMember start.offset (start.offset + byteLength name))
      (nameMark isMember (name ++ rest) rest) := by
  by_cases nonempty : name = []
  · subst nonempty
    have short : start.offset + byteLength [] ≤ start.offset := Nat.le_refl _
    have short' : ([] ++ rest).length ≤ rest.length := Nat.le_refl _
    rw [Walk.name, if_pos short, nameMark, if_pos short']
    exact .fault start _
  · have long : ¬ start.offset + byteLength name ≤ start.offset := by
      have := byteLength_pos nonempty
      omega
    rw [Walk.name, if_neg long, start.slice_eq, pure_bind, nameMark_append isMember nonempty]
    exact .found rfl

theorem shownName_follows {name rest : List Char} (isMember isShown : Bool)
    (start : Place text (name ++ rest)) :
    Follows text Eq
      (shownName text isMember isShown start.offset (start.offset + byteLength name))
      (if isShown then .ok [] else (nameMark isMember (name ++ rest) rest).map ([·])) := by
  rw [shownName]
  cases isShown with
  | true => exact .found rfl
  | false =>
    rw [if_neg Bool.false_ne_true, if_neg Bool.false_ne_true, map_eq_pure_bind]
    refine (name_follows isMember start).bind fun mark _ scanned same => ?_
    subst same
    rw [scanned]
    exact .found rfl

/-- Bytes of a character that does not end a name are passed one by one. -/
theorem className_skip (isMember isShown : Bool) (start : Nat) {c : Char} {rest : List Char}
    (place : Place text (c :: rest)) (plain : ¬ (c = '.' ∨ c = ';') ∧ c ≠ '<')
    (steps count : Nat) (inside : count ≤ c.utf8Size) :
    className text (steps + count) isMember isShown start place.offset =
      className text steps isMember isShown start (place.offset + count) := by
  induction count generalizing steps with
  | zero => rfl
  | succ count inductionHypothesis =>
    obtain ⟨byte, member, known⟩ := place.peek_inside .endOfSignature inside
    obtain ⟨notEnd, notOpening⟩ := plain
    obtain ⟨notDot, notSemicolon⟩ := not_or.mp notEnd
    have goesOn : ¬ (asChar byte = '.' ∨ asChar byte = ';') :=
      not_or.mpr ⟨asChar_ne_of_mem_encode (by decide) notDot member,
        asChar_ne_of_mem_encode (by decide) notSemicolon member⟩
    rw [Nat.add_comm count 1, ← Nat.add_assoc, inductionHypothesis (steps + 1) (by omega),
      className, known, pure_bind, if_neg goesOn,
      if_neg (asChar_ne_of_mem_encode (by decide) notOpening member)]
    rw [Nat.add_comm 1 count, Nat.add_assoc]

theorem className_follows (known : ∀ less ≤ fewer, TypesFollow text less)
    {begun name rest : List Char} (isMember isShown : Bool) (start : Place text begun)
    (behind : begun = name ++ rest) (enough : 2 * byteLength rest ≤ fewer) :
    Follows text (SameScan text)
      (className text (fewer + 1) isMember isShown start.offset (start.offset + byteLength name))
      (scanName isMember isShown begun rest) := by
  subst behind
  have here := start.offset_past
  cases rest with
  | nil =>
    rw [className, ← here, start.past.peek_nil, scanName]
    exact .fault start.past _
  | cons c rest =>
    have size := c.utf8Size_pos
    have types := known fewer (Nat.le_refl _)
    rw [byteLength] at enough
    by_cases endMark : c = '.' ∨ c = ';'
    · have ascii : c.toNat < 128 := by rcases endMark with rfl | rfl <;> decide
      rw [className, ← here, start.past.peek_cons, pure_bind, scanName,
        asChar_firstByte ascii, if_pos endMark, if_pos endMark, here]
      refine (shownName_follows isMember isShown start).bind fun shown _ scanned same => ?_
      subst same
      rw [scanned]
      dsimp only
      rw [← here, ← start.past.offset_next_ascii ascii]
      by_cases semicolon : c = ';'
      · rw [if_pos semicolon, if_pos semicolon]
        exact .found ⟨rfl, _, rfl⟩
      rw [if_neg semicolon, if_neg semicolon]
      have course : Follows text (SameScan text)
          (className text fewer true false start.past.next.offset start.past.next.offset)
          (scanName true false rest rest) :=
        @TypesFollow.className text fewer types rest [] rest true false start.past.next rfl
          (by omega)
      refine course.bind ?_
      rintro ⟨marks, stop⟩ more scanned ⟨rfl, atRest⟩
      rw [scanned]
      exact .found ⟨rfl, atRest⟩
    by_cases opening : c = '<'
    · subst opening
      rw [className, ← here, start.past.peek_cons, pure_bind, scanName,
        asChar_firstByte (by decide), if_neg endMark, if_neg endMark, if_pos rfl, if_pos rfl, here]
      refine (name_follows isMember start).bind fun mark _ named same => ?_
      subst same
      rw [named]
      dsimp only
      rw [← here, ← start.past.offset_next_ascii (by decide)]
      refine (types.typeArguments start.past.next (by omega)).bind ?_
      rintro ⟨arguments, closing⟩ scan scanned ⟨rfl, bracket, rfl⟩
      rw [scanned]
      dsimp only
      have progress := scan.progress
      obtain ⟨skipped, split⟩ := start.suffix bracket (by
        rw [List.length_append, List.length_cons]
        omega)
      have fits := start.past.next.byteLength_le bracket progress
      have course := types.className isMember true start split.symm (by omega)
      rw [← start.offset_eq bracket split.symm] at course
      refine course.bind ?_
      rintro ⟨marks, stop⟩ more scanned ⟨rfl, atRest⟩
      rw [scanned]
      exact .found ⟨rfl, atRest⟩
    -- Any other character is part of the name, with all its bytes.
    have skipped := className_skip isMember isShown start.offset start.past ⟨endMark, opening⟩
      (fewer + 1 - c.utf8Size) c.utf8Size (Nat.le_refl _)
    have steps : fewer + 1 - c.utf8Size + c.utf8Size = fewer + 1 := by omega
    have split : name ++ c :: rest = (name ++ [c]) ++ rest := by rw [List.append_assoc]; rfl
    have course := (known (fewer + 1 - c.utf8Size) (by omega)).className isMember isShown start
      split (by omega)
    rw [← start.offset_eq start.past.next split, start.past.offset_next, ← skipped, steps,
      here] at course
    rw [scanName, if_neg endMark, if_neg opening,
      ← bind_pure (className text _ isMember isShown _ _)]
    refine course.bind ?_
    rintro ⟨marks, stop⟩ more scanned ⟨rfl, atRest⟩
    rw [scanned]
    exact .found ⟨rfl, atRest⟩

/-- The type of an argument and the arguments behind it. -/
theorem bounded_follows (types : TypesFollow text fewer) {whole rest : List Char}
    (place : Place text rest) (bound : Bound) (shorter : rest.length ≤ whole.length)
    (enough : 2 * byteLength rest < fewer) :
    Follows text (SameArguments text)
      (do
        let (type, next) ← Walk.type text fewer place.offset
        let (marks, stop) ← typeArguments text fewer next
        return (.argument bound :: (type ++ marks), stop))
      (@scanBounded whole bound rest shorter) := by
  rw [scanBounded]
  refine (types.type place enough).bind ?_
  rintro ⟨type, next⟩ scan scanned ⟨rfl, behind, rfl⟩
  rw [scanned]
  dsimp only
  have fits := place.byteLength_lt behind scan.progress
  refine (types.typeArguments behind (by omega)).bind ?_
  rintro ⟨marks, stop⟩ more scannedMore ⟨rfl, atRest⟩
  rw [scannedMore]
  exact .found ⟨rfl, atRest⟩

theorem typeArguments_follows (types : TypesFollow text fewer) {rest : List Char}
    (place : Place text rest) (enough : 2 * byteLength rest < fewer) :
    Follows text (SameArguments text) (typeArguments text (fewer + 1) place.offset)
      (scanArguments rest) := by
  cases rest with
  | nil =>
    rw [typeArguments, place.peek_nil, scanArguments]
    exact .fault place _
  | cons c rest =>
    have size := c.utf8Size_pos
    have all := enough
    rw [byteLength] at enough
    rw [typeArguments, place.peek_cons, pure_bind]
    simp only [asChar_firstByte_eq_iff (show '>'.toNat < 128 by decide),
      asChar_firstByte_eq_iff (show '*'.toNat < 128 by decide),
      asChar_firstByte_eq_iff (show '+'.toNat < 128 by decide),
      asChar_firstByte_eq_iff (show '-'.toNat < 128 by decide)]
    by_cases closing : c = '>'
    · subst closing
      rw [if_pos rfl, scanArguments]
      exact .found ⟨rfl, place, rfl⟩
    rw [if_neg closing]
    by_cases wildcard : c = '*'
    · subst wildcard
      rw [if_pos rfl, scanArguments, ← place.offset_next_ascii (by decide)]
      refine (types.typeArguments place.next (by omega)).bind ?_
      rintro ⟨marks, stop⟩ more scanned ⟨rfl, atRest⟩
      rw [scanned]
      exact .found ⟨rfl, atRest⟩
    rw [if_neg wildcard]
    by_cases plus : c = '+'
    · subst plus
      rw [if_pos rfl, scanArguments, ← place.offset_next_ascii (by decide)]
      exact bounded_follows types place.next .subtypes _ (by omega)
    rw [if_neg plus]
    by_cases minus : c = '-'
    · subst minus
      rw [if_pos rfl, scanArguments, ← place.offset_next_ascii (by decide)]
      exact bounded_follows types place.next .supertypes _ (by omega)
    rw [if_neg minus, scanArguments.eq_6 _ _ closing wildcard plus minus]
    exact bounded_follows types place .exactly _ all

end Steps

/-- Walks over types follow the scans, however many steps they have. -/
theorem typesFollow (text : String) (steps : Nat) : TypesFollow text steps := by
  induction steps using Nat.strongRecOn with
  | ind steps inductionHypothesis =>
    cases steps with
    | zero => exact ⟨nofun, nofun, nofun⟩
    | succ fewer =>
      have types := inductionHypothesis fewer (Nat.lt_succ_self _)
      exact
        { type := fun place enough => type_follows types place (Nat.le_of_lt_succ enough)
          className := fun isMember isShown start behind enough =>
            className_follows (fun less atMost => inductionHypothesis less
              (Nat.lt_succ_of_le atMost)) isMember isShown start behind (Nat.le_of_lt_succ enough)
          typeArguments := fun place enough =>
            typeArguments_follows types place (Nat.lt_of_succ_lt_succ enough) }

end JvmDiff.Signature
