import JvmDiff.Proofs.Signature.Scanning
import JvmDiff.Proofs.Signature.Walk
import Mathlib.Data.List.Infix

/-!
# Places in the bytes of a text

A place is where a character of the text begins, or its end: the text is what is before it and the
rest.  At a place, looking at a byte, looking for a mark and cutting out a piece do what is done to
the rest of the text character by character.
-/

namespace JvmDiff.Signature

/-! ## Bytes of characters -/

theorem byteLength_append (first second : List Char) :
    byteLength (first ++ second) = byteLength first + byteLength second := by
  induction first with
  | nil => rw [List.nil_append, byteLength, Nat.zero_add]
  | cons c first inductionHypothesis =>
    rw [List.cons_append, byteLength, byteLength, inductionHypothesis, Nat.add_assoc]

theorem byteLength_pos {text : List Char} (nonempty : text ≠ []) : 0 < byteLength text := by
  cases text with
  | nil => exact absurd rfl nonempty
  | cons c rest => exact Nat.add_pos_left c.utf8Size_pos _

theorem length_encoded (text : List Char) :
    (text.flatMap String.utf8EncodeChar).length = byteLength text := by
  induction text with
  | nil => rfl
  | cons c rest inductionHypothesis =>
    rw [List.flatMap_cons, List.length_append, inductionHypothesis, String.length_utf8EncodeChar,
      byteLength]

/-- The first byte of a character. -/
def firstByte (c : Char) : UInt8 :=
  (String.utf8EncodeChar c).headD 0

theorem encode_ascii {c : Char} (ascii : c.toNat < 128) :
    String.utf8EncodeChar c = [UInt8.ofNat c.toNat] := by
  have small : c.val.toNat ≤ 127 := Nat.le_of_lt_succ ascii
  rw [String.utf8EncodeChar, if_pos small]
  rfl

/-- All bytes of a character that is not ASCII are above the ASCII range. -/
theorem le_of_mem_encode {c : Char} (notAscii : 128 ≤ c.toNat) {byte : UInt8}
    (member : byte ∈ String.utf8EncodeChar c) : 128 ≤ byte.toNat := by
  have large : ¬ c.val.toNat ≤ 127 := Nat.not_le_of_lt notAscii
  rw [String.utf8EncodeChar, if_neg large] at member
  have above {n : Nat} (low : 128 ≤ n) (high : n < 256) : 128 ≤ (UInt8.ofNat n).toNat := by
    rw [UInt8.toNat_ofNat', Nat.mod_eq_of_lt high]
    exact low
  split at member
  · simp only [List.mem_cons, List.not_mem_nil, or_false] at member
    rcases member with rfl | rfl <;> exact above (by omega) (by omega)
  split at member
  · simp only [List.mem_cons, List.not_mem_nil, or_false] at member
    rcases member with rfl | rfl | rfl <;> exact above (by omega) (by omega)
  · simp only [List.mem_cons, List.not_mem_nil, or_false] at member
    rcases member with rfl | rfl | rfl | rfl <;> exact above (by omega) (by omega)

theorem encode_eq_cons (c : Char) :
    String.utf8EncodeChar c = firstByte c :: (String.utf8EncodeChar c).tail := by
  have nonempty : String.utf8EncodeChar c ≠ [] := String.utf8EncodeChar_ne_nil
  cases known : String.utf8EncodeChar c with
  | nil => exact absurd known nonempty
  | cons byte bytes => rw [firstByte, known]; rfl

namespace Walk

theorem toNat_asChar (byte : UInt8) : (asChar byte).toNat = byte.toNat := by
  have valid : byte.toNat.isValidChar := Or.inl (Nat.lt_trans byte.toNat_lt (by decide))
  rw [asChar, Char.ofNat, dif_pos valid]
  rfl

theorem asChar_ne {byte : UInt8} (large : 128 ≤ byte.toNat) {mark : Char}
    (ascii : mark.toNat < 128) : asChar byte ≠ mark := by
  rintro rfl
  rw [toNat_asChar] at ascii
  omega

theorem asChar_firstByte {c : Char} (ascii : c.toNat < 128) : asChar (firstByte c) = c := by
  have value : (UInt8.ofNat c.toNat).toNat = c.toNat := by
    rw [UInt8.toNat_ofNat', Nat.mod_eq_of_lt (by omega)]
  rw [firstByte, encode_ascii ascii, List.headD_cons, asChar, value, Char.ofNat_toNat]

theorem firstByte_mem (c : Char) : firstByte c ∈ String.utf8EncodeChar c := by
  rw [encode_eq_cons]
  exact List.mem_cons_self

/-- The only character with a mark among its bytes is the mark. -/
theorem asChar_ne_of_mem_encode {c mark : Char} (ascii : mark.toNat < 128) (other : c ≠ mark)
    {byte : UInt8} (member : byte ∈ String.utf8EncodeChar c) : asChar byte ≠ mark := by
  by_cases small : c.toNat < 128
  · rw [encode_ascii small, List.mem_singleton] at member
    have known := asChar_firstByte small
    rw [firstByte, encode_ascii small, List.headD_cons, ← member] at known
    exact fun same => other (known.symm.trans same)
  · exact asChar_ne (le_of_mem_encode (Nat.le_of_not_lt small) member) ascii

theorem asChar_firstByte_eq_iff {c mark : Char} (ascii : mark.toNat < 128) :
    asChar (firstByte c) = mark ↔ c = mark := by
  constructor
  · intro same
    by_contra other
    exact asChar_ne_of_mem_encode ascii other (firstByte_mem c) same
  · rintro rfl
    exact asChar_firstByte ascii

theorem primitiveName?_eq_none {c : Char} (notAscii : 128 ≤ c.toNat) : primitiveName? c = none := by
  rw [primitiveName?, Option.map_eq_none_iff, List.find?_eq_none]
  intro entry member same
  have isLetter := of_decide_eq_true same
  subst isLetter
  revert entry
  decide

theorem primitiveName?_firstByte (c : Char) :
    primitiveName? (asChar (firstByte c)) = primitiveName? c := by
  by_cases small : c.toNat < 128
  · rw [asChar_firstByte small]
  · have large : 128 ≤ c.toNat := Nat.le_of_not_lt small
    have notAscii : 128 ≤ (asChar (firstByte c)).toNat := by
      rw [toNat_asChar]
      exact le_of_mem_encode large (firstByte_mem c)
    rw [primitiveName?_eq_none large, primitiveName?_eq_none notAscii]

/-! ## Pieces of a list of characters -/

theorem findIdx?_encoded {mark : Char} (ascii : mark.toNat < 128) (rest : List Char) :
    ((rest.flatMap String.utf8EncodeChar).findIdx? fun byte => asChar byte = mark) =
      (splitAtMark mark rest).map fun parts => byteLength parts.1 := by
  induction rest with
  | nil => rfl
  | cons c rest inductionHypothesis =>
    rw [List.flatMap_cons, List.findIdx?_append, inductionHypothesis, splitAtMark]
    by_cases isMark : c = mark
    · subst isMark
      have single : asChar (UInt8.ofNat c.toNat) = c := by
        have known := asChar_firstByte ascii
        rwa [firstByte, encode_ascii ascii, List.headD_cons] at known
      rw [if_pos rfl, encode_ascii ascii, List.findIdx?_cons, if_pos (decide_eq_true single)]
      rfl
    · have none : (String.utf8EncodeChar c).findIdx? (fun byte => asChar byte = mark) = none := by
        rw [List.findIdx?_eq_none_iff]
        exact fun byte member => decide_eq_false (asChar_ne_of_mem_encode ascii isMark member)
      rw [if_neg isMark, none, Option.none_or, Option.map_map, Option.map_map,
        String.length_utf8EncodeChar]
      refine congrArg (Option.map · _) (funext fun parts => ?_)
      exact Nat.add_comm _ _

theorem splitAtByte_append (before rest : List Char) :
    splitAtByte (byteLength before) (before ++ rest) = some (before, rest) := by
  induction before with
  | nil => cases rest <;> rfl
  | cons c before inductionHypothesis =>
    have positive := c.utf8Size_pos
    obtain ⟨others, size⟩ : ∃ others, byteLength (c :: before) = others + 1 :=
      Nat.exists_eq_succ_of_ne_zero (Nat.ne_of_gt (byteLength_pos (List.cons_ne_nil c before)))
    have known : c.utf8Size + byteLength before = others + 1 := size
    have behind : others + 1 - c.utf8Size = byteLength before := by omega
    rw [size, List.cons_append, splitAtByte, if_pos (by omega), behind, inductionHypothesis]
    rfl

/-! ## Bytes of a text -/

theorem bytesOf_eq (text : String) : bytesOf text = text.toList.flatMap String.utf8EncodeChar := by
  have known : text.toUTF8 = text.toList.utf8Encode := by
    rw [String.toUTF8_eq_toByteArray, ← String.toByteArray_ofList, String.ofList_toList]
  rw [bytesOf, known, List.utf8Encode, List.data_toByteArray]

theorem length_bytesOf (text : String) : (bytesOf text).length = byteLength text.toList := by
  rw [bytesOf_eq, length_encoded]

theorem byteLength_toList (text : String) : byteLength text.toList = text.utf8ByteSize := by
  rw [← length_bytesOf, bytesOf, String.toUTF8_eq_toByteArray, ← String.size_toByteArray]
  rfl

end Walk

/-- A place in the text with the given rest. -/
structure Place (text : String) (rest : List Char) where
  before : List Char
  split : text.toList = before ++ rest

namespace Place

open Walk

variable {text : String} {c : Char} {rest : List Char}

def offset (place : Place text rest) : Nat :=
  byteLength place.before

/-- The beginning of the text. -/
def first (text : String) : Place text text.toList :=
  ⟨[], rfl⟩

/-- The place behind the next characters. -/
def past {piece : List Char} (place : Place text (piece ++ rest)) : Place text rest :=
  ⟨place.before ++ piece, by rw [place.split, List.append_assoc]⟩

theorem offset_past {piece : List Char} (place : Place text (piece ++ rest)) :
    (place.past).offset = place.offset + byteLength piece :=
  byteLength_append place.before piece

/-- The place behind the next character. -/
def next (place : Place text (c :: rest)) : Place text rest :=
  @past text rest [c] place

theorem offset_next (place : Place text (c :: rest)) :
    place.next.offset = place.offset + c.utf8Size :=
  @offset_past text rest [c] place

theorem offset_next_ascii (place : Place text (c :: rest)) (ascii : c.toNat < 128) :
    place.next.offset = place.offset + 1 := by
  rw [offset_next, ← String.length_utf8EncodeChar, encode_ascii ascii]
  rfl

theorem offset_add (place : Place text rest) :
    place.offset + byteLength rest = (bytesOf text).length := by
  rw [length_bytesOf, place.split, byteLength_append]
  rfl

theorem byteLength_le_text (place : Place text rest) : byteLength rest ≤ byteLength text.toList := by
  rw [place.split, byteLength_append]
  exact Nat.le_add_left _ _

theorem drop_bytesOf (place : Place text rest) :
    (bytesOf text).drop place.offset = rest.flatMap String.utf8EncodeChar := by
  rw [bytesOf_eq, place.split, List.flatMap_append, offset, ← length_encoded, List.drop_left]

theorem getElem?_bytesOf (place : Place text (c :: rest)) {count : Nat}
    (inside : count < c.utf8Size) :
    (bytesOf text)[place.offset + count]? = (String.utf8EncodeChar c)[count]? := by
  rw [← List.getElem?_drop, place.drop_bytesOf, List.flatMap_cons, List.getElem?_append_left]
  rwa [String.length_utf8EncodeChar]

theorem getElem?_bytesOf_offset (place : Place text (c :: rest)) :
    (bytesOf text)[place.offset]? = some (firstByte c) := by
  have known := place.getElem?_bytesOf c.utf8Size_pos
  rw [Nat.add_zero, encode_eq_cons, List.getElem?_cons_zero] at known
  exact known

theorem getElem?_bytesOf_end (place : Place text []) : (bytesOf text)[place.offset]? = none := by
  have whole := place.offset_add
  rw [byteLength, Nat.add_zero] at whole
  exact List.getElem?_eq_none (Nat.le_of_eq whole.symm)

theorem offset_eq_length_iff (place : Place text rest) :
    place.offset = (bytesOf text).length ↔ rest = [] := by
  have whole := place.offset_add
  constructor
  · intro atEnd
    by_contra nonempty
    have := byteLength_pos nonempty
    omega
  · rintro rfl
    exact whole

/-- Of two places the one with the shorter rest comes later. -/
theorem suffix (place : Place text rest) {other : List Char} (later : Place text other)
    (shorter : other.length ≤ rest.length) : other <:+ rest :=
  List.suffix_of_suffix_length_le ⟨later.before, later.split.symm⟩ ⟨place.before, place.split.symm⟩
    shorter

theorem byteLength_le (place : Place text rest) {other : List Char} (later : Place text other)
    (shorter : other.length ≤ rest.length) : byteLength other ≤ byteLength rest := by
  obtain ⟨piece, rfl⟩ := place.suffix later shorter
  rw [byteLength_append]
  exact Nat.le_add_left _ _

theorem byteLength_lt (place : Place text rest) {other : List Char} (later : Place text other)
    (shorter : other.length < rest.length) : byteLength other < byteLength rest := by
  obtain ⟨piece, rfl⟩ := place.suffix later (Nat.le_of_lt shorter)
  have nonempty : piece ≠ [] := by
    rintro rfl
    exact Nat.lt_irrefl _ shorter
  have := byteLength_pos nonempty
  rw [byteLength_append]
  omega

/-- Where a place is depends on its rest only. -/
theorem offset_eq {begun piece : List Char} (place : Place text begun) (later : Place text rest)
    (split : begun = piece ++ rest) : later.offset = place.offset + byteLength piece := by
  subst split
  have whole := place.offset_add
  rw [← later.offset_add, byteLength_append] at whole
  omega

/-! ## Steps at a place -/

variable (ending : Reason)

theorem peek_cons (place : Place text (c :: rest)) :
    peek text place.offset ending = pure (firstByte c) := by
  rw [peek, place.getElem?_bytesOf_offset]

theorem peek_nil (place : Place text []) :
    peek text place.offset ending = malformed text place.offset ending := by
  rw [peek, place.getElem?_bytesOf_end]

theorem peek_inside (place : Place text (c :: rest)) {count : Nat}
    (inside : count < c.utf8Size) :
    ∃ byte ∈ String.utf8EncodeChar c, peek text (place.offset + count) ending = pure byte := by
  have within : count < (String.utf8EncodeChar c).length := by
    rwa [String.length_utf8EncodeChar]
  refine ⟨_, List.getElem_mem within, ?_⟩
  rw [peek, place.getElem?_bytesOf inside, List.getElem?_eq_getElem within]

theorem find_found (place : Place text rest) {mark : Char} (ascii : mark.toNat < 128)
    {piece after : List Char} (found : splitAtMark mark rest = some (piece, after)) :
    find text place.offset mark = pure (place.offset + byteLength piece) := by
  rw [find, place.drop_bytesOf, findIdx?_encoded ascii, found]
  rfl

theorem find_missing (place : Place text rest) {mark : Char} (ascii : mark.toNat < 128)
    (missing : splitAtMark mark rest = none) :
    find text place.offset mark = malformed text place.offset (.missing mark) := by
  rw [find, place.drop_bytesOf, findIdx?_encoded ascii, missing]
  rfl

/-- The piece between two places. -/
theorem slice_eq {piece : List Char} (place : Place text (piece ++ rest)) :
    slice text place.offset (place.offset + byteLength piece) = pure (String.ofList piece) := by
  have whole := place.past.offset_add
  rw [offset_past] at whole
  have inside : ¬ (place.offset + byteLength piece < place.offset ∨
      (bytesOf text).length < place.offset + byteLength piece) := by omega
  have toStop : splitAtByte (place.offset + byteLength piece) text.toList =
      some (place.before ++ piece, rest) := by
    rw [place.split, ← List.append_assoc, offset, ← byteLength_append]
    exact splitAtByte_append _ _
  rw [slice, if_neg inside, toStop]
  dsimp only
  rw [offset, splitAtByte_append]

/-- No piece ends inside a character. -/
example : slice "Té;" 1 2 = throw .offBoundary := rfl

theorem isValid (place : Place text rest) :
    (⟨place.offset⟩ : String.Pos.Raw).IsValid text := by
  rw [String.Pos.Raw.isValid_iff_exists_append]
  refine ⟨String.ofList place.before, String.ofList rest, ?_, ?_⟩
  · rw [← String.ofList_append, ← place.split, String.ofList_toList]
  · have size : (String.ofList place.before).utf8ByteSize = place.offset := by
      rw [← byteLength_toList, String.toList_ofList]
      rfl
    rw [String.rawEndPos, size]

end Place

/-- The fault is one of the text, at a place of it. -/
structure Malformed.LiesIn (fault : Malformed) (text : String) : Prop where
  isText : fault.text = text
  bound : fault.position ≤ text.utf8ByteSize
  onBoundary : (⟨fault.position⟩ : String.Pos.Raw).IsValid text

theorem Place.liesIn {text : String} {rest : List Char} (place : Place text rest)
    (reason : Reason) : (Fault.within ⟨rest, reason⟩ text).LiesIn text := by
  have position : byteLength text.toList - byteLength rest = place.offset := by
    rw [place.split, byteLength_append, Nat.add_sub_cancel]
    rfl
  have whole := place.offset_add
  rw [Walk.length_bytesOf, Walk.byteLength_toList] at whole
  refine ⟨rfl, ?_, ?_⟩
  · change byteLength text.toList - byteLength rest ≤ _
    omega
  · change String.Pos.Raw.IsValid text ⟨byteLength text.toList - byteLength rest⟩
    rw [position]
    exact place.isValid

end JvmDiff.Signature
