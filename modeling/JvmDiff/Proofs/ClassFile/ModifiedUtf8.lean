import JvmDiff.ClassFile.ModifiedUtf8

/-!
# Texts in modified UTF-8

The bytes of a unit spell this unit and nothing else, and the units of a character spell this
character, whatever follows.  So every text is read from the bytes that are written for it, and
no two texts have the same bytes.
-/

namespace JvmDiff

/-! ## Characters and their units -/

namespace Text.Utf16

/-- A character is no half of a pair. -/
theorem not_half_of_char (c : Char) : (isHigh c.toNat || isLow c.toNat) = false := by
  have valid : c.toNat < 0xD800 ∨ 0xDFFF < c.toNat ∧ c.toNat < 0x110000 := c.valid
  simp only [isHigh, isLow, Bool.or_eq_false_iff, Bool.and_eq_false_iff, decide_eq_false_iff_not]
  omega

theorem unit_lt {c : Char} {unit : Nat} (member : unit ∈ unitsOf c) : unit < 0x10000 := by
  have valid : c.toNat < 0xD800 ∨ 0xDFFF < c.toNat ∧ c.toNat < 0x110000 := c.valid
  rw [unitsOf] at member
  split at member
  case isTrue small => exact List.mem_singleton.mp member ▸ small
  case isFalse large =>
    simp only [List.mem_cons, List.not_mem_nil, or_false] at member
    omega

/-- One unit that is no half of a pair spells a character, whatever follows. -/
theorem chars_cons {unit : Nat} (notHalf : (isHigh unit || isLow unit) = false)
    (rest : List Nat) : chars (unit :: rest) = (chars rest).map (Char.ofNat unit :: ·) := by
  obtain ⟨notHigh, notLow⟩ := Bool.or_eq_false_iff.mp notHalf
  cases rest with
  | nil => simp only [chars, notHalf, Bool.false_eq_true, if_false, Except.map]
  | cons next rest =>
    rw [chars]
    simp only [notHigh, notLow, Bool.false_and, Bool.or_self, Bool.false_eq_true, if_false]

theorem chars_pair {high low : Nat} (isPair : (isHigh high && isLow low) = true)
    (rest : List Nat) : chars (high :: low :: rest) = (chars rest).map (ofPair high low :: ·) := by
  rw [chars, isPair]
  rfl

theorem chars_unitsOf (c : Char) (rest : List Nat) :
    chars (unitsOf c ++ rest) = (chars rest).map (c :: ·) := by
  have valid : c.toNat < 0xD800 ∨ 0xDFFF < c.toNat ∧ c.toNat < 0x110000 := c.valid
  rw [unitsOf]
  split
  case isTrue small =>
    rw [List.singleton_append, chars_cons (not_half_of_char c), Char.ofNat_toNat]
  case isFalse large =>
    have isPair : (isHigh (0xD800 + (c.toNat - 0x10000) / 0x400) &&
        isLow (0xDC00 + (c.toNat - 0x10000) % 0x400)) = true := by
      simp only [isHigh, isLow, Bool.and_eq_true, decide_eq_true_eq]
      omega
    have same : ofPair (0xD800 + (c.toNat - 0x10000) / 0x400)
        (0xDC00 + (c.toNat - 0x10000) % 0x400) = c := by
      have code : 0x10000 + (0xD800 + (c.toNat - 0x10000) / 0x400 - 0xD800) * 0x400 +
          (0xDC00 + (c.toNat - 0x10000) % 0x400 - 0xDC00) = c.toNat := by omega
      rw [ofPair, code, Char.ofNat_toNat]
    rw [List.cons_append, List.singleton_append, chars_pair isPair, same]

theorem chars_flatMap_unitsOf (text : List Char) : chars (text.flatMap unitsOf) = .ok text := by
  induction text with
  | nil => rfl
  | cons c text inductionHypothesis =>
    rw [List.flatMap_cons, chars_unitsOf, inductionHypothesis]
    rfl

end Text.Utf16

/-! ## Units and their bytes -/

namespace ClassFile.ModifiedUtf8

theorem toNat_ofNat {n : Nat} (bound : n < 256) : (UInt8.ofNat n).toNat = n := by
  rw [UInt8.toNat_ofNat', Nat.mod_eq_of_lt bound]

/-- A byte that continues a unit gives back its six bits. -/
theorem continuation_ofNat (n : Nat) :
    continuation (some (UInt8.ofNat (0x80 + n % 64))) = .ok (n % 64) := by
  have value : (UInt8.ofNat (0x80 + n % 64)).toNat = 0x80 + n % 64 := toNat_ofNat (by omega)
  rw [continuation, value, if_pos (by omega)]
  congr 1
  omega

theorem units_bytesOf {unit : Nat} (bound : unit < 0x10000) (rest : List UInt8) :
    units (bytesOf unit ++ rest) = (units rest).map (unit :: ·) := by
  rw [bytesOf]
  split
  case isTrue small =>
    have value : (UInt8.ofNat unit).toNat = unit := toNat_ofNat (by omega)
    rw [List.singleton_append, units, value, if_pos small.2]
  case isFalse notSmall =>
    split
    case isTrue medium =>
      have value : (UInt8.ofNat (0xC0 + unit / 64)).toNat = 0xC0 + unit / 64 :=
        toNat_ofNat (by omega)
      have code : (0xC0 + unit / 64) % 32 * 64 + unit % 64 = unit := by omega
      rw [List.cons_append, List.singleton_append, units, value, if_neg (by omega),
        if_pos (by omega), List.head?_cons, continuation_ofNat, List.drop_one, List.tail_cons]
      change (units rest >>= fun more => Except.ok (_ :: more)) = _
      rw [code]
      cases units rest <;> rfl
    case isFalse large =>
      have value : (UInt8.ofNat (0xE0 + unit / 4096)).toNat = 0xE0 + unit / 4096 :=
        toNat_ofNat (by omega)
      have code : (0xE0 + unit / 4096) % 16 * 4096 + unit / 64 % 64 * 64 + unit % 64 = unit := by
        omega
      rw [List.cons_append, List.cons_append, List.singleton_append, units, value,
        if_neg (by omega), if_neg (by omega), if_pos (by omega), List.head?_cons,
        continuation_ofNat, List.drop_one, List.tail_cons, List.head?_cons, continuation_ofNat]
      change (units rest >>= fun more => Except.ok (_ :: more)) = _
      rw [code]
      cases units rest <;> rfl

/-- No byte of a unit is zero, and none begins a group of four bytes. -/
theorem toNat_mem_bytesOf {unit : Nat} (bound : unit < 0x10000) {byte : UInt8}
    (member : byte ∈ bytesOf unit) : 0 < byte.toNat ∧ byte.toNat < 0xF0 := by
  have written : ∀ {n : Nat}, byte = UInt8.ofNat n → 0 < n → n < 0xF0 →
      0 < byte.toNat ∧ byte.toNat < 0xF0 := by
    rintro n rfl positive small
    rw [toNat_ofNat (by omega)]
    exact ⟨positive, small⟩
  rw [bytesOf] at member
  split at member
  case isTrue small =>
    exact written (List.mem_singleton.mp member) small.1 (by omega)
  case isFalse notSmall =>
    split at member
    all_goals simp only [List.mem_cons, List.not_mem_nil, or_false] at member
    case isTrue medium =>
      rcases member with first | second
      · exact written first (by omega) (by omega)
      · exact written second (by omega) (by omega)
    case isFalse large =>
      rcases member with first | second | third
      · exact written first (by omega) (by omega)
      · exact written second (by omega) (by omega)
      · exact written third (by omega) (by omega)

theorem units_flatMap_bytesOf {found : List Nat} (bound : ∀ unit ∈ found, unit < 0x10000) :
    units (found.flatMap bytesOf) = .ok found := by
  induction found with
  | nil =>
    rw [List.flatMap_nil, units]
  | cons unit found inductionHypothesis =>
    obtain ⟨first, rest⟩ := List.forall_mem_cons.mp bound
    rw [List.flatMap_cons, units_bytesOf first, inductionHypothesis rest]
    rfl

theorem unit_lt_of_mem_text {text : List Char} {unit : Nat}
    (member : unit ∈ text.flatMap Text.Utf16.unitsOf) : unit < 0x10000 := by
  obtain ⟨c, _, inUnits⟩ := List.mem_flatMap.mp member
  exact Text.Utf16.unit_lt inUnits

/-- A text is read from its bytes. -/
theorem decode_encode (text : String) : decode (encode text) = .ok text := by
  have known := Text.Utf16.chars_flatMap_unitsOf text.toList
  rw [decode, encode, units_flatMap_bytesOf fun _ => unit_lt_of_mem_text]
  refine (pure_bind _ _).trans ?_
  rw [known]
  exact congrArg Except.ok String.ofList_toList

theorem encode_append (first second : String) :
    encode (first ++ second) = encode first ++ encode second := by
  rw [encode, String.toList_append, List.flatMap_append, List.flatMap_append]
  rfl

theorem toNat_mem_encode {text : String} {byte : UInt8} (member : byte ∈ encode text) :
    0 < byte.toNat ∧ byte.toNat < 0xF0 := by
  obtain ⟨unit, inText, inBytes⟩ := List.mem_flatMap.mp member
  exact toNat_mem_bytesOf (unit_lt_of_mem_text inText) inBytes

/-- Decoding undoes encoding.  The bytes of a text have no zero among them and none that begins
a group of four, and they tell the text from every other one. -/
theorem decode_undoes_encode :
    (∀ text : String, decode (encode text) = .ok text ∧
      ∀ byte ∈ encode text, byte ≠ 0 ∧ byte < 0xF0) ∧
      Function.Injective encode := by
  refine ⟨fun text => ⟨decode_encode text, fun byte member => ?_⟩, fun first second same => ?_⟩
  · obtain ⟨positive, small⟩ := toNat_mem_encode member
    refine ⟨?_, UInt8.lt_iff_toNat_lt.mpr small⟩
    rintro rfl
    exact absurd positive (Nat.lt_irrefl 0)
  · have decoded := decode_encode first
    rw [same, decode_encode second] at decoded
    exact (Except.ok.inj decoded).symm

/-- A zero takes two bytes, and a character above sixteen bits two groups of three. -/
example : decode (encode "a\x00é😀") = .ok "a\x00é😀" ∧
    encode "a\x00é😀" =
      [0x61, 0xC0, 0x80, 0xC3, 0xA9, 0xED, 0xA0, 0xBD, 0xED, 0xB8, 0x80] :=
  ⟨decode_encode _, by decide +kernel⟩

end ClassFile.ModifiedUtf8

end JvmDiff
