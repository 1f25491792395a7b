import JvmDiff.Proofs.ClassFile.TextFaults
import JvmDiff.Proofs.Text.Halves

/-!
# Text constants

A text constant of a class file may have any sixteen-bit units.  It is read if no half of a pair
stands alone among them.  Behind the constant pool no text is spelled any more, so these are the
only class files that are rejected for a text.
-/

namespace JvmDiff.ClassFile

open Reader
open Text.Utf16 (InPairs IsFirstLone)

/-! ## Units -/

namespace ModifiedUtf8

/-- The bytes of units, one unit after another. -/
def unitBytes (units : List UInt16) : List UInt8 :=
  units.flatMap fun unit => bytesOf unit.toNat

theorem unit_bound (units : List UInt16) : ∀ unit ∈ units.map UInt16.toNat, unit < 0x10000 := by
  intro unit member
  obtain ⟨found, _, rfl⟩ := List.mem_map.mp member
  exact found.toNat_lt

theorem decode_unitBytes (units : List UInt16) :
    decode (unitBytes units) = match Text.Utf16.chars (units.map UInt16.toNat) with
      | .ok text => .ok (String.ofList text)
      | .error unit => .error (.unpairedSurrogate unit) := by
  have found := units_flatMap_bytesOf (unit_bound units)
  rw [List.flatMap_map] at found
  rw [decode, unitBytes, found]
  rfl

theorem decode_unitBytes_eq_ok_iff {units : List UInt16} {text : String} :
    decode (unitBytes units) = .ok text ↔
      text.toList.flatMap Text.Utf16.unitsOf = units.map UInt16.toNat := by
  have spelled := @Text.Utf16.chars_eq_ok_iff _ (unit_bound units) text.toList
  rw [decode_unitBytes, ← spelled]
  cases Text.Utf16.chars (units.map UInt16.toNat) with
  | error unit => exact ⟨nofun, nofun⟩
  | ok found =>
    dsimp only
    rw [Except.ok.injEq, Except.ok.injEq]
    constructor
    · rintro rfl
      exact String.toList_ofList.symm
    · rintro rfl
      exact String.ofList_toList

theorem decode_unitBytes_eq_error_iff {units : List UInt16} {error : Error} :
    decode (unitBytes units) = .error error ↔
      ∃ unit, IsFirstLone (units.map UInt16.toNat) unit ∧ error = .unpairedSurrogate unit := by
  have spelled := @Text.Utf16.chars_eq_error_iff _ (unit_bound units)
  simp only [← spelled]
  rw [decode_unitBytes]
  cases Text.Utf16.chars (units.map UInt16.toNat) with
  | ok found => simp
  | error unit => simp [eq_comm]

theorem decode_unitBytes_isOk_iff {units : List UInt16} :
    (∃ text, decode (unitBytes units) = .ok text) ↔ InPairs (units.map UInt16.toNat) := by
  rw [← Text.Utf16.exists_text_iff_inPairs (unit_bound units)]
  simp only [decode_unitBytes_eq_ok_iff]
  constructor
  · rintro ⟨text, spelled⟩
    exact ⟨text.toList, spelled⟩
  · rintro ⟨text, spelled⟩
    exact ⟨String.ofList text, by rwa [String.toList_ofList]⟩

end ModifiedUtf8

open ModifiedUtf8 (unitBytes)

/-! ## Constants -/

/-- The number of bytes behind the tag of a constant that is no text. -/
def payloadLength : Nat → Option Nat
  | 3 | 4 => some 4
  | 5 | 6 => some 8
  | 7 | 8 | 16 | 19 | 20 => some 2
  | 9 | 10 | 11 | 12 | 17 | 18 => some 4
  | 15 => some 3
  | _ => none

/-- The number of slots that a constant of the tag takes. -/
def slotCount (tag : Nat) : Nat :=
  if tag = 5 ∨ tag = 6 then 2 else 1

/-- A constant as it is laid out: a text of any units, or any other tag with as many
bytes as it asks for. -/
inductive LaidConstant where
  | text (units : List UInt16) (short : (unitBytes units).length ≤ 0xFFFF)
  | plain (tag : UInt8) (payload : List UInt8)
      (whole : payloadLength tag.toNat = some payload.length)

namespace LaidConstant

def bytes : LaidConstant → List UInt8
  | .text units _ => [1] ++ (bigEndian 2 (unitBytes units).length ++ unitBytes units)
  | .plain tag payload _ => [tag] ++ payload

/-- The number of slots that the constant takes. -/
def width : LaidConstant → Nat
  | .text _ _ => 1
  | .plain tag _ _ => slotCount tag.toNat

/-- The constant is a text in which half of a pair stands alone. -/
def IsBroken : LaidConstant → Prop
  | .text units _ => ¬ InPairs (units.map UInt16.toNat)
  | .plain _ _ _ => False

theorem reads_payload {count : Nat} {payload : List UInt8} (whole : payload.length = count) :
    Reads (number count) payload (ofBigEndian payload) := by
  have reads := reads_number (ofBigEndian_lt payload)
  rwa [bigEndian_ofBigEndian, whole] at reads

/-- A constant of one number, or of two. -/
theorem exists_one {count size : Nat} {payload : List UInt8}
    (whole : some count = some payload.length) (make : Nat → Entry)
    (sizes : ∀ n, (make n).width = size) :
    ∃ entry, Reads (do return make (← number count)) payload entry ∧ entry.width = size :=
  ⟨_, (reads_payload (Option.some.inj whole).symm).bind_nil (reads_pure _), sizes _⟩

theorem exists_two {first second : Nat} {payload : List UInt8}
    (whole : some (first + second) = some payload.length) (make : Nat → Nat → Entry)
    (sizes : ∀ n m, (make n m).width = 1) :
    ∃ entry, Reads (do return make (← number first) (← number second)) payload entry ∧
      entry.width = 1 := by
  have length := Option.some.inj whole
  have front : (payload.take first).length = first := by
    rw [List.length_take]
    omega
  have back : (payload.drop first).length = second := by
    rw [List.length_drop]
    omega
  have reads : Reads (do return make (← number first) (← number second))
      (payload.take first ++ payload.drop first) (make _ _) :=
    (reads_payload front).bind ((reads_payload back).bind_nil (reads_pure _))
  rw [List.take_append_drop] at reads
  exact ⟨_, reads, sizes _ _⟩

/-- A tag and the bytes that it asks for are read as an entry of its width. -/
theorem exists_plain {tag : UInt8} {payload : List UInt8}
    (whole : payloadLength tag.toNat = some payload.length) (slot : Nat) :
    ∃ entry, Reads (Entry.read slot) ([tag] ++ payload) entry ∧
      entry.width = slotCount tag.toNat := by
  have readsTag : Reads u1 [tag] tag.toNat := by
    have reads := reads_u1 tag.toNat_lt
    rwa [UInt8.ofNat_toNat] at reads
  have behindTag {next : Nat → Reader Entry} {size : Nat}
      (found : ∃ entry, Reads (next tag.toNat) payload entry ∧ entry.width = size) :
      ∃ entry, Reads (u1 >>= next) ([tag] ++ payload) entry ∧ entry.width = size := by
    obtain ⟨entry, reads, same⟩ := found
    exact ⟨entry, readsTag.bind reads, same⟩
  refine behindTag ?_
  generalize tag.toNat = n at whole
  unfold payloadLength at whole
  split at whole
  case h_1 => exact exists_one whole (fun n => .integer (Int32.ofNat n)) fun _ => rfl
  case h_2 => exact exists_one whole (fun n => .float ⟨UInt32.ofNat n⟩) fun _ => rfl
  case h_3 => exact exists_one whole (fun n => .long (Int64.ofNat n)) fun _ => rfl
  case h_4 => exact exists_one whole (fun n => .double ⟨UInt64.ofNat n⟩) fun _ => rfl
  case h_5 => exact exists_one whole .classRef fun _ => rfl
  case h_6 => exact exists_one whole .string fun _ => rfl
  case h_7 => exact exists_one whole .methodType fun _ => rfl
  case h_8 => exact exists_one whole .moduleRef fun _ => rfl
  case h_9 => exact exists_one whole .packageRef fun _ => rfl
  case h_10 | h_11 | h_12 => exact exists_two whole .memberRef fun _ _ => rfl
  case h_13 => exact exists_two whole .nameAndType fun _ _ => rfl
  case h_14 | h_15 => exact exists_two whole .dynamic fun _ _ => rfl
  case h_16 => exact exists_two whole .methodHandle fun _ _ => rfl
  case h_17 => cases whole

variable {constant : LaidConstant}

theorem width_pos (constant : LaidConstant) : 0 < constant.width := by
  cases constant with
  | text units short => exact Nat.one_pos
  | plain tag payload whole =>
    rw [width, slotCount]
    split <;> decide

theorem exists_entry (sound : ¬ constant.IsBroken) (slot : Nat) :
    ∃ entry, Reads (Entry.read slot) constant.bytes entry ∧ entry.width = constant.width := by
  cases constant with
  | plain tag payload whole => exact exists_plain whole slot
  | text units short =>
    obtain ⟨text, decodes⟩ := ModifiedUtf8.decode_unitBytes_isOk_iff.mpr (not_not.mp sound)
    have reads : Reads Entry.readText
        (bigEndian 2 (unitBytes units).length ++ unitBytes units) text :=
      (reads_u2 (Nat.lt_succ_of_le short)).bind ((reads_take _).bind_nil (reads_ofExcept decodes))
    exact ⟨.utf8 text, (reads_u1 (n := 1) (by decide)).bind (reads.bind_nil (reads_pure _)), rfl⟩

theorem exists_refused (broken : constant.IsBroken) (slot : Nat) :
    ∃ unit, Refuses (Entry.read slot) constant.bytes (.unpairedSurrogate unit) := by
  cases constant with
  | plain tag payload whole => exact broken.elim
  | text units short =>
    cases decodes : ModifiedUtf8.decode (unitBytes units) with
    | ok text => exact absurd (ModifiedUtf8.decode_unitBytes_isOk_iff.mp ⟨text, decodes⟩) broken
    | error error =>
      obtain ⟨unit, _, rfl⟩ := ModifiedUtf8.decode_unitBytes_eq_error_iff.mp decodes
      have refuses : Refuses Entry.readText
          (bigEndian 2 (unitBytes units).length ++ (unitBytes units ++ []))
          (.unpairedSurrogate unit) := by
        refine (reads_u2 (Nat.lt_succ_of_le short)).refuses ((reads_take _).refuses ?_)
        intro position rest
        rw [decodes]
        rfl
      rw [List.append_nil] at refuses
      exact ⟨unit, (reads_u1 (n := 1) (by decide)).refuses refuses.bind⟩

end LaidConstant

theorem Reader.Refuses.append {α : Type} {read : Reader α} {bytes : List UInt8} {error : Error}
    (refuses : Refuses read bytes error) (more : List UInt8) :
    Refuses read (bytes ++ more) error := by
  intro position rest
  rw [List.append_assoc]
  exact refuses position (more ++ rest)

/-- A step that takes the bytes leaves the rest to the next one. -/
theorem Reader.Reads.bind_apply {α β : Type} {read : Reader α} {bytes : List UInt8} {value : α}
    (reads : Reads read bytes value) (next : α → Reader β) (position : Nat) (rest : List UInt8) :
    (read >>= next) ⟨position, bytes ++ rest⟩ = next value ⟨position + bytes.length, rest⟩ := by
  change (read ⟨position, bytes ++ rest⟩ >>= fun found => next found.1 found.2) = _
  rw [reads]
  rfl

/-! ## The constant pool -/

namespace ConstantPool

/-- Slots are filled by an entry, and then by what is read behind it. -/
theorem readSlots_of_reads {slot : Nat} {bytes : List UInt8} {entry : Entry}
    (reads : Reads (Entry.read slot) bytes entry) (missing position : Nat) (rest : List UInt8) :
    readSlots (entry.width + missing) slot ⟨position, bytes ++ rest⟩ =
      (readSlots missing (slot + entry.width) ⟨position + bytes.length, rest⟩).map fun found =>
        (slotsOf [entry] ++ found.1, found.2) := by
  have known := reads position rest
  have slots : slotsOf [entry] = if entry.isWide then [some entry, none] else [some entry] :=
    List.append_nil _
  rw [Entry.width, slots]
  cases isWide : entry.isWide with
  | true =>
    have more : 2 + missing = missing + 1 + 1 := by omega
    rw [if_pos rfl, if_pos rfl, more, readSlots]
    change (Entry.read slot ⟨position, bytes ++ rest⟩ >>= _) = _
    rw [known]
    change (if entry.isWide = true then _ else _ : Reader _) _ = _
    rw [if_pos isWide]
    change (readSlots missing (slot + 2) _ >>= fun found => _) = _
    cases readSlots missing (slot + 2) ⟨position + bytes.length, rest⟩ <;> rfl
  | false =>
    rw [if_neg Bool.false_ne_true, if_neg Bool.false_ne_true, Nat.add_comm, readSlots]
    change (Entry.read slot ⟨position, bytes ++ rest⟩ >>= _) = _
    rw [known]
    change (if entry.isWide = true then _ else _ : Reader _) _ = _
    rw [isWide, if_neg Bool.false_ne_true]
    change (readSlots missing (slot + 1) _ >>= fun found => _) = _
    cases readSlots missing (slot + 1) ⟨position + bytes.length, rest⟩ <;> rfl

variable {constants : List LaidConstant}

theorem exists_slots (sound : ∀ constant ∈ constants, ¬ constant.IsBroken) (slot : Nat) :
    ∃ slots, Reads (readSlots (constants.map LaidConstant.width).sum slot)
      (constants.flatMap LaidConstant.bytes) slots := by
  induction constants generalizing slot with
  | nil => exact ⟨[], reads_pure []⟩
  | cons constant constants inductionHypothesis =>
    obtain ⟨first, others⟩ := List.forall_mem_cons.mp sound
    obtain ⟨entry, reads, width⟩ := LaidConstant.exists_entry first slot
    obtain ⟨slots, readsSlots⟩ := inductionHypothesis others (slot + entry.width)
    refine ⟨slotsOf [entry] ++ slots, fun position rest => ?_⟩
    rw [List.map_cons, List.sum_cons, List.flatMap_cons, ← width, List.append_assoc,
      readSlots_of_reads reads, readsSlots, List.length_append, Nat.add_assoc]
    rfl

theorem exists_refused_slots (broken : ∃ constant ∈ constants, constant.IsBroken) (slot : Nat) :
    ∃ unit, Refuses (readSlots (constants.map LaidConstant.width).sum slot)
      (constants.flatMap LaidConstant.bytes) (.unpairedSurrogate unit) := by
  induction constants generalizing slot with
  | nil => simp at broken
  | cons constant constants inductionHypothesis =>
    rw [List.map_cons, List.sum_cons, List.flatMap_cons]
    by_cases first : constant.IsBroken
    · obtain ⟨unit, refuses⟩ := LaidConstant.exists_refused first slot
      have positive := Nat.add_pos_left constant.width_pos (constants.map LaidConstant.width).sum
      obtain ⟨others, missing⟩ := Nat.exists_eq_succ_of_ne_zero (Nat.ne_of_gt positive)
      rw [missing, readSlots]
      exact ⟨unit, Refuses.append refuses.bind _⟩
    · obtain ⟨entry, reads, width⟩ := LaidConstant.exists_entry first slot
      have other : ∃ constant ∈ constants, constant.IsBroken := by
        obtain ⟨found, member, isBroken⟩ := broken
        rcases List.mem_cons.mp member with rfl | inRest
        · exact absurd isBroken first
        · exact ⟨found, inRest, isBroken⟩
      obtain ⟨unit, refuses⟩ := inductionHypothesis other (slot + entry.width)
      refine ⟨unit, fun position rest => ?_⟩
      rw [← width, List.append_assoc, readSlots_of_reads reads, refuses]
      rfl

theorem exists_pool_of_constants (sound : ∀ constant ∈ constants, ¬ constant.IsBroken)
    (short : (constants.map LaidConstant.width).sum < 0xFFFF) :
    ∃ pool, Reads ConstantPool.read
      (bigEndian 2 ((constants.map LaidConstant.width).sum + 1) ++
        constants.flatMap LaidConstant.bytes) pool := by
  obtain ⟨slots, reads⟩ := exists_slots sound 1
  exact ⟨⟨none :: slots⟩, (reads_u2 (by omega)).bind (reads.bind_nil (reads_pure _))⟩

theorem exists_refused_pool (broken : ∃ constant ∈ constants, constant.IsBroken)
    (short : (constants.map LaidConstant.width).sum < 0xFFFF) :
    ∃ unit, Refuses ConstantPool.read
      (bigEndian 2 ((constants.map LaidConstant.width).sum + 1) ++
        constants.flatMap LaidConstant.bytes) (.unpairedSurrogate unit) := by
  obtain ⟨unit, refuses⟩ := exists_refused_slots broken 1
  exact ⟨unit, (reads_u2 (by omega)).refuses refuses.bind⟩

end ConstantPool

/-! ## Class files -/

/-- A class file whose constant pool is laid out, with any bytes behind the pool. -/
structure LaidFile where
  minorVersion : UInt16
  version : UInt16
  constants : List LaidConstant
  short : (constants.map LaidConstant.width).sum < 0xFFFF
  body : List UInt8

namespace LaidFile

def poolBytes (file : LaidFile) : List UInt8 :=
  bigEndian 2 ((file.constants.map LaidConstant.width).sum + 1) ++
    file.constants.flatMap LaidConstant.bytes

def bytes (file : LaidFile) : List UInt8 :=
  bigEndian 4 magic ++ (bigEndian 2 file.minorVersion.toNat ++
    (bigEndian 2 file.version.toNat ++ (file.poolBytes ++ file.body)))

/-- Reading a file is reading its pool, and then what is behind it. -/
theorem read_bytes (file : LaidFile) :
    WrittenClass.read (Input.ofBytes file.bytes) =
      (ConstantPool.read >>= readAfterPool file.version.toNat)
        ⟨8, file.poolBytes ++ file.body⟩ := by
  have isMagic : Reads u4 (bigEndian 4 magic) magic := reads_u4 (by decide)
  have minor := reads_u2 file.minorVersion.toNat_lt
  have version := reads_u2 file.version.toNat_lt
  rw [WrittenClass.read, Input.ofBytes, bytes, isMagic.bind_apply, if_neg (not_not.mpr rfl)]
  exact (minor.bind_apply _ _ _).trans (version.bind_apply _ _ _)

theorem spares_ofBytes (file : LaidFile)
    (sound : ∀ constant ∈ file.constants, ¬ constant.IsBroken) :
    Spares (WrittenClass.ofBytes file.bytes) := by
  obtain ⟨pool, reads⟩ := ConstantPool.exists_pool_of_constants sound file.short
  have behind := file.read_bytes.trans (reads.bind_apply _ _ _)
  rw [WrittenClass.ofBytes, behind]
  refine (sparesTexts_readAfterPool file.version.toNat pool _).bind fun ⟨found, left⟩ => ?_
  dsimp only
  split
  · exact spares_ok found
  · exact spares_error not_false

theorem exists_refused (file : LaidFile)
    (broken : ∃ constant ∈ file.constants, constant.IsBroken) :
    ∃ unit, WrittenClass.ofBytes file.bytes = .error (.unpairedSurrogate unit) := by
  obtain ⟨unit, refuses⟩ := ConstantPool.exists_refused_pool broken file.short
  have refused := file.read_bytes.trans (refuses.bind 8 file.body)
  refine ⟨unit, ?_⟩
  rw [WrittenClass.ofBytes, refused]
  rfl

/-- A file is rejected for a text if and only if half of a pair stands alone in one of
its texts. -/
theorem rejected_iff_isBroken (file : LaidFile) :
    (∃ error, WrittenClass.ofBytes file.bytes = .error error ∧ error.IsOfText) ↔
      ∃ constant ∈ file.constants, constant.IsBroken := by
  constructor
  · rintro ⟨error, fails, ofText⟩
    by_contra none
    exact file.spares_ofBytes (fun constant member isBroken =>
      none ⟨constant, member, isBroken⟩) error fails ofText
  · intro broken
    obtain ⟨unit, fails⟩ := file.exists_refused broken
    exact ⟨_, fails, trivial⟩

end LaidFile

/-- The bytes of any units are read as the text with these units if no half of a pair stands
alone among them; otherwise the first that does is the error.  So it is for such a half, and
for nothing else in a text, that a class file is rejected. -/
theorem text_constants_readable :
    (∀ units : List UInt16,
      (∀ text, ModifiedUtf8.decode (unitBytes units) = .ok text ↔
        text.toList.flatMap Text.Utf16.unitsOf = units.map UInt16.toNat) ∧
      (∀ error, ModifiedUtf8.decode (unitBytes units) = .error error ↔
        ∃ unit, IsFirstLone (units.map UInt16.toNat) unit ∧ error = .unpairedSurrogate unit) ∧
      ((∃ text, ModifiedUtf8.decode (unitBytes units) = .ok text) ↔
        InPairs (units.map UInt16.toNat))) ∧
      ∀ file : LaidFile,
        (∃ error, WrittenClass.ofBytes file.bytes = .error error ∧ error.IsOfText) ↔
          ∃ constant ∈ file.constants, constant.IsBroken :=
  ⟨fun _ => ⟨fun _ => ModifiedUtf8.decode_unitBytes_eq_ok_iff,
    fun _ => ModifiedUtf8.decode_unitBytes_eq_error_iff,
    ModifiedUtf8.decode_unitBytes_isOk_iff⟩, LaidFile.rejected_iff_isBroken⟩

/-- The file of a class without members, with one more text in its pool. -/
def boxWith (units : List UInt16) (short : (unitBytes units).length ≤ 0xFFFF) : LaidFile where
  minorVersion := 0
  version := 52
  constants := [.text [0x42, 0x6F, 0x78] (by decide), .plain 7 [0, 1] rfl, .text units short]
  short := (by decide : 3 < 0xFFFF)
  body := [0, 0x21, 0, 2, 0, 0, 0, 0, 0, 0, 0, 0, 0, 0]

/-- A text that nothing refers to, the first half of a pair and no more, makes a file
unreadable. -/
theorem lone_half_refused :
    ModifiedUtf8.decode (unitBytes [0xD800]) = .error (.unpairedSurrogate 0xD800) ∧
      (readClass (boxWith [0x61] (by decide)).bytes).toOption.isSome = true ∧
        readClass (boxWith [0xD800] (by decide)).bytes =
          .error (Error.unpairedSurrogate 0xD800).toProblem := by
  refine ⟨?_, by decide +kernel, by decide +kernel⟩
  rw [ModifiedUtf8.decode_unitBytes]
  rfl

end JvmDiff.ClassFile
