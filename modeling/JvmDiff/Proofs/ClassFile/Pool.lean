import JvmDiff.Proofs.ClassFile.ModifiedUtf8
import JvmDiff.Proofs.ClassFile.Reading

/-!
# Reading back the constant pool

Bytes spell an entry if they are its tag and what the tag asks for, and bytes that spell entries
one after another are read as a pool with these entries.  The entries of a draft stand one after
another from slot 1 on, each after the entries it refers to.  As long as the slots fit two bytes,
the bytes of the draft are read as a pool that has each entry in its slot.
-/

namespace JvmDiff.ClassFile

open Reader

/-! ## Entries -/

/-- The text takes no more bytes than two bytes can count. -/
def Short (text : String) : Prop :=
  (ModifiedUtf8.encode text).length ≤ 0xFFFF

instance (text : String) : Decidable (Short text) :=
  inferInstanceAs (Decidable (_ ≤ _))

namespace Entry

/-- The bytes are a tag and what it asks for, and the entry is what they stand for. -/
inductive Spells : List UInt8 → Entry → Prop where
  | utf8 {body : List UInt8} {text : String} (short : body.length < 0x10000)
      (decodes : ModifiedUtf8.decode body = .ok text) :
      Spells (1 :: (bigEndian 2 body.length ++ body)) (.utf8 text)
  | integer {n : Nat} (fits : n < 256 ^ 4) : Spells (3 :: bigEndian 4 n) (.integer (Int32.ofNat n))
  | float {n : Nat} (fits : n < 256 ^ 4) : Spells (4 :: bigEndian 4 n) (.float ⟨UInt32.ofNat n⟩)
  | long {n : Nat} (fits : n < 256 ^ 8) : Spells (5 :: bigEndian 8 n) (.long (Int64.ofNat n))
  | double {n : Nat} (fits : n < 256 ^ 8) : Spells (6 :: bigEndian 8 n) (.double ⟨UInt64.ofNat n⟩)
  | classRef {name : Nat} (fits : name < 256 ^ 2) : Spells (7 :: bigEndian 2 name) (.classRef name)
  | string {text : Nat} (fits : text < 256 ^ 2) : Spells (8 :: bigEndian 2 text) (.string text)
  /-- A reference to a field, a method or a method of an interface. -/
  | memberRef {tag : UInt8} (isMember : tag = 9 ∨ tag = 10 ∨ tag = 11) {owner pair : Nat}
      (fitsOwner : owner < 256 ^ 2) (fitsPair : pair < 256 ^ 2) :
      Spells (tag :: (bigEndian 2 owner ++ bigEndian 2 pair)) (.memberRef owner pair)
  | nameAndType {name descriptor : Nat} (fitsName : name < 256 ^ 2)
      (fitsDescriptor : descriptor < 256 ^ 2) :
      Spells (12 :: (bigEndian 2 name ++ bigEndian 2 descriptor)) (.nameAndType name descriptor)
  | methodHandle {kind reference : Nat} (fitsKind : kind < 256 ^ 1)
      (fitsReference : reference < 256 ^ 2) :
      Spells (15 :: (bigEndian 1 kind ++ bigEndian 2 reference)) (.methodHandle kind reference)
  | methodType {descriptor : Nat} (fits : descriptor < 256 ^ 2) :
      Spells (16 :: bigEndian 2 descriptor) (.methodType descriptor)
  /-- A constant or a call that is computed when it is first used. -/
  | dynamic {tag : UInt8} (isDynamic : tag = 17 ∨ tag = 18) {bootstrap pair : Nat}
      (fitsBootstrap : bootstrap < 256 ^ 2) (fitsPair : pair < 256 ^ 2) :
      Spells (tag :: (bigEndian 2 bootstrap ++ bigEndian 2 pair)) (.dynamic bootstrap pair)
  | moduleRef {name : Nat} (fits : name < 256 ^ 2) :
      Spells (19 :: bigEndian 2 name) (.moduleRef name)
  | packageRef {name : Nat} (fits : name < 256 ^ 2) :
      Spells (20 :: bigEndian 2 name) (.packageRef name)

theorem reads_tag {tag : UInt8} {next : Nat → Reader Entry} {payload : List UInt8} {entry : Entry}
    (reads : Reads (next tag.toNat) payload entry) :
    Reads (u1 >>= next) (tag :: payload) entry := by
  have readsTag := reads_u1 tag.toNat_lt
  rw [UInt8.ofNat_toNat] at readsTag
  exact readsTag.bind reads

theorem reads_one {count n : Nat} (fits : n < 256 ^ count) (make : Nat → Entry) :
    Reads (do return make (← number count)) (bigEndian count n) (make n) :=
  (reads_number fits).bind_nil (reads_pure _)

theorem reads_two {first second n m : Nat} (fitsFirst : n < 256 ^ first)
    (fitsSecond : m < 256 ^ second) (make : Nat → Nat → Entry) :
    Reads (do return make (← number first) (← number second))
      (bigEndian first n ++ bigEndian second m) (make n m) :=
  (reads_number fitsFirst).bind (reads_one fitsSecond (make n))

theorem Spells.reads {bytes : List UInt8} {entry : Entry} (spells : Spells bytes entry)
    (slot : Nat) : Reads (Entry.read slot) bytes entry := by
  rw [Entry.read]
  cases spells with
  | @utf8 body text short decodes =>
    have readsText : Reads readText (bigEndian 2 body.length ++ body) text :=
      (reads_u2 short).bind ((reads_take body).bind_nil (reads_ofExcept decodes))
    exact reads_tag (readsText.bind_nil (reads_pure _))
  | integer fits => exact reads_tag (reads_one fits fun n => .integer (Int32.ofNat n))
  | float fits => exact reads_tag (reads_one fits fun n => .float ⟨UInt32.ofNat n⟩)
  | long fits => exact reads_tag (reads_one fits fun n => .long (Int64.ofNat n))
  | double fits => exact reads_tag (reads_one fits fun n => .double ⟨UInt64.ofNat n⟩)
  | classRef fits => exact reads_tag (reads_one fits .classRef)
  | string fits => exact reads_tag (reads_one fits .string)
  | memberRef isMember fitsOwner fitsPair =>
    rcases isMember with rfl | rfl | rfl
    all_goals exact reads_tag (reads_two fitsOwner fitsPair .memberRef)
  | nameAndType fitsName fitsDescriptor =>
    exact reads_tag (reads_two fitsName fitsDescriptor .nameAndType)
  | methodHandle fitsKind fitsReference =>
    exact reads_tag (reads_two fitsKind fitsReference .methodHandle)
  | methodType fits => exact reads_tag (reads_one fits .methodType)
  | dynamic isDynamic fitsBootstrap fitsPair =>
    rcases isDynamic with rfl | rfl
    all_goals exact reads_tag (reads_two fitsBootstrap fitsPair .dynamic)
  | moduleRef fits => exact reads_tag (reads_one fits .moduleRef)
  | packageRef fits => exact reads_tag (reads_one fits .packageRef)

/-- The entry can be written where the next free slot is the given one: a text
is short enough, and slots are before the free one. -/
def Fits (next : Nat) : Entry → Prop
  | .utf8 text => Short text
  | .integer _ => True
  | .float _ => True
  | .long _ => True
  | .double _ => True
  | .classRef name => name < next
  | .string text => text < next
  | .memberRef owner pair => owner < next ∧ pair < next
  | .nameAndType name descriptor => name < next ∧ descriptor < next
  | .methodHandle kind reference => kind < 0x100 ∧ reference < next
  | .methodType descriptor => descriptor < next
  | .dynamic bootstrap pair => bootstrap < 0x10000 ∧ pair < next
  | .moduleRef name => name < next
  | .packageRef name => name < next

theorem Fits.mono {entry : Entry} {next later : Nat} (fits : entry.Fits next)
    (after : next ≤ later) : entry.Fits later := by
  cases entry with
  | memberRef | nameAndType =>
    exact ⟨Nat.lt_of_lt_of_le fits.1 after, Nat.lt_of_lt_of_le fits.2 after⟩
  | methodHandle | dynamic => exact ⟨fits.1, Nat.lt_of_lt_of_le fits.2 after⟩
  | utf8 | integer | float | long | double => exact fits
  | _ => exact Nat.lt_of_lt_of_le fits after

/-- What is written for an entry spells it. -/
theorem spells_bytes {entry : Entry} {next : Nat} (fits : entry.Fits next)
    (bound : next ≤ 0x10000) : Spells entry.bytes entry := by
  have slot {n : Nat} (before : n < next) : n < 256 ^ 2 := Nat.lt_of_lt_of_le before bound
  cases entry with
  | utf8 text =>
    rw [bytes, Nat.min_eq_left fits]
    exact .utf8 (Nat.lt_succ_of_le fits) (ModifiedUtf8.decode_encode text)
  | integer value =>
    have same : Int32.ofNat value.toUInt32.toNat = value := by
      rw [← UInt32.toInt32_ofNat', UInt32.ofNat_toNat, Int32.toInt32_toUInt32]
    have spells := Spells.integer value.toUInt32.toNat_lt
    rwa [same] at spells
  | float value =>
    have spells := Spells.float value.bits.toNat_lt
    rwa [UInt32.ofNat_toNat] at spells
  | long value =>
    have same : Int64.ofNat value.toUInt64.toNat = value := by
      rw [← UInt64.toInt64_ofNat', UInt64.ofNat_toNat, Int64.toInt64_toUInt64]
    have spells := Spells.long value.toUInt64.toNat_lt
    rwa [same] at spells
  | double value =>
    have spells := Spells.double value.bits.toNat_lt
    rwa [UInt64.ofNat_toNat] at spells
  | classRef name => exact .classRef (slot fits)
  | string text => exact .string (slot fits)
  | memberRef owner pair => exact .memberRef (.inl rfl) (slot fits.1) (slot fits.2)
  | nameAndType name descriptor => exact .nameAndType (slot fits.1) (slot fits.2)
  | methodHandle kind reference => exact .methodHandle fits.1 (slot fits.2)
  | methodType descriptor => exact .methodType (slot fits)
  | dynamic bootstrap pair => exact .dynamic (.inl rfl) fits.1 (slot fits.2)
  | moduleRef name => exact .moduleRef (slot fits)
  | packageRef name => exact .packageRef (slot fits)

theorem reads_bytes {entry : Entry} {next : Nat} (fits : entry.Fits next)
    (bound : next ≤ 0x10000) (slot : Nat) : Reads (read slot) entry.bytes entry :=
  (spells_bytes fits bound).reads slot

end Entry

/-! ## Slots -/

/-- The slots that entries take, one after another. -/
def slotsOf (entries : List Entry) : List (Option Entry) :=
  entries.flatMap fun entry => if entry.isWide then [some entry, none] else [some entry]

theorem length_slotsOf (entries : List Entry) :
    (slotsOf entries).length = (entries.map Entry.width).sum := by
  induction entries with
  | nil => rfl
  | cons entry entries inductionHypothesis =>
    rw [slotsOf, List.flatMap_cons, List.length_append, List.map_cons, List.sum_cons,
      ← inductionHypothesis, Entry.width]
    cases entry.isWide <;> rfl

/-- Bytes that spell entries one after another are read as the slots of these entries. -/
theorem reads_slotsOf {parts : List (List UInt8)} {entries : List Entry}
    (spelled : List.Forall₂ Entry.Spells parts entries) (slot : Nat) :
    Reads (ConstantPool.readSlots (entries.map Entry.width).sum slot) parts.flatten
      (slotsOf entries) := by
  induction spelled generalizing slot with
  | nil => exact reads_pure []
  | @cons part entry parts entries first _ inductionHypothesis =>
    rw [List.map_cons, List.sum_cons, List.flatten_cons, slotsOf, List.flatMap_cons]
    cases known : entry.isWide with
    | true =>
      -- A wide entry leaves the slot after its own empty.
      have width : entry.width + (entries.map Entry.width).sum =
          (entries.map Entry.width).sum + 1 + 1 := by
        rw [Entry.width, known, if_pos rfl]
        omega
      rw [width, ConstantPool.readSlots]
      refine (first.reads slot).bind ?_
      rw [known]
      exact (inductionHypothesis (slot + 2)).bind_nil (reads_pure _)
    | false =>
      have width : entry.width + (entries.map Entry.width).sum =
          (entries.map Entry.width).sum + 1 := by
        rw [Entry.width, known, if_neg Bool.false_ne_true]
        omega
      rw [width, ConstantPool.readSlots]
      refine (first.reads slot).bind ?_
      rw [known]
      exact (inductionHypothesis (slot + 1)).bind_nil (reads_pure _)

/-- The number of slots, and then entries that fill all of them but the first. -/
theorem reads_pool {parts : List (List UInt8)} {entries : List Entry}
    (spelled : List.Forall₂ Entry.Spells parts entries)
    (short : (entries.map Entry.width).sum < 0xFFFF) :
    Reads ConstantPool.read
      (bigEndian 2 ((entries.map Entry.width).sum + 1) ++ parts.flatten)
      ⟨none :: slotsOf entries⟩ :=
  (reads_u2 (by omega)).bind ((reads_slotsOf spelled 1).bind_nil (reads_pure _))

/-! ## Drafts -/

/-- The entries, the last one first, stand one after another from slot 1 up to
the next free slot, and each can be written where it stands. -/
inductive InSlots : List (Entry × Nat) → Nat → Prop
  | empty : InSlots [] 1
  | add {entries : List (Entry × Nat)} {next : Nat} {entry : Entry} (before : InSlots entries next)
      (fits : entry.Fits next) : InSlots ((entry, next) :: entries) (next + entry.width)

namespace InSlots

variable {entries : List (Entry × Nat)} {next : Nat}

theorem fits (inSlots : InSlots entries next) : ∀ known ∈ entries, known.1.Fits next := by
  induction inSlots with
  | empty => exact fun _ member => absurd member List.not_mem_nil
  | add _ fits inductionHypothesis =>
    intro known member
    rcases List.mem_cons.mp member with rfl | earlier
    · exact fits.mono (Nat.le_add_right _ _)
    · exact (inductionHypothesis known earlier).mono (Nat.le_add_right _ _)

/-- The slots of all entries are those before the next one. -/
theorem length_slots (inSlots : InSlots entries next) :
    (none :: slotsOf (entries.reverse.map Prod.fst)).length = next := by
  induction inSlots with
  | empty => rfl
  | @add entries next entry _ _ inductionHypothesis =>
    rw [List.length_cons, length_slotsOf] at inductionHypothesis ⊢
    rw [List.reverse_cons, List.map_append, List.map_append, List.sum_append,
      List.map_singleton, List.map_singleton, List.sum_singleton, ← inductionHypothesis]
    exact Nat.add_right_comm _ _ _

theorem getElem_slots (inSlots : InSlots entries next) {entry : Entry} {slot : Nat}
    (member : (entry, slot) ∈ entries) :
    slot < next ∧ (none :: slotsOf (entries.reverse.map Prod.fst))[slot]? = some (some entry) := by
  induction inSlots with
  | empty => exact absurd member List.not_mem_nil
  | @add entries next added before _ inductionHypothesis =>
    have widthPos : 0 < added.width := by
      rw [Entry.width]
      split <;> decide
    have longer : none :: slotsOf (((added, next) :: entries).reverse.map Prod.fst) =
        (none :: slotsOf (entries.reverse.map Prod.fst)) ++ slotsOf [added] := by
      rw [List.reverse_cons, List.map_append, slotsOf, List.flatMap_append, List.cons_append]
      rfl
    have length := before.length_slots
    rw [longer]
    rcases List.mem_cons.mp member with isAdded | earlier
    · cases isAdded
      refine ⟨Nat.lt_add_of_pos_right widthPos, ?_⟩
      rw [List.getElem?_append_right (Nat.le_of_eq length), length, Nat.sub_self, slotsOf,
        List.flatMap_cons]
      cases entry.isWide <;> rfl
    · obtain ⟨smaller, known⟩ := inductionHypothesis earlier
      refine ⟨Nat.lt_add_right _ smaller, ?_⟩
      rw [List.getElem?_append_left (by rwa [length]), known]

end InSlots

/-- The pool has the entry in the slot, which two bytes can hold. -/
structure ConstantPool.HasAt (pool : ConstantPool) (entry : Entry) (slot : Nat) : Prop where
  pos : 0 < slot
  bound : slot < 0x10000
  get : pool.get slot = .ok entry

/-- The pool has each entry of the draft in its slot. -/
def ConstantPool.Holds (pool : ConstantPool) (draft : PoolDraft) : Prop :=
  ∀ entry slot, (entry, slot) ∈ draft.entries → pool.HasAt entry slot

/-- A draft whose slots fit two bytes is read as a pool that has its entries. -/
theorem exists_pool {draft : PoolDraft} (inSlots : InSlots draft.entries draft.next)
    (short : draft.next ≤ 0xFFFF) :
    ∃ pool : ConstantPool, pool.Holds draft ∧
      Reads ConstantPool.read (bigEndian 2 draft.next ++ draft.bytes) pool := by
  refine ⟨⟨none :: slotsOf (draft.entries.reverse.map Prod.fst)⟩, ?_, ?_⟩
  · intro entry slot member
    obtain ⟨smaller, known⟩ := inSlots.getElem_slots member
    refine ⟨Nat.pos_of_ne_zero ?_, by omega, by rw [ConstantPool.get, known]⟩
    rintro rfl
    cases known
  · have fits : ∀ entry ∈ draft.entries.reverse.map Prod.fst, entry.Fits draft.next := by
      intro entry member
      obtain ⟨known, inReverse, rfl⟩ := List.mem_map.mp member
      exact inSlots.fits known (List.mem_reverse.mp inReverse)
    have spelled : List.Forall₂ Entry.Spells
        ((draft.entries.reverse.map Prod.fst).map Entry.bytes)
        (draft.entries.reverse.map Prod.fst) :=
      List.forall₂_map_left_iff.mpr (List.forall₂_same.mpr fun entry member =>
        Entry.spells_bytes (fits entry member) (by omega))
    have count : ((draft.entries.reverse.map Prod.fst).map Entry.width).sum + 1 = draft.next := by
      have length := inSlots.length_slots
      rwa [List.length_cons, length_slotsOf] at length
    have bytes : ((draft.entries.reverse.map Prod.fst).map Entry.bytes).flatten = draft.bytes := by
      rw [← List.flatMap_def, List.flatMap_map]
      rfl
    have pool := reads_pool spelled (by omega)
    rwa [count, bytes] at pool

end JvmDiff.ClassFile
