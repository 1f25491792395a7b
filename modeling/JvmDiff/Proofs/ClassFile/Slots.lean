import JvmDiff.Proofs.ClassFile.Layout

/-!
# The slots of a constant pool

A pool is read from nothing but the number of its slots and bytes that spell entries one after
another, as many as fill these slots.  So the bytes that were read tell which slots there are, which
of them stay empty and what is in the others.
-/

namespace JvmDiff.ClassFile

open Reader

/-! ## Entries -/

namespace Entry

theorem takes_one {count : Nat} {make : Nat → Entry} {Form : Entry → List UInt8 → Prop}
    (form : ∀ n, n < 256 ^ count → Form (make n) (bigEndian count n)) :
    Takes (do return make (← number count)) Form := by
  refine (takes_number count).before fun n => (takes_pure (make n)).imp ?_
  rintro _ _ ⟨rfl, rfl⟩ _ ⟨fits, rfl⟩
  rw [List.append_nil]
  exact form n fits

theorem takes_two {first second : Nat} {make : Nat → Nat → Entry}
    {Form : Entry → List UInt8 → Prop}
    (form : ∀ n m, n < 256 ^ first → m < 256 ^ second →
      Form (make n m) (bigEndian first n ++ bigEndian second m)) :
    Takes (do return make (← number first) (← number second)) Form := by
  refine (takes_number first).before fun n => takes_one fun m fitsSecond => ?_
  rintro _ ⟨fits, rfl⟩
  exact form n m fits fitsSecond

theorem takes_readText : Takes readText fun text taken =>
    ∃ body : List UInt8, body.length < 0x10000 ∧ taken = bigEndian 2 body.length ++ body ∧
      ModifiedUtf8.decode body = .ok text := by
  refine (takes_number 2).before fun length => (takes_take length).before fun body => ?_
  intro input text left succeeds
  cases found : ModifiedUtf8.decode body with
  | error error =>
    rw [found] at succeeds
    cases succeeds
  | ok text =>
    rw [found] at succeeds
    cases succeeds
    refine ⟨[], rfl, ?_⟩
    rintro _ ⟨rfl, rfl⟩ _ ⟨short, rfl⟩
    rw [List.append_nil]
    exact ⟨_, short, rfl, found⟩

theorem takes_text {Form : Entry → List UInt8 → Prop}
    (form : ∀ body text, body.length < 0x10000 → ModifiedUtf8.decode body = .ok text →
      Form (.utf8 text) (bigEndian 2 body.length ++ body)) :
    Takes (do return utf8 (← readText)) Form := by
  refine takes_readText.before fun text => (takes_pure (utf8 text)).imp ?_
  rintro _ _ ⟨rfl, rfl⟩ _ ⟨body, short, rfl, decodes⟩
  rw [List.append_nil]
  exact form body text short decodes

theorem takes_tag {next : Nat → Reader Entry}
    (takes : ∀ tag, Takes (next tag) fun entry taken => Spells (UInt8.ofNat tag :: taken) entry) :
    Takes (u1 >>= next) fun entry taken => Spells taken entry := by
  refine (takes_number 1).before fun tag => (takes tag).imp ?_
  rintro entry taken spells _ ⟨_, rfl⟩
  have single : bigEndian 1 tag = [UInt8.ofNat tag] := by simp [bigEndian]
  rwa [single, List.singleton_append]

theorem takes_read (slot : Nat) : Takes (Entry.read slot) fun entry taken => Spells taken entry := by
  refine takes_tag fun tag => ?_
  split
  case h_1 => exact takes_text fun _ _ short decodes => .utf8 short decodes
  case h_2 => exact takes_one fun _ fits => .integer fits
  case h_3 => exact takes_one fun _ fits => .float fits
  case h_4 => exact takes_one fun _ fits => .long fits
  case h_5 => exact takes_one fun _ fits => .double fits
  case h_6 => exact takes_one fun _ fits => .classRef fits
  case h_7 => exact takes_one fun _ fits => .string fits
  case h_8 | h_9 | h_10 => exact takes_two fun _ _ => .memberRef (by decide)
  case h_11 => exact takes_two fun _ _ => .nameAndType
  case h_12 => exact takes_two fun _ _ => .methodHandle
  case h_13 => exact takes_one fun _ fits => .methodType fits
  case h_14 | h_15 => exact takes_two fun _ _ => .dynamic (by decide)
  case h_16 => exact takes_one fun _ fits => .moduleRef fits
  case h_17 => exact takes_one fun _ fits => .packageRef fits
  case h_18 =>
    intro input entry left succeeds
    cases succeeds

end Entry

/-! ## The slots that entries fill -/

theorem slotsOf_cons (entry : Entry) (entries : List Entry) :
    slotsOf (entry :: entries) =
      if entry.isWide then some entry :: none :: slotsOf entries
      else some entry :: slotsOf entries := by
  rw [slotsOf, List.flatMap_cons]
  split <;> rfl

theorem Entry.isWide_iff (entry : Entry) :
    entry.isWide = true ↔ entry.kind = .long ∨ entry.kind = .double := by
  cases entry <;> simp [Entry.isWide, Entry.kind]

/-- Entries do not begin with an empty slot. -/
theorem getElem?_slotsOf_zero (entries : List Entry) : (slotsOf entries)[0]? ≠ some none := by
  cases entries with
  | nil => simp [slotsOf]
  | cons entry entries =>
    rw [slotsOf_cons]
    split <;> simp

/-- A slot is empty exactly behind an entry that takes two. -/
theorem getElem?_slotsOf_succ (entries : List Entry) (index : Nat) :
    (slotsOf entries)[index + 1]? = some none ↔
      ∃ entry, (slotsOf entries)[index]? = some (some entry) ∧ entry.isWide = true := by
  induction entries generalizing index with
  | nil => simp [slotsOf]
  | cons entry entries inductionHypothesis =>
    have start := getElem?_slotsOf_zero entries
    rw [slotsOf_cons]
    cases known : entry.isWide with
    | true =>
      rw [if_pos rfl]
      rcases index with _ | _ | index
      · simp [known]
      · simpa using start
      · simpa using inductionHypothesis index
    | false =>
      rw [if_neg Bool.false_ne_true]
      rcases index with _ | index
      · simpa [known] using start
      · simpa using inductionHypothesis index

/-- The bytes spell entries one after another, and these fill the slots. -/
structure Fill (parts : List (List UInt8)) (entries : List Entry) (slots : List (Option Entry))
    (bytes : List UInt8) : Prop where
  spelled : List.Forall₂ Entry.Spells parts entries
  slots_eq : slots = slotsOf entries
  bytes_eq : bytes = parts.flatten

theorem Fill.cons {parts : List (List UInt8)} {entries : List Entry}
    {slots : List (Option Entry)} {part bytes : List UInt8} {entry : Entry}
    (spells : Entry.Spells part entry) (fill : Fill parts entries slots bytes) :
    Fill (part :: parts) (entry :: entries)
      (if entry.isWide then some entry :: none :: slots else some entry :: slots)
      (part ++ bytes) where
  spelled := .cons spells fill.spelled
  slots_eq := by rw [slotsOf_cons, fill.slots_eq]
  bytes_eq := by rw [List.flatten_cons, fill.bytes_eq]

namespace ConstantPool

/-- As many slots as are missing are filled by the entries that the bytes spell. -/
theorem takes_readSlots (missing slot : Nat) :
    Takes (readSlots missing slot) fun slots taken =>
      ∃ parts entries, Fill parts entries slots taken ∧ (entries.map Entry.width).sum = missing := by
  induction missing using Nat.strongRecOn generalizing slot with
  | ind missing inductionHypothesis =>
    cases missing with
    | zero =>
      refine (takes_pure []).imp ?_
      rintro _ _ ⟨rfl, rfl⟩
      exact ⟨[], [], ⟨.nil, rfl, rfl⟩, rfl⟩
    | succ missing =>
      rw [readSlots]
      refine (Entry.takes_read slot).before fun entry => ?_
      cases known : entry.isWide with
      | true =>
        rw [if_pos rfl]
        cases missing with
        | zero =>
          intro input slots left succeeds
          cases succeeds
        | succ others =>
          refine (inductionHypothesis others (by omega) _).before fun more =>
            (takes_pure _).imp ?_
          rintro _ _ ⟨rfl, rfl⟩ taken ⟨parts, entries, fill, count⟩ part spells
          have filled := fill.cons spells
          rw [if_pos known] at filled
          refine ⟨part :: parts, entry :: entries, by rwa [List.append_nil], ?_⟩
          rw [List.map_cons, List.sum_cons, count, Entry.width, if_pos known]
          omega
      | false =>
        rw [if_neg Bool.false_ne_true]
        refine (inductionHypothesis missing (by omega) _).before fun more =>
          (takes_pure _).imp ?_
        rintro _ _ ⟨rfl, rfl⟩ taken ⟨parts, entries, fill, count⟩ part spells
        have narrow : ¬ entry.isWide = true := Bool.eq_false_iff.mp known
        have filled := fill.cons spells
        rw [if_neg narrow] at filled
        refine ⟨part :: parts, entry :: entries, by rwa [List.append_nil], ?_⟩
        rw [List.map_cons, List.sum_cons, count, Entry.width, if_neg narrow]
        omega

/-- A pool is read from the number of its slots and from entries for all of them but the first. -/
theorem takes_read : Takes ConstantPool.read fun pool taken =>
    ∃ parts entries, List.Forall₂ Entry.Spells parts entries ∧
      (entries.map Entry.width).sum < 0xFFFF ∧
        taken = bigEndian 2 ((entries.map Entry.width).sum + 1) ++ parts.flatten ∧
          pool = ⟨none :: slotsOf entries⟩ := by
  refine (takes_number 2).before fun count => ?_
  split
  case isTrue zero =>
    intro input pool left succeeds
    cases succeeds
  case isFalse nonzero =>
    refine (takes_readSlots _ _).before fun slots => (takes_pure _).imp ?_
    rintro _ _ ⟨rfl, rfl⟩ _ ⟨parts, entries, ⟨spelled, rfl, rfl⟩, width⟩ _ ⟨fits, rfl⟩
    have declared : (entries.map Entry.width).sum + 1 = count := by omega
    rw [List.append_nil]
    exact ⟨parts, entries, spelled, by omega, by rw [declared], rfl⟩

/-! ## Pools as they are laid out -/

/-- The slots that hold a constant, in ascending order. -/
def usable (pool : ConstantPool) : List Nat :=
  pool.slots.findIdxs Option.isSome

/-- The pool has as many slots as declared, and its constants are spelled by the parts. -/
structure LaidOut (pool : ConstantPool) (count : Nat) (parts : List (List UInt8)) : Prop where
  length_eq : pool.slots.length = count
  /-- The empty slots are the first one and those behind a long or a double. -/
  empty_iff : ∀ index < count, pool.slots[index]? = some none ↔
    index = 0 ∨ ∃ entry, pool.slots[index - 1]? = some (some entry) ∧
      (entry.kind = .long ∨ entry.kind = .double)
  /-- What can be got is what is in the other slots. -/
  get_iff : ∀ index, (∃ entry, pool.get index = .ok entry) ↔
    index < count ∧ pool.slots[index]? ≠ some none
  /-- One part after another spells the constant in one usable slot after another. -/
  spelled : List.Forall₂ (fun part index => ∃ entry, pool.get index = .ok entry ∧
    Entry.Spells part entry) parts pool.usable

theorem get_eq_ok_iff {pool : ConstantPool} {index : Nat} {entry : Entry} :
    pool.get index = .ok entry ↔ pool.slots[index]? = some (some entry) := by
  rw [get]
  split
  case h_1 found known => simp [known]
  case h_2 other => simpa using fun known => other entry known

theorem exists_get_iff {pool : ConstantPool} {index : Nat} :
    (∃ entry, pool.get index = .ok entry) ↔
      index < pool.slots.length ∧ pool.slots[index]? ≠ some none := by
  simp only [get_eq_ok_iff]
  cases known : pool.slots[index]? with
  | none =>
    have beyond := List.getElem?_eq_none_iff.mp known
    simpa using Nat.not_lt.mpr beyond
  | some slot =>
    obtain ⟨inside, _⟩ := List.getElem?_eq_some_iff.mp known
    cases slot with
    | none => simp
    | some entry => simpa using inside

theorem empty_slot_iff (entries : List Entry) (index : Nat) :
    (none :: slotsOf entries)[index]? = some none ↔
      index = 0 ∨ ∃ entry, (none :: slotsOf entries)[index - 1]? = some (some entry) ∧
        (entry.kind = .long ∨ entry.kind = .double) := by
  rcases index with _ | _ | index
  · simp
  · simpa using getElem?_slotsOf_zero entries
  · simp only [← Entry.isWide_iff]
    simpa using getElem?_slotsOf_succ entries index

/-- The entries stand, in their order, in the slots that are not empty, behind any slots that
come before. -/
theorem forall₂_findIdxs {parts : List (List UInt8)} {entries : List Entry}
    (spelled : List.Forall₂ Entry.Spells parts entries) (before : List (Option Entry)) :
    List.Forall₂ (fun part index => ∃ entry,
        (before ++ slotsOf entries)[index]? = some (some entry) ∧ Entry.Spells part entry)
      parts ((slotsOf entries).findIdxs Option.isSome before.length) := by
  induction spelled generalizing before with
  | nil => exact .nil
  | @cons part entry parts entries first _ inductionHypothesis =>
    rw [slotsOf_cons]
    split
    case isTrue wide =>
      have others := inductionHypothesis (before ++ [some entry, none])
      rw [List.append_assoc, List.length_append] at others
      simp only [List.findIdxs_cons, Option.isSome_some, Option.isSome_none, if_true,
        Bool.false_eq_true, if_false]
      exact .cons ⟨entry, by simp, first⟩ others
    case isFalse narrow =>
      have others := inductionHypothesis (before ++ [some entry])
      rw [List.append_assoc, List.length_append] at others
      simp only [List.findIdxs_cons, Option.isSome_some, if_true]
      exact .cons ⟨entry, by simp, first⟩ others

theorem laidOut_of_spelled {parts : List (List UInt8)} {entries : List Entry}
    (spelled : List.Forall₂ Entry.Spells parts entries) :
    LaidOut ⟨none :: slotsOf entries⟩ ((entries.map Entry.width).sum + 1) parts where
  length_eq := by rw [List.length_cons, length_slotsOf]
  empty_iff := fun index _ => empty_slot_iff entries index
  get_iff := fun index => by rw [exists_get_iff, List.length_cons, length_slotsOf]
  spelled := by
    simp only [get_eq_ok_iff]
    exact forall₂_findIdxs spelled [none]

/-- A pool that is read has the slots it declares, and its bytes are the number of the slots and
one entry after another for those that are not left empty.  What follows the bytes makes no
difference to the pool. -/
theorem read_laidOut {input left : Input} {pool : ConstantPool}
    (succeeds : ConstantPool.read input = .ok (pool, left)) :
    ∃ count parts, count < 0x10000 ∧
      input.rest = bigEndian 2 count ++ parts.flatten ++ left.rest ∧
      pool.LaidOut count parts ∧
      Reads ConstantPool.read (bigEndian 2 count ++ parts.flatten) pool := by
  obtain ⟨_, split, parts, entries, spelled, short, rfl, rfl⟩ := takes_read input pool left succeeds
  exact ⟨_, parts, by omega, split, laidOut_of_spelled spelled, reads_pool spelled short⟩

/-- A long, the slot that it leaves empty, and a text, with one more byte behind the pool. -/
theorem read_laidOut_wide :
    ConstantPool.read
        ⟨0, [0, 4, 5, 0, 0, 0, 0, 0, 0, 0, 7, 1, 0, 1, 0x78, 0xFF]⟩ =
      .ok (⟨[none, some (.long 7), none, some (.utf8 "x")]⟩, ⟨15, [0xFF]⟩) ∧
    ∃ count parts, count < 0x10000 ∧
      [0, 4, 5, 0, 0, 0, 0, 0, 0, 0, 7, 1, 0, 1, 0x78, 0xFF] =
        bigEndian 2 count ++ parts.flatten ++ [0xFF] ∧
      LaidOut ⟨[none, some (.long 7), none, some (.utf8 "x")]⟩ count parts ∧
      Reads ConstantPool.read (bigEndian 2 count ++ parts.flatten)
        ⟨[none, some (.long 7), none, some (.utf8 "x")]⟩ := by
  have succeeds : ConstantPool.read
      ⟨0, [0, 4, 5, 0, 0, 0, 0, 0, 0, 0, 7, 1, 0, 1, 0x78, 0xFF]⟩ =
      .ok (⟨[none, some (.long 7), none, some (.utf8 "x")]⟩, ⟨15, [0xFF]⟩) := by
    decide +kernel
  exact ⟨succeeds, read_laidOut succeeds⟩

end ConstantPool

end JvmDiff.ClassFile
