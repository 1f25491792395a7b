import JvmDiff.Proofs.ClassFile.Outcome

/-!
# Where a class file ends

A step of reading decides by the bytes it takes where it ends: what follows them makes no
difference, and when some of them are lacking the input is found truncated.  Steps that are joined
inherit this, up to the reader of whole class files.  So no class file is the beginning of another.
-/

namespace JvmDiff.ClassFile

open Reader

namespace Reader

variable {α β : Type}

/-! ## Delimited steps -/

/-- The step finds its input truncated when it is given less than all the bytes. -/
def Lacks (read : Reader α) (bytes : List UInt8) : Prop :=
  ∀ (position : Nat) (front : List UInt8), front <+: bytes → front ≠ bytes →
    ∃ needed place available,
      read ⟨position, front⟩ = .error (.truncated needed place available)

/-- Where the step succeeds, it takes bytes that it reads as the same value
whatever follows them, and none of which it can do without. -/
def Delimited (read : Reader α) : Prop :=
  ∀ (input : Input) (value : α) (left : Input), read input = .ok (value, left) →
    ∃ taken, input.rest = taken ++ left.rest ∧ Reads read taken value ∧ Lacks read taken

theorem lacks_nil (read : Reader α) : Lacks read [] := by
  intro position front before different
  exact absurd (List.prefix_nil.mp before) different

theorem delimited_pure (value : α) : Delimited (pure value : Reader α) := by
  intro input found left succeeds
  cases succeeds
  exact ⟨[], rfl, reads_pure value, lacks_nil _⟩

theorem delimited_ofExcept (result : Except Error α) : Delimited (ofExcept result) := by
  intro input found left succeeds
  cases result with
  | error error => cases succeeds
  | ok value =>
      cases succeeds
      exact ⟨[], rfl, reads_ofExcept rfl, lacks_nil _⟩

theorem delimited_throw (error : Error) : Delimited (throw error : Reader α) := by
  intro input found left succeeds
  cases succeeds

theorem delimited_take (count : Nat) : Delimited (take count) := by
  intro input taken left succeeds
  rw [take] at succeeds
  by_cases enough : (input.rest.take count).length = count
  · rw [if_pos enough] at succeeds
    cases succeeds
    have reads := reads_take (input.rest.take count)
    rw [enough] at reads
    refine ⟨_, (List.take_append_drop count input.rest).symm, reads, ?_⟩
    intro position front before different
    have shorter : front.length < count := by
      apply Nat.lt_of_le_of_ne
      · exact enough ▸ before.length_le
      · intro same
        exact different (before.eq_of_length (same.trans enough.symm))
    have cut : (front.take count).length ≠ count := by
      rw [List.length_take]
      omega
    rw [take]
    exact ⟨_, _, _, if_neg cut⟩
  · rw [if_neg enough] at succeeds
    cases succeeds

/-- A part of two runs of bytes lacks some of the first, or has all of these and
lacks some of the second. -/
theorem cut_append {front first second : List UInt8} (before : front <+: first ++ second)
    (different : front ≠ first ++ second) :
    (front <+: first ∧ front ≠ first) ∨
      ∃ more, front = first ++ more ∧ more <+: second ∧ more ≠ second := by
  obtain ⟨missing, whole⟩ := before
  -- Either the part ends inside the first run, or it goes on into the second.
  rcases List.append_eq_append_iff.mp whole with ⟨rest, split, _⟩ | ⟨more, split, others⟩
  · by_cases complete : front = first
    · refine Or.inr ⟨[], by rw [complete, List.append_nil], List.nil_prefix, ?_⟩
      rintro rfl
      exact different (complete.trans (List.append_nil first).symm)
    · exact Or.inl ⟨⟨rest, split.symm⟩, complete⟩
  · refine Or.inr ⟨more, split, ⟨missing, others.symm⟩, ?_⟩
    rintro rfl
    exact different split

theorem Lacks.bind {read : Reader α} {next : α → Reader β} {first second : List UInt8}
    {value : α} (reads : Reads read first value) (lacksFirst : Lacks read first)
    (lacksSecond : Lacks (next value) second) : Lacks (read >>= next) (first ++ second) := by
  intro position front before different
  change ∃ needed place available,
    (read ⟨position, front⟩ >>= fun found => next found.1 found.2) = _
  rcases cut_append before different with ⟨inFirst, lacking⟩ | ⟨more, rfl, inSecond, lacking⟩
  · obtain ⟨needed, place, available, fails⟩ := lacksFirst position front inFirst lacking
    rw [fails]
    exact ⟨needed, place, available, rfl⟩
  · rw [reads position more]
    exact lacksSecond _ more inSecond lacking

theorem Delimited.bind {read : Reader α} {next : α → Reader β} (first : Delimited read)
    (second : ∀ value, Delimited (next value)) : Delimited (read >>= next) := by
  intro input result left succeeds
  change (read input >>= fun found => next found.1 found.2) = _ at succeeds
  cases found : read input with
  | error error =>
      rw [found] at succeeds
      cases succeeds
  | ok middle =>
      rw [found] at succeeds
      obtain ⟨taken, split, reads, lacks⟩ := first input middle.1 middle.2 found
      obtain ⟨more, splitMore, readsMore, lacksMore⟩ :=
        second middle.1 middle.2 result left succeeds
      refine ⟨taken ++ more, ?_, reads.bind readsMore, lacks.bind reads lacksMore⟩
      rw [split, splitMore, List.append_assoc]

theorem delimited_number (count : Nat) : Delimited (number count) :=
  (delimited_take count).bind fun _ => delimited_pure _

theorem delimited_u1 : Delimited u1 :=
  delimited_number 1

theorem delimited_u2 : Delimited u2 :=
  delimited_number 2

theorem delimited_u4 : Delimited u4 :=
  delimited_number 4

theorem Delimited.repeated {read : Reader α} (each : Delimited read) (count : Nat) :
    Delimited (repeated read count) := by
  induction count with
  | zero => exact delimited_pure []
  | succ count inductionHypothesis =>
      exact each.bind fun _ => inductionHypothesis.bind fun _ => delimited_pure _

theorem Delimited.counted {read : Reader α} (each : Delimited read) :
    Delimited (counted read) :=
  delimited_u2.bind each.repeated

theorem delimited_lookup (find : Nat → Except Error α) :
    Delimited (do ofExcept (find (← u2))) :=
  delimited_u2.bind fun _ => delimited_ofExcept _

end Reader

/-! ## The constant pool -/

theorem Entry.delimited_readText : Delimited Entry.readText :=
  delimited_u2.bind fun length => (delimited_take length).bind fun _ => delimited_ofExcept _

theorem Entry.delimited_read (slot : Nat) : Delimited (Entry.read slot) := by
  -- Most entries are one reference or two.
  have reference {α : Type} (make : Nat → α) : Delimited (do return make (← u2)) :=
    delimited_u2.bind fun _ => delimited_pure _
  have references {α : Type} (make : Nat → Nat → α) :
      Delimited (do return make (← u2) (← u2)) :=
    delimited_u2.bind fun _ => delimited_u2.bind fun _ => delimited_pure _
  refine delimited_u1.bind fun tag => ?_
  split
  case h_1 => exact delimited_readText.bind fun _ => delimited_pure _
  case h_2 | h_3 => exact delimited_u4.bind fun _ => delimited_pure _
  case h_4 | h_5 => exact (delimited_number 8).bind fun _ => delimited_pure _
  case h_6 | h_7 | h_13 | h_16 | h_17 => exact reference _
  case h_8 | h_9 | h_10 | h_11 | h_14 | h_15 => exact references _
  case h_12 => exact delimited_u1.bind fun _ => reference _
  case h_18 => exact delimited_throw _

namespace ConstantPool

theorem delimited_readSlots (missing slot : Nat) : Delimited (readSlots missing slot) := by
  induction missing using Nat.strongRecOn generalizing slot with
  | ind missing inductionHypothesis =>
    cases missing with
    | zero => exact delimited_pure []
    | succ missing =>
      rw [readSlots]
      refine (Entry.delimited_read slot).bind fun entry => ?_
      split
      · cases missing with
        | zero => exact delimited_throw _
        | succ others =>
            exact (inductionHypothesis others (by omega) _).bind fun _ => delimited_pure _
      · exact (inductionHypothesis missing (by omega) _).bind fun _ => delimited_pure _

theorem delimited_read : Delimited ConstantPool.read := by
  refine delimited_u2.bind fun count => ?_
  split
  · exact delimited_throw _
  · exact (delimited_readSlots _ _).bind fun _ => delimited_pure _

end ConstantPool

/-! ## Attributes, members and classes -/

namespace Attributes

variable (pool : ConstantPool)

/-- An attribute is delimited by its length, whatever its body says. -/
theorem delimited_readOne (found : Attributes) : Delimited (readOne pool found) := by
  refine delimited_u2.bind fun index => (delimited_ofExcept _).bind fun name =>
    delimited_u4.bind fun length => (delimited_take length).bind fun body => ?_
  split
  · exact delimited_pure found
  · refine (delimited_ofExcept _).bind fun ⟨next, left⟩ => ?_
    by_cases usedUp : left.rest = []
    · simp only [if_pos usedUp]
      exact delimited_pure next
    · simp only [if_neg usedUp]
      exact delimited_throw _

theorem delimited_readMany (count : Nat) (found : Attributes) :
    Delimited (readMany pool count found) := by
  induction count generalizing found with
  | zero => exact delimited_pure found
  | succ count inductionHypothesis =>
      exact (delimited_readOne pool found).bind inductionHypothesis

theorem delimited_read : Delimited (Attributes.read pool) :=
  delimited_u2.bind fun count => delimited_readMany pool count {}

end Attributes

theorem WrittenMember.delimited_read (pool : ConstantPool) :
    Delimited (WrittenMember.read pool) :=
  delimited_u2.bind fun _ => delimited_u2.bind fun _ => (delimited_ofExcept _).bind fun _ =>
    delimited_u2.bind fun _ => (delimited_ofExcept _).bind fun _ =>
    (Attributes.delimited_read pool).bind fun _ => delimited_pure _

theorem delimited_readAfterPool (version : Nat) (pool : ConstantPool) :
    Delimited (readAfterPool version pool) :=
  delimited_u2.bind fun _ => delimited_u2.bind fun _ => (delimited_ofExcept _).bind fun _ =>
    delimited_u2.bind fun _ => (delimited_ofExcept _).bind fun _ =>
    (delimited_lookup pool.className).counted.bind fun _ =>
    (WrittenMember.delimited_read pool).counted.bind fun _ =>
    (WrittenMember.delimited_read pool).counted.bind fun _ =>
    (Attributes.delimited_read pool).bind fun _ => delimited_pure _

namespace WrittenClass

theorem delimited_read : Delimited WrittenClass.read := by
  refine delimited_u4.bind fun found => ?_
  split
  · exact delimited_throw _
  · exact delimited_u2.bind fun _ => delimited_u2.bind fun version =>
      ConstantPool.delimited_read.bind fun pool => delimited_readAfterPool version pool

variable {bytes : List UInt8} {written : WrittenClass}

/-- The bytes of a class are all taken by the reader, and none is left. -/
theorem reads_of_ofBytes (lists : ofBytes bytes = .ok written) :
    Reads WrittenClass.read bytes written ∧ Lacks WrittenClass.read bytes := by
  rw [ofBytes] at lists
  cases found : WrittenClass.read (Input.ofBytes bytes) with
  | error error =>
      rw [found] at lists
      cases lists
  | ok result =>
      obtain ⟨value, left⟩ := result
      obtain ⟨taken, split, reads, lacks⟩ := delimited_read _ value left found
      rw [found] at lists
      change (if left.rest = [] then Except.ok value else throw _) = _ at lists
      by_cases usedUp : left.rest = []
      · rw [if_pos usedUp] at lists
        cases lists
        have all : bytes = taken := by
          rw [usedUp, List.append_nil] at split
          exact split
        rw [all]
        exact ⟨reads, lacks⟩
      · rw [if_neg usedUp] at lists
        cases lists

/-- A file that is cut off is found truncated. -/
theorem ofBytes_front (lists : ofBytes bytes = .ok written) {front : List UInt8}
    (before : front <+: bytes) (different : front ≠ bytes) :
    ∃ needed place available, ofBytes front = .error (.truncated needed place available) := by
  obtain ⟨needed, place, available, fails⟩ :=
    (reads_of_ofBytes lists).2 0 front before different
  refine ⟨needed, place, available, ?_⟩
  rw [ofBytes, Input.ofBytes, fails]
  rfl

theorem ofBytes_append (lists : ofBytes bytes = .ok written) {more : List UInt8}
    (something : more ≠ []) :
    ofBytes (bytes ++ more) = .error (.classTrail more.length written.name) := by
  have reads := (reads_of_ofBytes lists).1 0 more
  rw [ofBytes, Input.ofBytes, reads]
  exact if_neg something

end WrittenClass

/-- The bytes are refused as no class file. -/
def IsMalformed (bytes : List UInt8) : Prop :=
  ∃ problem, readClass bytes = .error problem ∧ problem.kind = .malformedClassFile

theorem isMalformed_of_ofBytes {bytes : List UInt8} {error : Error}
    (fails : WrittenClass.ofBytes bytes = .error error)
    (kind : error.problemKind = .malformedClassFile) : IsMalformed bytes := by
  refine ⟨error.toProblem, ?_, kind⟩
  rw [readClass, fails]

/-- No class file is the beginning of another: with bytes cut off its end or put
behind it, it is malformed. -/
theorem isMalformed_of_cut_or_extended {bytes : List UInt8} {found : Class}
    (reads : readClass bytes = .ok found) :
    (∀ front, front <+: bytes → front ≠ bytes → IsMalformed front) ∧
      ∀ more, more ≠ [] → IsMalformed (bytes ++ more) := by
  rw [readClass] at reads
  cases lists : WrittenClass.ofBytes bytes with
  | error error =>
      rw [lists] at reads
      cases reads
  | ok written =>
      constructor
      · intro front before different
        obtain ⟨_, _, _, fails⟩ := WrittenClass.ofBytes_front lists before different
        exact isMalformed_of_ofBytes fails rfl
      · intro more something
        exact isMalformed_of_ofBytes (WrittenClass.ofBytes_append lists something) rfl

/-- A class with a constant of two slots, attributes that are read and attributes
that are passed over. -/
def cell : Definition where
  name := "a/Cell"
  fields :=
    [{ name := "LIMIT", descriptor := "J", access := Access.accStatic.union Access.accFinal,
       constant := some (.long 7) }]
  methods := [{ name := "run", descriptor := "()V", exceptions := ["a/Fault"] }]

theorem isMalformed_of_cut_or_extended_cell :
    ∃ found, readClass cell.bytes = .ok found ∧
      (∀ front, front <+: cell.bytes → front ≠ cell.bytes → IsMalformed front) ∧
        ∀ more, more ≠ [] → IsMalformed (cell.bytes ++ more) := by
  have succeeds : (readClass cell.bytes).toOption.isSome = true := by decide +kernel
  cases reads : readClass cell.bytes with
  | error problem =>
      rw [reads] at succeeds
      cases succeeds
  | ok found => exact ⟨found, rfl, isMalformed_of_cut_or_extended reads⟩

end JvmDiff.ClassFile
