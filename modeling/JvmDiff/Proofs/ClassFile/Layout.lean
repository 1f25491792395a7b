import JvmDiff.Proofs.ClassFile.Extent
import Mathlib.Data.List.Basic

/-!
# The layout of class files

A class file is laid out in tables: fields, methods, and the attributes of these and of the class,
each attribute with a body of its own.  Every file that lists a class has a layout, and what is read
from the bytes of a layout is put together from what is read from its parts.
-/

namespace JvmDiff.ClassFile

open Reader

namespace Reader

variable {α β : Type}

/-! ## Results of reading -/

/-- The step takes the bytes to the result, a value or an error, whatever follows them. -/
def Yields (read : Reader α) (bytes : List UInt8) (result : Except Error α) : Prop :=
  ∀ (position : Nat) (rest : List UInt8),
    read ⟨position, bytes ++ rest⟩ =
      result.map fun value => (value, ⟨position + bytes.length, rest⟩)

theorem yields_pure (value : α) : Yields (pure value) [] (.ok value) :=
  reads_pure value

theorem yields_throw (error : Error) : Yields (throw error : Reader α) [] (.error error) :=
  fun _ _ => rfl

theorem yields_ofExcept (result : Except Error α) : Yields (ofExcept result) [] result := by
  intro position rest
  cases result <;> rfl

/-- Steps one after another take their bytes one after another, up to the first error. -/
theorem Yields.bind {read : Reader α} {next : α → Reader β} {first second : List UInt8}
    {result : Except Error α} {results : α → Except Error β} (yields : Yields read first result)
    (yieldsNext : ∀ value, Yields (next value) second (results value)) :
    Yields (read >>= next) (first ++ second) (result >>= results) := by
  intro position rest
  change (read ⟨position, first ++ second ++ rest⟩ >>= fun found => next found.1 found.2) = _
  rw [List.append_assoc, yields]
  cases result with
  | error error => rfl
  | ok value =>
      change next value ⟨position + first.length, second ++ rest⟩ = _
      rw [yieldsNext, List.length_append, Nat.add_assoc]
      rfl

/-- A step that succeeds, before one that may fail. -/
theorem Reads.bind_yields {read : Reader α} {next : α → Reader β} {first second : List UInt8}
    {value : α} {result : Except Error β} (reads : Reads read first value)
    (yields : Yields (next value) second result) :
    Yields (read >>= next) (first ++ second) result := by
  intro position rest
  change (read ⟨position, first ++ second ++ rest⟩ >>= fun found => next found.1 found.2) = _
  rw [List.append_assoc, reads]
  change next value ⟨position + first.length, second ++ rest⟩ = _
  rw [yields, List.length_append, Nat.add_assoc]

theorem Reads.bind_yields_nil {read : Reader α} {next : α → Reader β} {bytes : List UInt8}
    {value : α} {result : Except Error β} (reads : Reads read bytes value)
    (yields : Yields (next value) [] result) : Yields (read >>= next) bytes result := by
  have joined := reads.bind_yields yields
  rwa [List.append_nil] at joined

theorem yields_ofExcept_bind {next : α → Reader β} {bytes : List UInt8}
    (result : Except Error α) {results : α → Except Error β}
    (yieldsNext : ∀ value, Yields (next value) bytes (results value)) :
    Yields (ofExcept result >>= next) bytes (result >>= results) :=
  (yields_ofExcept result).bind yieldsNext

theorem Yields.bind_nil {read : Reader α} {next : α → Reader β} {bytes : List UInt8}
    {result : Except Error α} {results : α → Except Error β} (yields : Yields read bytes result)
    (yieldsNext : ∀ value, Yields (next value) [] (results value)) :
    Yields (read >>= next) bytes (result >>= results) := by
  have joined := yields.bind yieldsNext
  rwa [List.append_nil] at joined

theorem yields_repeated {read : Reader α} {write : β → List UInt8} {result : β → Except Error α}
    (yields : ∀ item, Yields read (write item) (result item)) (items : List β) :
    Yields (repeated read items.length) (items.flatMap write) (items.mapM result) := by
  induction items with
  | nil => exact yields_pure []
  | cons item items inductionHypothesis =>
    rw [List.flatMap_cons, List.mapM_cons]
    exact (yields item).bind fun _ => inductionHypothesis.bind_nil fun _ => yields_pure _

/-! ## The form of what was read -/

/-- Where the step succeeds, the bytes that it takes have the form for the value. -/
def Takes (read : Reader α) (Form : α → List UInt8 → Prop) : Prop :=
  ∀ (input : Input) (value : α) (left : Input), read input = .ok (value, left) →
    ∃ taken, input.rest = taken ++ left.rest ∧ Form value taken

theorem Takes.imp {read : Reader α} {Form Other : α → List UInt8 → Prop}
    (takes : Takes read Form) (imp : ∀ value taken, Form value taken → Other value taken) :
    Takes read Other := by
  intro input value left succeeds
  obtain ⟨taken, split, form⟩ := takes input value left succeeds
  exact ⟨taken, split, imp value taken form⟩

theorem Takes.bind {read : Reader α} {next : α → Reader β} {Form : α → List UInt8 → Prop}
    {More : α → β → List UInt8 → Prop} (takes : Takes read Form)
    (takesNext : ∀ value, Takes (next value) (More value)) :
    Takes (read >>= next) fun result taken =>
      ∃ value first second, taken = first ++ second ∧ Form value first ∧
        More value result second := by
  intro input result left succeeds
  change (read input >>= fun found => next found.1 found.2) = _ at succeeds
  cases found : read input with
  | error error =>
      rw [found] at succeeds
      cases succeeds
  | ok middle =>
      rw [found] at succeeds
      obtain ⟨first, split, form⟩ := takes input middle.1 middle.2 found
      obtain ⟨second, splitMore, more⟩ :=
        takesNext middle.1 middle.2 result left succeeds
      refine ⟨first ++ second, ?_, middle.1, first, second, rfl, form, more⟩
      rw [split, splitMore, List.append_assoc]

/-- Steps one after another, where the whole has its form as soon as the second part has one that
goes with the first. -/
theorem Takes.before {read : Reader α} {next : α → Reader β} {Form : α → List UInt8 → Prop}
    {Whole : β → List UInt8 → Prop} (takes : Takes read Form)
    (takesNext : ∀ value, Takes (next value) fun result second =>
      ∀ first, Form value first → Whole result (first ++ second)) :
    Takes (read >>= next) Whole := by
  refine (takes.bind takesNext).imp ?_
  rintro result _ ⟨value, first, second, rfl, form, whole⟩
  exact whole first form

theorem takes_pure (value : α) :
    Takes (pure value) fun found taken => found = value ∧ taken = [] := by
  intro input found left succeeds
  cases succeeds
  exact ⟨[], rfl, rfl, rfl⟩

theorem takes_throw (error : Error) :
    Takes (throw error : Reader α) fun _ taken => taken = [] := by
  intro input found left succeeds
  cases succeeds

theorem takes_ofExcept (result : Except Error α) :
    Takes (ofExcept result) fun _ taken => taken = [] := by
  intro input found left succeeds
  cases result with
  | error error => cases succeeds
  | ok value =>
      cases succeeds
      exact ⟨[], rfl, rfl⟩

theorem takes_take (count : Nat) :
    Takes (take count) fun value taken => taken = value ∧ value.length = count := by
  intro input found left succeeds
  rw [take] at succeeds
  by_cases enough : (input.rest.take count).length = count
  · rw [if_pos enough] at succeeds
    cases succeeds
    exact ⟨_, (List.take_append_drop count input.rest).symm, rfl, enough⟩
  · rw [if_neg enough] at succeeds
    cases succeeds

theorem takes_number (count : Nat) :
    Takes (number count) fun n taken => n < 256 ^ count ∧ taken = bigEndian count n := by
  refine ((takes_take count).bind fun bytes => takes_pure (ofBigEndian bytes)).imp ?_
  rintro _ _ ⟨bytes, _, _, rfl, ⟨rfl, rfl⟩, rfl, rfl⟩
  rw [List.append_nil, bigEndian_ofBigEndian]
  exact ⟨ofBigEndian_lt _, rfl⟩

theorem takes_repeated {read : Reader α} {write : β → List UInt8}
    (takes : Takes read fun _ taken => ∃ item, taken = write item) (count : Nat) :
    Takes (repeated read count) fun _ taken =>
      ∃ items : List β, items.length = count ∧ taken = items.flatMap write := by
  induction count with
  | zero => exact (takes_pure []).imp fun _ _ same => ⟨[], rfl, same.2⟩
  | succ count inductionHypothesis =>
    refine (takes.bind fun first => inductionHypothesis.bind fun more =>
      takes_pure (first :: more)).imp ?_
    rintro _ _ ⟨_, _, _, rfl, ⟨item, rfl⟩, _, _, _, rfl, ⟨items, rfl, rfl⟩, _, rfl⟩
    exact ⟨item :: items, rfl, by rw [List.flatMap_cons, List.append_nil]⟩

end Reader

/-! ## Numbers and lists in the layout -/

/-- A number in two bytes. -/
def twoBytes (n : UInt16) : List UInt8 :=
  bigEndian 2 n.toNat

/-- A list whose length fits into two bytes. -/
structure Counted (α : Type) where
  items : List α
  short : items.length ≤ 0xFFFF

/-- The length of the list, and what is written for the items. -/
def Counted.bytes {α : Type} (write : α → List UInt8) (list : Counted α) : List UInt8 :=
  bigEndian 2 list.items.length ++ list.items.flatMap write

section Numbers

variable {α β : Type}

theorem reads_twoBytes (n : UInt16) : Reads u2 (twoBytes n) n.toNat :=
  reads_u2 n.toNat_lt

theorem takes_u2 :
    Takes u2 fun n taken => ∃ half : UInt16, half.toNat = n ∧ taken = twoBytes half := by
  refine (takes_number 2).imp ?_
  rintro n taken ⟨fits, rfl⟩
  have same : (UInt16.ofNat n).toNat = n := UInt16.toNat_ofNat_of_lt fits
  exact ⟨UInt16.ofNat n, same, by rw [twoBytes, same]⟩

/-- What is found under a number in two bytes. -/
theorem yields_lookup (find : Nat → Except Error α) (n : UInt16) :
    Yields (do Reader.ofExcept (find (← u2))) (twoBytes n) (find n.toNat) :=
  (reads_twoBytes n).bind_yields_nil (yields_ofExcept (find n.toNat))

theorem takes_lookup (find : Nat → Except Error α) :
    Takes (do Reader.ofExcept (find (← u2))) fun _ taken => ∃ half, taken = twoBytes half := by
  refine (takes_u2.bind fun _ => takes_ofExcept _).imp ?_
  rintro _ _ ⟨_, _, _, rfl, ⟨half, _, rfl⟩, rfl⟩
  exact ⟨half, List.append_nil _⟩

theorem yields_counted {read : Reader α} {write : β → List UInt8} {result : β → Except Error α}
    (yields : ∀ item, Yields read (write item) (result item)) (list : Counted β) :
    Yields (Reader.counted read) (list.bytes write) (list.items.mapM result) :=
  (reads_u2 (Nat.lt_succ_of_le list.short)).bind_yields (yields_repeated yields list.items)

theorem takes_counted {read : Reader α} {write : β → List UInt8}
    (takes : Takes read fun _ taken => ∃ item, taken = write item) :
    Takes (Reader.counted read) fun _ taken => ∃ list : Counted β, taken = list.bytes write := by
  refine (takes_u2.bind fun count => takes_repeated takes count).imp ?_
  rintro _ _ ⟨_, _, _, rfl, ⟨half, rfl, rfl⟩, items, known, rfl⟩
  have short : items.length ≤ 0xFFFF := known ▸ Nat.le_of_lt_succ half.toNat_lt
  exact ⟨⟨items, short⟩, by rw [Counted.bytes, known, twoBytes]⟩

end Numbers

/-! ## Attributes -/

/-- An attribute as it is laid out: the number of its name in the constant pool, and its body. -/
structure LaidAttribute where
  name : UInt16
  body : List UInt8
  short : body.length < 0x100000000

namespace LaidAttribute

def bytes (laid : LaidAttribute) : List UInt8 :=
  twoBytes laid.name ++ (bigEndian 4 laid.body.length ++ laid.body)

/-- What the attributes say with this one more. -/
def absorbed (pool : ConstantPool) (found : Attributes) (laid : LaidAttribute) :
    Except Error Attributes := do
  let name ← pool.utf8 laid.name.toNat
  match Attributes.readBody pool found name with
  | none => return found
  | some read =>
      let (next, left) ← read (Input.ofBytes laid.body)
      if left.rest = [] then
        return next
      else
        throw (.attributeTrail name left.rest.length)

theorem yields_readOne (pool : ConstantPool) (found : Attributes) (laid : LaidAttribute) :
    Yields (Attributes.readOne pool found) laid.bytes (laid.absorbed pool found) := by
  refine (reads_twoBytes laid.name).bind_yields ?_
  refine yields_ofExcept_bind (pool.utf8 laid.name.toNat) fun name => ?_
  refine (reads_u4 laid.short).bind_yields ?_
  refine (reads_take laid.body).bind_yields_nil ?_
  cases Attributes.readBody pool found name with
  | none => exact yields_pure found
  | some read =>
      refine (yields_ofExcept (read (Input.ofBytes laid.body))).bind_nil fun result => ?_
      by_cases usedUp : result.2.rest = []
      · simp only [if_pos usedUp]
        exact yields_pure result.1
      · simp only [if_neg usedUp]
        exact yields_throw _

theorem takes_readOne (pool : ConstantPool) (found : Attributes) :
    Takes (Attributes.readOne pool found) fun _ taken =>
      ∃ laid : LaidAttribute, taken = laid.bytes := by
  -- Once the body is taken, no further byte is.
  have afterBody (name : String) (body : List UInt8) : Takes
      (match Attributes.readBody pool found name with
      | none => pure found
      | some read => do
          let (next, left) ← Reader.within body read
          if left.rest = [] then
            return next
          else
            throw (.attributeTrail name left.rest.length)) fun _ taken => taken = [] := by
    cases Attributes.readBody pool found name with
    | none => exact (takes_pure found).imp fun _ _ same => same.2
    | some read =>
        have closing (next : Attributes) (left : Input) : Takes
            (if left.rest = [] then pure next
            else throw (.attributeTrail name left.rest.length)) fun _ taken => taken = [] := by
          split
          · exact (takes_pure next).imp fun _ _ same => same.2
          · exact takes_throw _
        refine ((takes_ofExcept (read (Input.ofBytes body))).bind fun result =>
          closing result.1 result.2).imp ?_
        rintro _ _ ⟨_, _, _, rfl, rfl, rfl⟩
        rfl
  refine (takes_u2.bind fun index => (takes_ofExcept (pool.utf8 index)).bind fun name =>
    (takes_number 4).bind fun length => (takes_take length).bind fun body =>
      afterBody name body).imp ?_
  rintro _ _ ⟨_, _, _, rfl, ⟨half, _, rfl⟩, _, _, _, rfl, rfl, _, _, _, rfl, ⟨fits, rfl⟩,
    _, body, _, rfl, ⟨rfl, rfl⟩, rfl⟩
  exact ⟨⟨half, body, fits⟩, by rw [LaidAttribute.bytes, List.append_nil]; rfl⟩

end LaidAttribute

/-- What the attributes of a table say. -/
def absorbedAll (pool : ConstantPool) (table : List LaidAttribute) : Except Error Attributes :=
  table.foldlM (LaidAttribute.absorbed pool) {}

theorem yields_readMany (pool : ConstantPool) (found : Attributes) (table : List LaidAttribute) :
    Yields (Attributes.readMany pool table.length found) (table.flatMap LaidAttribute.bytes)
      (table.foldlM (LaidAttribute.absorbed pool) found) := by
  induction table generalizing found with
  | nil => exact yields_pure found
  | cons laid table inductionHypothesis =>
    rw [List.flatMap_cons, List.foldlM_cons]
    exact (laid.yields_readOne pool found).bind inductionHypothesis

theorem takes_readMany (pool : ConstantPool) (count : Nat) (found : Attributes) :
    Takes (Attributes.readMany pool count found) fun _ taken =>
      ∃ table : List LaidAttribute, table.length = count ∧
        taken = table.flatMap LaidAttribute.bytes := by
  induction count generalizing found with
  | zero => exact (takes_pure found).imp fun _ _ same => ⟨[], rfl, same.2⟩
  | succ count inductionHypothesis =>
    refine ((LaidAttribute.takes_readOne pool found).bind inductionHypothesis).imp ?_
    rintro _ _ ⟨_, _, _, rfl, ⟨laid, rfl⟩, table, rfl, rfl⟩
    exact ⟨laid :: table, rfl, rfl⟩

theorem yields_read (pool : ConstantPool) (table : Counted LaidAttribute) :
    Yields (Attributes.read pool) (table.bytes LaidAttribute.bytes)
      (absorbedAll pool table.items) :=
  (reads_u2 (Nat.lt_succ_of_le table.short)).bind_yields (yields_readMany pool {} table.items)

theorem takes_read (pool : ConstantPool) :
    Takes (Attributes.read pool) fun _ taken =>
      ∃ table : Counted LaidAttribute, taken = table.bytes LaidAttribute.bytes := by
  refine (takes_u2.bind fun count => takes_readMany pool count {}).imp ?_
  rintro _ _ ⟨_, _, _, rfl, ⟨half, rfl, rfl⟩, table, known, rfl⟩
  have short : table.length ≤ 0xFFFF := known ▸ Nat.le_of_lt_succ half.toNat_lt
  exact ⟨⟨table, short⟩, by rw [Counted.bytes, known, twoBytes]⟩

/-! ## Members -/

/-- A field or a method as it is laid out. -/
structure LaidMember where
  access : UInt16
  name : UInt16
  descriptor : UInt16
  attributes : Counted LaidAttribute

namespace LaidMember

def bytes (laid : LaidMember) : List UInt8 :=
  twoBytes laid.access ++ (twoBytes laid.name ++ (twoBytes laid.descriptor ++
    laid.attributes.bytes LaidAttribute.bytes))

/-- The member that is listed. -/
def listed (pool : ConstantPool) (laid : LaidMember) : Except Error WrittenMember := do
  let name ← pool.utf8 laid.name.toNat
  let descriptor ← pool.utf8 laid.descriptor.toNat
  let attributes ← absorbedAll pool laid.attributes.items
  return ⟨laid.access.toNat, name, descriptor, attributes⟩

theorem yields_read (pool : ConstantPool) (laid : LaidMember) :
    Yields (WrittenMember.read pool) laid.bytes (laid.listed pool) := by
  refine (reads_twoBytes laid.access).bind_yields ?_
  refine (reads_twoBytes laid.name).bind_yields ?_
  refine yields_ofExcept_bind _ fun name => ?_
  refine (reads_twoBytes laid.descriptor).bind_yields ?_
  refine yields_ofExcept_bind _ fun descriptor => ?_
  exact (ClassFile.yields_read pool laid.attributes).bind_nil fun attributes => yields_pure _

theorem takes_read (pool : ConstantPool) :
    Takes (WrittenMember.read pool) fun _ taken => ∃ laid : LaidMember, taken = laid.bytes := by
  refine (takes_u2.bind fun access => takes_u2.bind fun name =>
    (takes_ofExcept (pool.utf8 name)).bind fun _ => takes_u2.bind fun descriptor =>
    (takes_ofExcept (pool.utf8 descriptor)).bind fun _ =>
    (ClassFile.takes_read pool).bind fun _ => takes_pure _).imp ?_
  rintro _ _ ⟨_, _, _, rfl, ⟨access, _, rfl⟩, _, _, _, rfl, ⟨name, _, rfl⟩, _, _, _, rfl, rfl,
    _, _, _, rfl, ⟨descriptor, _, rfl⟩, _, _, _, rfl, rfl, _, _, _, rfl, ⟨table, rfl⟩, _, rfl⟩
  exact ⟨⟨access, name, descriptor, table⟩, by rw [LaidMember.bytes, List.append_nil]; rfl⟩

end LaidMember

/-! ## Class files -/

/-- The part of a class file behind the constant pool, as it is laid out. -/
structure LaidBody where
  access : UInt16
  name : UInt16
  superclass : UInt16
  interfaces : Counted UInt16
  fields : Counted LaidMember
  methods : Counted LaidMember
  attributes : Counted LaidAttribute

namespace LaidBody

def bytes (laid : LaidBody) : List UInt8 :=
  twoBytes laid.access ++ (twoBytes laid.name ++ (twoBytes laid.superclass ++
    (laid.interfaces.bytes twoBytes ++ (laid.fields.bytes LaidMember.bytes ++
      (laid.methods.bytes LaidMember.bytes ++ laid.attributes.bytes LaidAttribute.bytes)))))

/-- The class that is listed. -/
def listed (version : Nat) (pool : ConstantPool) (laid : LaidBody) :
    Except Error WrittenClass := do
  let name ← pool.className laid.name.toNat
  let superclass ← pool.optionalClassName laid.superclass.toNat
  let interfaces ← laid.interfaces.items.mapM fun index => pool.className index.toNat
  let fields ← laid.fields.items.mapM (LaidMember.listed pool)
  let methods ← laid.methods.items.mapM (LaidMember.listed pool)
  let attributes ← absorbedAll pool laid.attributes.items
  return ⟨version, laid.access.toNat, name, superclass, interfaces, fields, methods, attributes⟩

theorem yields_readAfterPool (version : Nat) (pool : ConstantPool) (laid : LaidBody) :
    Yields (readAfterPool version pool) laid.bytes (laid.listed version pool) := by
  refine (reads_twoBytes laid.access).bind_yields ?_
  refine (reads_twoBytes laid.name).bind_yields ?_
  refine yields_ofExcept_bind _ fun name => ?_
  refine (reads_twoBytes laid.superclass).bind_yields ?_
  refine yields_ofExcept_bind _ fun superclass => ?_
  refine (yields_counted (yields_lookup pool.className) laid.interfaces).bind
    fun interfaces => ?_
  refine (yields_counted (LaidMember.yields_read pool) laid.fields).bind fun fields => ?_
  refine (yields_counted (LaidMember.yields_read pool) laid.methods).bind fun methods => ?_
  exact (yields_read pool laid.attributes).bind_nil fun attributes => yields_pure _

theorem takes_readAfterPool (version : Nat) (pool : ConstantPool) :
    Takes (readAfterPool version pool) fun _ taken => ∃ laid : LaidBody, taken = laid.bytes := by
  refine (takes_u2.bind fun _ => takes_u2.bind fun name =>
    (takes_ofExcept (pool.className name)).bind fun _ => takes_u2.bind fun superclass =>
    (takes_ofExcept (pool.optionalClassName superclass)).bind fun _ =>
    (takes_counted (takes_lookup pool.className)).bind fun _ =>
    (takes_counted (LaidMember.takes_read pool)).bind fun _ =>
    (takes_counted (LaidMember.takes_read pool)).bind fun _ =>
    (takes_read pool).bind fun _ => takes_pure _).imp ?_
  rintro _ _ ⟨_, _, _, rfl, ⟨access, _, rfl⟩, _, _, _, rfl, ⟨name, _, rfl⟩, _, _, _, rfl, rfl,
    _, _, _, rfl, ⟨superclass, _, rfl⟩, _, _, _, rfl, rfl, _, _, _, rfl, ⟨interfaces, rfl⟩,
    _, _, _, rfl, ⟨fields, rfl⟩, _, _, _, rfl, ⟨methods, rfl⟩, _, _, _, rfl, ⟨table, rfl⟩, _, rfl⟩
  exact ⟨⟨access, name, superclass, interfaces, fields, methods, table⟩, by
    rw [bytes, List.append_nil]; rfl⟩

end LaidBody

/-- A class file as it is laid out, with the constant pool that its bytes spell. -/
structure Layout extends LaidBody where
  minorVersion : UInt16
  version : UInt16
  poolBytes : List UInt8
  pool : ConstantPool
  readsPool : Reads ConstantPool.read poolBytes pool

namespace Layout

def bytes (layout : Layout) : List UInt8 :=
  bigEndian 4 magic ++ (twoBytes layout.minorVersion ++ (twoBytes layout.version ++
    (layout.poolBytes ++ layout.toLaidBody.bytes)))

/-- The class that is listed. -/
def listed (layout : Layout) : Except Error WrittenClass :=
  layout.toLaidBody.listed layout.version.toNat layout.pool

theorem yields_read (layout : Layout) :
    Yields WrittenClass.read layout.bytes layout.listed := by
  refine (reads_u4 (by decide)).bind_yields ?_
  refine (reads_twoBytes layout.minorVersion).bind_yields ?_
  refine (reads_twoBytes layout.version).bind_yields ?_
  exact layout.readsPool.bind_yields (layout.toLaidBody.yields_readAfterPool _ _)

/-- The bytes of a layout list what its parts list. -/
theorem ofBytes_bytes (layout : Layout) : WrittenClass.ofBytes layout.bytes = layout.listed := by
  have yields := layout.yields_read 0 []
  rw [List.append_nil] at yields
  rw [WrittenClass.ofBytes, Input.ofBytes, yields]
  cases layout.listed <;> rfl

theorem takes_pool :
    Takes ConstantPool.read fun pool taken => Reads ConstantPool.read taken pool := by
  intro input pool left succeeds
  obtain ⟨taken, split, reads, _⟩ := ConstantPool.delimited_read input pool left succeeds
  exact ⟨taken, split, reads⟩

theorem takes_read :
    Takes WrittenClass.read fun _ taken => ∃ layout : Layout, layout.bytes = taken := by
  refine ((takes_number 4).bind fun found => (show Takes _ fun _ taken => found = magic ∧
    ∃ layout : Layout, layout.bytes = bigEndian 4 magic ++ taken from ?_)).imp ?_
  · split
    case isTrue =>
      intro input written left succeeds
      cases succeeds
    case isFalse isMagic =>
      refine (takes_u2.bind fun _ => takes_u2.bind fun version => takes_pool.bind fun pool =>
        LaidBody.takes_readAfterPool version pool).imp ?_
      rintro _ _ ⟨_, _, _, rfl, ⟨minorVersion, _, rfl⟩, _, _, _, rfl, ⟨version, _, rfl⟩, pool,
        poolBytes, _, rfl, reads, laid, rfl⟩
      exact ⟨not_not.mp isMagic, ⟨laid, minorVersion, version, poolBytes, pool, reads⟩, rfl⟩
  · rintro _ _ ⟨_, _, _, rfl, ⟨_, rfl⟩, rfl, layout, same⟩
    exact ⟨layout, same⟩

/-- Every file that lists a class has a layout. -/
theorem exists_of_ofBytes {bytes : List UInt8} {written : WrittenClass}
    (lists : WrittenClass.ofBytes bytes = .ok written) :
    ∃ layout : Layout, layout.bytes = bytes := by
  have reads := (WrittenClass.reads_of_ofBytes lists).1 0 []
  obtain ⟨taken, split, layout, rfl⟩ := takes_read _ _ _ reads
  refine ⟨layout, ?_⟩
  simpa using split.symm

end Layout

end JvmDiff.ClassFile
