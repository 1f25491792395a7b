import JvmDiff.Proofs.ClassFile.Pool

/-!
# Gathering constants while writing

Writing a part only ever adds entries to the draft of the pool.  So what a part refers to is in
every pool that has the entries of a later draft, in particular in the pool of the whole file.
-/

namespace JvmDiff.ClassFile

open Reader

/-! ## Steps of writing -/

/-- The step adds entries to a draft and nothing else, and what it returns is
known of every pool that has the entries then there. -/
def Gathers {α : Type} (step : StateM PoolDraft α) (known : ConstantPool → α → Prop) : Prop :=
  ∀ draft : PoolDraft, InSlots draft.entries draft.next →
    draft.entries ⊆ (step draft).2.entries ∧
      InSlots (step draft).2.entries (step draft).2.next ∧
        ∀ pool : ConstantPool, pool.Holds (step draft).2 → known pool (step draft).1

section Steps

variable {α β : Type}

theorem gathers_pure {value : α} {known : ConstantPool → α → Prop}
    (isKnown : ∀ pool, known pool value) : Gathers (pure value) known :=
  fun _ inSlots => ⟨List.Subset.refl _, inSlots, fun pool _ => isKnown pool⟩

/-- What a step makes known stays known while more entries are added. -/
theorem Gathers.bind {step : StateM PoolDraft α} {next : α → StateM PoolDraft β}
    {known : ConstantPool → α → Prop} {result : ConstantPool → β → Prop}
    (gathers : Gathers step known)
    (gathersNext : ∀ value, Gathers (next value) fun pool more =>
      known pool value → result pool more) :
    Gathers (step >>= next) result := by
  intro draft inSlots
  obtain ⟨kept, inSlotsAfter, isKnown⟩ := gathers draft inSlots
  obtain ⟨keptMore, inSlotsEnd, isResult⟩ := gathersNext (step draft).1 (step draft).2 inSlotsAfter
  refine ⟨fun _ member => keptMore (kept member), inSlotsEnd, fun pool holds =>
    isResult pool holds ?_⟩
  exact isKnown pool fun entry slot member => holds entry slot (keptMore member)

theorem Gathers.imp {step : StateM PoolDraft α} {known weaker : ConstantPool → α → Prop}
    (gathers : Gathers step known) (implied : ∀ pool value, known pool value → weaker pool value) :
    Gathers step weaker := by
  intro draft inSlots
  obtain ⟨kept, inSlotsAfter, isKnown⟩ := gathers draft inSlots
  exact ⟨kept, inSlotsAfter, fun pool holds => implied pool _ (isKnown pool holds)⟩

theorem Gathers.and {step : StateM PoolDraft α} {first second : ConstantPool → α → Prop}
    (gathersFirst : Gathers step first) (gathersSecond : Gathers step second) :
    Gathers step fun pool value => first pool value ∧ second pool value := by
  intro draft inSlots
  obtain ⟨kept, inSlotsAfter, isFirst⟩ := gathersFirst draft inSlots
  obtain ⟨_, _, isSecond⟩ := gathersSecond draft inSlots
  exact ⟨kept, inSlotsAfter, fun pool holds => ⟨isFirst pool holds, isSecond pool holds⟩⟩

theorem Gathers.map {step : StateM PoolDraft α} {arrange : α → β}
    {known : ConstantPool → α → Prop} {result : ConstantPool → β → Prop}
    (gathers : Gathers step known)
    (implied : ∀ pool value, known pool value → result pool (arrange value)) :
    Gathers (do let value ← step; return arrange value) result :=
  gathers.bind fun value => gathers_pure fun pool isKnown => implied pool value isKnown

theorem gathers_mapM {write : α → StateM PoolDraft β} {known : ConstantPool → α → β → Prop}
    {parts : List α} (gathers : ∀ part ∈ parts, Gathers (write part) fun pool => known pool part) :
    Gathers (parts.mapM write) fun pool items => List.Forall₂ (known pool) parts items := by
  induction parts with
  | nil =>
    rw [List.mapM_nil]
    exact gathers_pure fun pool => List.Forall₂.nil
  | cons part parts inductionHypothesis =>
    obtain ⟨first, rest⟩ := List.forall_mem_cons.mp gathers
    rw [List.mapM_cons]
    refine first.bind fun item => (inductionHypothesis rest).map fun pool items more isKnown => ?_
    exact List.Forall₂.cons isKnown more

end Steps

/-! ## Slots of constants -/

namespace PoolDraft

/-- An entry that can be added to a draft is in its slot afterwards. -/
theorem intern_draft (entry : Entry) {draft : PoolDraft}
    (inSlots : InSlots draft.entries draft.next) (fits : entry.Fits draft.next) :
    draft.entries ⊆ (intern entry draft).2.entries ∧
      InSlots (intern entry draft).2.entries (intern entry draft).2.next ∧
        (entry, (intern entry draft).1) ∈ (intern entry draft).2.entries := by
  rw [intern]
  cases found : draft.entries.find? fun known => known.1 = entry with
  | none => exact ⟨List.subset_cons_self _ _, inSlots.add fits, List.mem_cons_self⟩
  | some known =>
    have same : known.1 = entry := by
      have holds := List.find?_some found
      exact of_decide_eq_true holds
    refine ⟨List.Subset.refl _, inSlots, ?_⟩
    rw [← same]
    exact List.mem_of_find?_eq_some found

theorem gathers_intern (entry : Entry) (fits : ∀ next, entry.Fits next) :
    Gathers (intern entry) fun pool slot => pool.HasAt entry slot := by
  intro draft inSlots
  obtain ⟨kept, inSlotsAfter, member⟩ := intern_draft entry inSlots (fits draft.next)
  exact ⟨kept, inSlotsAfter, fun pool holds => holds _ _ member⟩

theorem gathers_utf8 {text : String} (short : Short text) :
    Gathers (utf8 text) fun pool slot => pool.HasAt (.utf8 text) slot :=
  gathers_intern (.utf8 text) fun _ => short

theorem gathers_reference {text : String} (short : Short text) (refer : Nat → Entry)
    (fits : ∀ {slot next : Nat}, slot < next → (refer slot).Fits next) :
    Gathers (do let slot ← utf8 text; intern (refer slot)) fun pool slot =>
      ∃ textSlot, pool.HasAt (.utf8 text) textSlot ∧ pool.HasAt (refer textSlot) slot := by
  intro draft inSlots
  -- The text is there first, so the reference can be written wherever it goes.
  obtain ⟨kept, inSlotsText, member⟩ := intern_draft (.utf8 text) inSlots short
  have before := (inSlotsText.getElem_slots member).1
  obtain ⟨keptMore, inSlotsEnd, memberEnd⟩ := intern_draft _ inSlotsText (fits before)
  refine ⟨fun _ earlier => keptMore (kept earlier), inSlotsEnd, fun pool holds => ?_⟩
  exact ⟨_, holds _ _ (keptMore member), holds _ _ memberEnd⟩

end PoolDraft

/-! ## Slots as bytes -/

/-- The bytes are a slot where the pool has what is looked for. -/
def AtSlot {α : Type} (get : Nat → Except Error α) (value : α) (bytes : List UInt8) : Prop :=
  ∃ slot < 0x10000, get slot = .ok value ∧ bytes = bigEndian 2 slot

section AtSlot

variable {α β : Type} {get : Nat → Except Error α} {value : α} {bytes : List UInt8}

theorem AtSlot.length (atSlot : AtSlot get value bytes) : bytes.length = 2 := by
  obtain ⟨slot, _, _, rfl⟩ := atSlot
  exact length_bigEndian 2 slot

theorem AtSlot.reads (atSlot : AtSlot get value bytes) :
    Reads (do Reader.ofExcept (get (← u2))) bytes value := by
  obtain ⟨slot, bound, found, rfl⟩ := atSlot
  exact (reads_u2 bound).bind_nil (reads_ofExcept found)

theorem AtSlot.reads_bind (atSlot : AtSlot get value bytes) {next : α → Reader β}
    {more : List UInt8} {result : β} (reads : Reads (next value) more result) :
    Reads (do let found ← Reader.ofExcept (get (← u2)); next found) (bytes ++ more) result := by
  obtain ⟨slot, bound, found, rfl⟩ := atSlot
  exact (reads_u2 bound).bind (Reads.ofExcept_bind found reads)

theorem AtSlot.reads_result (atSlot : AtSlot get value bytes) {next : α → Reader β} {result : β}
    (reads : Reads (next value) [] result) :
    Reads (do let found ← Reader.ofExcept (get (← u2)); next found) bytes result := by
  have joined := atSlot.reads_bind reads
  rwa [List.append_nil] at joined

end AtSlot

theorem utf8_of_get {pool : ConstantPool} {slot : Nat} {text : String}
    (found : pool.get slot = .ok (.utf8 text)) : pool.utf8 slot = .ok text := by
  rw [ConstantPool.utf8, found]
  rfl

theorem gathers_entry {α : Type} (entry : Entry) (fits : ∀ next, entry.Fits next)
    {get : ConstantPool → Nat → Except Error α} {value : α}
    (found : ∀ {pool : ConstantPool} {slot : Nat}, pool.get slot = .ok entry →
      get pool slot = .ok value) :
    Gathers (slot (PoolDraft.intern entry)) fun pool bytes => AtSlot (get pool) value bytes :=
  (PoolDraft.gathers_intern entry fits).map fun _ slot hasAt =>
    ⟨slot, hasAt.bound, found hasAt.get, rfl⟩

theorem gathers_text {text : String} (short : Short text) :
    Gathers (slot (PoolDraft.utf8 text)) fun pool bytes => AtSlot pool.utf8 text bytes :=
  gathers_entry (.utf8 text) (fun _ => short) utf8_of_get

theorem gathers_class {name : String} (short : Short name) :
    Gathers (slot (PoolDraft.className name)) fun pool bytes =>
      AtSlot pool.className name bytes ∧ AtSlot pool.optionalClassName (some name) bytes := by
  refine (PoolDraft.gathers_reference short .classRef id).map ?_
  intro pool slot ⟨textSlot, text, reference⟩
  have found : pool.className slot = .ok name := by
    rw [ConstantPool.className, reference.get]
    exact utf8_of_get text.get
  refine ⟨⟨slot, reference.bound, found, rfl⟩, ⟨slot, reference.bound, ?_, rfl⟩⟩
  rw [ConstantPool.optionalClassName, if_neg (Nat.ne_of_gt reference.pos), found]
  rfl

/-- A text as a constant is short. -/
def ConstantFits : Constant → Prop
  | .string value => Short value
  | _ => True

theorem gathers_constant {constant : Constant} (fits : ConstantFits constant) :
    Gathers (slot (PoolDraft.constant constant)) fun pool bytes =>
      AtSlot pool.fieldConstant constant bytes := by
  cases constant with
  | int value =>
    exact gathers_entry (.integer value) (fun _ => trivial) fun found => by
      rw [ConstantPool.fieldConstant, found]; rfl
  | long value =>
    exact gathers_entry (.long value) (fun _ => trivial) fun found => by
      rw [ConstantPool.fieldConstant, found]; rfl
  | float value =>
    exact gathers_entry (.float value) (fun _ => trivial) fun found => by
      rw [ConstantPool.fieldConstant, found]; rfl
  | double value =>
    exact gathers_entry (.double value) (fun _ => trivial) fun found => by
      rw [ConstantPool.fieldConstant, found]; rfl
  | string value =>
    refine (PoolDraft.gathers_reference fits .string id).map ?_
    intro pool slot ⟨textSlot, text, reference⟩
    refine ⟨slot, reference.bound, ?_, rfl⟩
    rw [ConstantPool.fieldConstant, reference.get]
    exact congrArg (Except.map Constant.string) (utf8_of_get text.get)

end JvmDiff.ClassFile
