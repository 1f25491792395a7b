import JvmDiff.Proofs.ClassFile.Gathering
import Mathlib.Data.List.Nodup

/-!
# Interning constants

Constants are asked for one after another, and each answer is the slot that the constant has in the
finished pool.  What carries this is that a draft has each entry once and never loses one: every
request finds or adds its entries, those of a class or a string behind the entry of their text.
-/

namespace JvmDiff.ClassFile.PoolDraft

/-! ## Requests -/

/-- What a draft can be asked for.  A class and a string are asked for by their text. -/
inductive Request where
  | utf8 (text : String)
  | integer (value : Int32)
  | float (value : Single)
  | long (value : Int64)
  | double (value : Double)
  | classRef (name : String)
  | string (text : String)
deriving DecidableEq, Repr

namespace Request

/-- The request for the constant of a field. -/
def ofConstant : Constant → Request
  | .int value => .integer value
  | .long value => .long value
  | .float value => .float value
  | .double value => .double value
  | .string value => .string value

/-- The slot of what is asked for, which is added if it is not there yet. -/
def answer : Request → StateM PoolDraft Nat
  | .utf8 text => intern (.utf8 text)
  | .integer value => intern (.integer value)
  | .float value => intern (.float value)
  | .long value => intern (.long value)
  | .double value => intern (.double value)
  | .classRef name => className name
  | .string text => constant (.string text)

/-- The text that is written for the request. -/
def text? : Request → Option String
  | .utf8 text => some text
  | .classRef name => some name
  | .string text => some text
  | _ => none

/-- The text of the request, if it has one, can be written. -/
def IsShort (request : Request) : Prop :=
  ∀ text ∈ request.text?, Short text

instance (request : Request) : Decidable request.IsShort :=
  inferInstanceAs (Decidable (∀ text ∈ request.text?, Short text))

/-- What is asked for is in the slot, when `has` says which entries are in which slots.  A class
and a string are there through the slot of their text. -/
def StandsAt (has : Entry → Nat → Prop) (slot : Nat) : Request → Prop
  | .utf8 text => has (.utf8 text) slot
  | .integer value => has (.integer value) slot
  | .float value => has (.float value) slot
  | .long value => has (.long value) slot
  | .double value => has (.double value) slot
  | .classRef name => ∃ textSlot, has (.utf8 name) textSlot ∧ has (.classRef textSlot) slot
  | .string text => ∃ textSlot, has (.utf8 text) textSlot ∧ has (.string textSlot) slot

section StandsAt

variable {has : Entry → Nat → Prop} {request other : Request} {slot : Nat}

theorem StandsAt.mono {more : Entry → Nat → Prop} (stands : request.StandsAt has slot)
    (kept : ∀ entry slot, has entry slot → more entry slot) : request.StandsAt more slot := by
  cases request with
  | classRef | string =>
    obtain ⟨textSlot, text, reference⟩ := stands
    exact ⟨textSlot, kept _ _ text, kept _ _ reference⟩
  | _ => exact kept _ _ stands

/-- If no entry has two slots, no request has two answers. -/
theorem StandsAt.slot_unique {otherSlot : Nat}
    (unique : ∀ entry slot otherSlot, has entry slot → has entry otherSlot → slot = otherSlot)
    (stands : request.StandsAt has slot) (standsOther : request.StandsAt has otherSlot) :
    slot = otherSlot := by
  cases request with
  | classRef | string =>
    obtain ⟨textSlot, text, reference⟩ := stands
    obtain ⟨otherTextSlot, otherText, otherReference⟩ := standsOther
    obtain rfl := unique _ _ _ text otherText
    exact unique _ _ _ reference otherReference
  | _ => exact unique _ _ _ stands standsOther

/-- If no slot has two entries, it answers no two requests. -/
theorem StandsAt.request_unique
    (unique : ∀ slot entry other, has entry slot → has other slot → entry = other)
    (stands : request.StandsAt has slot) (standsOther : other.StandsAt has slot) :
    request = other := by
  -- The entry in the slot tells the kind of the request, and of a reference the slot of its text.
  cases request <;> cases other <;> simp only [StandsAt] at stands standsOther <;> grind

end StandsAt

end Request

/-! ## Drafts -/

deriving instance DecidableEq for PoolDraft

/-- The entry is in the slot. -/
def Has (draft : PoolDraft) (entry : Entry) (slot : Nat) : Prop :=
  (entry, slot) ∈ draft.entries

/-- The entries fill the slots up to the next free one, and no entry is there twice. -/
structure WellFormed (draft : PoolDraft) : Prop where
  inSlots : InSlots draft.entries draft.next
  nodup : (draft.entries.map Prod.fst).Nodup

theorem wellFormed_empty : WellFormed {} where
  inSlots := .empty
  nodup := List.nodup_nil

theorem WellFormed.slot_unique {draft : PoolDraft} (wellFormed : draft.WellFormed) (entry : Entry)
    (slot other : Nat) (known : draft.Has entry slot) (again : draft.Has entry other) :
    slot = other := by
  have same := List.inj_on_of_nodup_map wellFormed.nodup known again rfl
  exact (Prod.mk.inj same).2

theorem nodup_intern (entry : Entry) {draft : PoolDraft}
    (nodup : (draft.entries.map Prod.fst).Nodup) :
    ((intern entry draft).2.entries.map Prod.fst).Nodup := by
  rw [intern]
  cases found : draft.entries.find? fun known => known.1 = entry with
  | some known => exact nodup
  | none =>
    refine List.nodup_cons.mpr ⟨fun member => ?_, nodup⟩
    obtain ⟨known, isKnown, same⟩ := List.mem_map.mp member
    exact List.find?_eq_none.mp found known isKnown (decide_eq_true same)

/-! ## Steps -/

/-- From a well-formed draft the step comes to another one, loses no entry, and returns a slot
with what is asked for. -/
def Answers (step : StateM PoolDraft Nat) (request : Request) : Prop :=
  ∀ draft : PoolDraft, draft.WellFormed →
    draft.entries ⊆ (step draft).2.entries ∧ (step draft).2.WellFormed ∧
      request.StandsAt (step draft).2.Has (step draft).1

theorem intern_wellFormed (entry : Entry) {draft : PoolDraft} (wellFormed : draft.WellFormed)
    (fits : entry.Fits draft.next) :
    draft.entries ⊆ (intern entry draft).2.entries ∧ (intern entry draft).2.WellFormed ∧
      (intern entry draft).2.Has entry (intern entry draft).1 := by
  obtain ⟨kept, inSlots, member⟩ := intern_draft entry wellFormed.inSlots fits
  exact ⟨kept, ⟨inSlots, nodup_intern entry wellFormed.nodup⟩, member⟩

theorem answers_intern (entry : Entry) (fits : ∀ next, entry.Fits next) {request : Request}
    (stands : ∀ {has : Entry → Nat → Prop} {slot : Nat}, has entry slot →
      request.StandsAt has slot) :
    Answers (intern entry) request := by
  intro draft wellFormed
  obtain ⟨kept, after, member⟩ := intern_wellFormed entry wellFormed (fits draft.next)
  exact ⟨kept, after, stands member⟩

/-- A text first, and then the entry that refers to its slot. -/
theorem answers_reference {text : String} (short : Short text) {refer : Nat → Entry}
    (fits : ∀ {slot next : Nat}, slot < next → (refer slot).Fits next) {request : Request}
    (stands : ∀ {has : Entry → Nat → Prop} {textSlot slot : Nat}, has (.utf8 text) textSlot →
      has (refer textSlot) slot → request.StandsAt has slot) :
    Answers (do let slot ← utf8 text; intern (refer slot)) request := by
  intro draft wellFormed
  obtain ⟨kept, between, member⟩ := intern_wellFormed (.utf8 text) wellFormed short
  have before := (between.inSlots.getElem_slots member).1
  obtain ⟨keptMore, after, memberAfter⟩ := intern_wellFormed _ between (fits before)
  exact ⟨fun _ earlier => keptMore (kept earlier), after, stands (keptMore member) memberAfter⟩

theorem Request.answers {request : Request} (short : request.IsShort) :
    Answers request.answer request := by
  cases request with
  | classRef name =>
    exact answers_reference (short name rfl) id fun text reference => ⟨_, text, reference⟩
  | string value =>
    exact answers_reference (short value rfl) id fun text reference => ⟨_, text, reference⟩
  | utf8 text => exact answers_intern (.utf8 text) (fun _ => short text rfl) id
  | integer value => exact answers_intern (.integer value) (fun _ => trivial) id
  | float value => exact answers_intern (.float value) (fun _ => trivial) id
  | long value => exact answers_intern (.long value) (fun _ => trivial) id
  | double value => exact answers_intern (.double value) (fun _ => trivial) id

/-! ## Runs -/

/-- The ways to ask a draft. -/
inductive Call where
  | intern (request : Request)
  | utf8 (text : String)
  | className (name : String)
  | constant (value : Constant)

namespace Call

/-- What the call asks for. -/
def request : Call → Request
  | .intern request => request
  | .utf8 text => .utf8 text
  | .className name => .classRef name
  | .constant value => .ofConstant value

def run : Call → StateM PoolDraft Nat
  | .intern request => request.answer
  | .utf8 text => PoolDraft.utf8 text
  | .className name => PoolDraft.className name
  | .constant value => PoolDraft.constant value

theorem run_eq_answer (call : Call) : call.run = call.request.answer := by
  cases call with
  | constant value => cases value <;> rfl
  | _ => rfl

end Call

/-- The slots that the calls return, in their order, and the draft after them. -/
def answers (calls : List Call) (draft : PoolDraft) : List Nat × PoolDraft :=
  calls.mapM Call.run draft

theorem answers_cons (call : Call) (calls : List Call) (draft : PoolDraft) :
    answers (call :: calls) draft =
      ((call.run draft).1 :: (answers calls (call.run draft).2).1,
        (answers calls (call.run draft).2).2) := by
  rw [answers, List.mapM_cons]
  rfl

/-- Calls keep a draft well formed and lose no entry, and after all of them each slot returned
still has what was asked for. -/
theorem run_wellFormed {calls : List Call} (short : ∀ call ∈ calls, call.request.IsShort)
    {draft : PoolDraft} (wellFormed : draft.WellFormed) :
    draft.entries ⊆ (answers calls draft).2.entries ∧ (answers calls draft).2.WellFormed ∧
      List.Forall₂ (fun call slot => call.request.StandsAt (answers calls draft).2.Has slot) calls
        (answers calls draft).1 := by
  induction calls generalizing draft with
  | nil => exact ⟨List.Subset.refl _, wellFormed, .nil⟩
  | cons call calls inductionHypothesis =>
    obtain ⟨first, others⟩ := List.forall_mem_cons.mp short
    obtain ⟨kept, between, stands⟩ := Request.answers first draft wellFormed
    rw [← Call.run_eq_answer] at kept between stands
    obtain ⟨keptMore, after, standOthers⟩ := inductionHypothesis others between
    rw [answers_cons]
    refine ⟨fun _ earlier => keptMore (kept earlier), after, .cons ?_ standOthers⟩
    exact stands.mono fun _ _ earlier => keptMore earlier

/-- Calls to an empty draft, whose texts and slots are few enough for two bytes, return the slots
where the pool that is read from the bytes has what they asked for; and the slots of two calls are
equal exactly if the calls asked for the same. -/
theorem interned_slots_resolve {calls : List Call} {slots : List Nat} {draft : PoolDraft}
    (run : answers calls {} = (slots, draft)) (short : ∀ call ∈ calls, call.request.IsShort)
    (bound : draft.next ≤ 0xFFFF) :
    ∃ pool : ConstantPool,
      ConstantPool.read (Input.ofBytes (bigEndian 2 draft.next ++ draft.bytes)) =
        .ok (pool, ⟨2 + draft.bytes.length, []⟩) ∧
      List.Forall₂ (fun call slot => call.request.StandsAt pool.HasAt slot) calls slots ∧
      ∀ answered ∈ calls.zip slots, ∀ other ∈ calls.zip slots,
        answered.2 = other.2 ↔ answered.1.request = other.1.request := by
  obtain ⟨_, wellFormed, stand⟩ := run_wellFormed short wellFormed_empty
  rw [run] at wellFormed stand
  obtain ⟨pool, holds, reads⟩ := exists_pool wellFormed.inSlots bound
  have inPool : List.Forall₂ (fun call slot => call.request.StandsAt pool.HasAt slot) calls slots :=
    stand.imp fun _ _ stands => stands.mono holds
  refine ⟨pool, ?_, inPool, ?_⟩
  · have whole := reads 0 []
    rw [List.append_nil, List.length_append, length_bigEndian, Nat.zero_add] at whole
    exact whole
  · intro answered member other memberOther
    constructor
    · intro same
      have first := (List.forall₂_iff_zip.mp inPool).2 member
      have second := (List.forall₂_iff_zip.mp inPool).2 memberOther
      rw [← same] at second
      exact first.request_unique
        (fun _ _ _ found again => Except.ok.inj (found.get.symm.trans again.get)) second
    · intro same
      have first := (List.forall₂_iff_zip.mp stand).2 member
      have second := (List.forall₂_iff_zip.mp stand).2 memberOther
      rw [← same] at second
      exact first.slot_unique wellFormed.slot_unique second

/-- A class, a long, and the text of the class as a text, as a string and as a class again. -/
def boxCalls : List Call :=
  [.className "Box", .constant (.long 7), .utf8 "Box", .constant (.string "Box"),
    .intern (.classRef "Box")]

def boxDraft : PoolDraft where
  entries := [(.string 1, 5), (.long 7, 3), (.classRef 1, 2), (.utf8 "Box", 1)]
  next := 6

theorem interned_slots_resolve_box :
    answers boxCalls {} = ([2, 3, 1, 5, 2], boxDraft) ∧
      (∀ call ∈ boxCalls, call.request.IsShort) ∧ boxDraft.next ≤ 0xFFFF ∧
      ∃ pool : ConstantPool,
        ConstantPool.read (Input.ofBytes (bigEndian 2 boxDraft.next ++ boxDraft.bytes)) =
          .ok (pool, ⟨2 + boxDraft.bytes.length, []⟩) ∧
        List.Forall₂ (fun call slot => call.request.StandsAt pool.HasAt slot) boxCalls
          [2, 3, 1, 5, 2] ∧
        ∀ answered ∈ boxCalls.zip [2, 3, 1, 5, 2], ∀ other ∈ boxCalls.zip [2, 3, 1, 5, 2],
          answered.2 = other.2 ↔ answered.1.request = other.1.request := by
  have run : answers boxCalls {} = ([2, 3, 1, 5, 2], boxDraft) := by decide +kernel
  have short : ∀ call ∈ boxCalls, call.request.IsShort := by decide +kernel
  have bound : boxDraft.next ≤ 0xFFFF := by decide
  exact ⟨run, short, bound, interned_slots_resolve run short bound⟩

end JvmDiff.ClassFile.PoolDraft
