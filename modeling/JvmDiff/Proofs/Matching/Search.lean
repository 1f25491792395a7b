import JvmDiff.Proofs.Matching.Plain

/-!
# Matching by search

What a matching is can be said without any index: each element of the earlier list looks for a
partner from the front of the later list, past the elements that are taken and those with another
label.  That takes a number of steps for each element, where a queue takes one.  Queues and search
go through the same states, so they find the same pairs in the same order.
-/

namespace JvmDiff.Matching

variable {α : Type}

/-! ## Searching -/

/-- The elements whose positions are not taken. -/
def untaken (elements : List (α × Nat)) (taken : List Nat) : List (α × Nat) :=
  elements.filter fun element => element.2 ∉ taken

/-- The first element with the label whose position is not taken. -/
def firstUntaken? (label : α → String) (elements : List (α × Nat)) (taken : List Nat)
    (wanted : String) : Option (α × Nat) :=
  elements.find? fun element => element.2 ∉ taken ∧ label element.1 = wanted

/-- The outcome of a search for partners. -/
structure Searched (α : Type) where
  pairs : List (α × α)
  /-- The elements that found no partner. -/
  alone : List α
  /-- The positions of all elements that are taken. -/
  taken : List Nat

/-- Each element takes the first one with its label that is not taken yet. -/
def search (label : α → String) (elements : List (α × Nat)) : List α → List Nat → Searched α
  | [], taken => ⟨[], [], taken⟩
  | element :: rest, taken =>
      match firstUntaken? label elements taken (label element) with
      | none =>
          let searched := search label elements rest taken
          { searched with alone := element :: searched.alone }
      | some partner =>
          let searched := search label elements rest (partner.2 :: taken)
          { searched with pairs := (element, partner.1) :: searched.pairs }

/-- The correspondence of two lists, found by search: first for partners of the
same fingerprint, then for partners of the same name. -/
def bySearch (name fingerprint : α → String) (previous next : List α) : Matching α :=
  let elements := next.zipIdx
  let first := search fingerprint elements previous []
  let second := search name elements first.alone first.taken
  { unchanged := first.pairs
    modified := second.pairs
    removed := second.alone
    added := (untaken elements second.taken).map Prod.fst }

theorem untaken_cons (elements : List (α × Nat)) (position : Nat) (taken : List Nat) :
    untaken elements (position :: taken) =
      (untaken elements taken).filter fun element => element.2 ≠ position := by
  rw [untaken, untaken, List.filter_filter]
  refine List.filter_congr fun element _ => ?_
  simp

theorem firstUntaken?_eq_head? (label : α → String) (elements : List (α × Nat))
    (taken : List Nat) (wanted : String) :
    firstUntaken? label elements taken wanted =
      (withLabel (fun element => label element.1) (untaken elements taken) wanted).head? := by
  rw [firstUntaken?, withLabel, untaken, List.filter_filter, List.head?_filter]
  congr 1
  funext element
  simp [and_comm]

theorem subset_taken_search (label : α → String) (elements : List (α × Nat)) (previous : List α)
    (taken : List Nat) : taken ⊆ (search label elements previous taken).taken := by
  induction previous generalizing taken with
  | nil => exact List.Subset.refl taken
  | cons element previous inductionHypothesis =>
    rw [search]
    split
    · exact inductionHypothesis taken
    · exact fun position member => inductionHypothesis _ (List.mem_cons_of_mem _ member)

/-! ## Queues and positions -/

/-- An element is told from the others by its position. -/
theorem Numbered.eq_of_position_eq {elements : List (α × Nat)} (numbered : Numbered elements)
    {first second : α × Nat} (firstMember : first ∈ elements) (secondMember : second ∈ elements)
    (same : first.2 = second.2) : first = second := by
  have distinct : (elements.map Prod.snd).Nodup :=
    List.pairwise_map.mpr (numbered.imp Nat.ne_of_lt)
  exact List.inj_on_of_nodup_map distinct firstMember secondMember same

/-- The queues hold just the elements that are not taken, each under its label. -/
def HoldsUntaken (label : α → String) (elements : List (α × Nat)) (queues : Queues α)
    (taken : List Nat) : Prop :=
  ∀ wanted, queue queues wanted =
    withLabel (fun element => label element.1) (untaken elements taken) wanted

namespace HoldsUntaken

variable {label : α → String} {elements : List (α × Nat)} {queues : Queues α} {taken : List Nat}

theorem of_queuesOf (label : α → String) (elements : List (α × Nat)) (taken : List Nat) :
    HoldsUntaken label elements (queuesOf label (untaken elements taken)) taken :=
  queue_queuesOf label (untaken elements taken)

/-- Taking the head of a queue is taking its position. -/
theorem take (holds : HoldsUntaken label elements queues taken) (numbered : Numbered elements)
    {wanted : String} {partner : α × Nat} {others : List (α × Nat)}
    (queued : queue queues wanted = partner :: others) :
    HoldsUntaken label elements (queues.insert wanted others) (partner.2 :: taken) := by
  intro other
  have later : withLabel (fun element => label element.1)
        (untaken elements (partner.2 :: taken)) other =
      (queue queues other).filter fun element => element.2 ≠ partner.2 := by
    rw [untaken_cons, holds, withLabel, List.filter_comm, withLabel]
  have fromElements : ∀ {label element}, element ∈ queue queues label →
      element ∈ elements := by
    intro label element member
    rw [holds] at member
    exact List.mem_of_mem_filter (List.mem_of_mem_filter member)
  have ascending : Numbered (partner :: others) := by
    rw [← queued, holds]
    exact numbered.sublist (List.filter_sublist.trans List.filter_sublist)
  rw [later, queue_insert]
  by_cases same : other = wanted
  · -- All that wait behind the partner have later positions.
    subst same
    rw [if_pos rfl, queued, List.filter_cons_of_neg (by simp), List.filter_eq_self.mpr]
    intro element member
    exact decide_eq_true (Nat.ne_of_gt ((List.pairwise_cons.mp ascending).1 element member))
  · -- An element of another label is not the partner, so it has another position.
    rw [if_neg same, List.filter_eq_self.mpr]
    intro element member
    refine decide_eq_true fun samePosition => same ?_
    have isPartner : partner ∈ queue queues wanted := queued ▸ List.mem_cons_self
    obtain rfl := numbered.eq_of_position_eq (fromElements member) (fromElements isPartner)
      samePosition
    rw [holds] at member isPartner
    exact (mem_withLabel.mp member).2.symm.trans (mem_withLabel.mp isPartner).2

/-- A search and a pass find the same, and leave the same. -/
theorem search_eq_pass (holds : HoldsUntaken label elements queues taken)
    (numbered : Numbered elements) (previous : List α) :
    (search label elements previous taken).pairs = (pass label previous queues).pairs ∧
      (search label elements previous taken).alone = (pass label previous queues).alone ∧
      HoldsUntaken label elements (pass label previous queues).queues
        (search label elements previous taken).taken := by
  induction previous generalizing queues taken with
  | nil => exact ⟨rfl, rfl, holds⟩
  | cons element previous inductionHypothesis =>
    rw [search, pass, firstUntaken?_eq_head?, ← holds]
    cases queued : queue queues (label element) with
    | nil =>
      obtain ⟨samePairs, sameAlone, leaves⟩ := inductionHypothesis holds
      exact ⟨samePairs, congrArg (element :: ·) sameAlone, leaves⟩
    | cons partner others =>
      obtain ⟨samePairs, sameAlone, leaves⟩ := inductionHypothesis (holds.take numbered queued)
      exact ⟨congrArg ((element, partner.1) :: ·) samePairs, sameAlone, leaves⟩

/-- The elements that still wait are those that are not taken. -/
theorem waiting_eq (holds : HoldsUntaken label elements queues taken) {earlier : List Nat}
    (more : earlier ⊆ taken) :
    waiting label queues (untaken elements earlier) = untaken elements taken := by
  rw [waiting, untaken, List.filter_filter, untaken]
  refine List.filter_congr fun element member => ?_
  rw [Bool.eq_iff_iff, Bool.and_eq_true, List.any_eq_true, decide_eq_true_eq, decide_eq_true_eq]
  constructor
  · rintro ⟨⟨other, waits, samePosition⟩, _⟩
    rw [holds] at waits
    have free := (List.mem_filter.mp (mem_withLabel.mp waits).1).2
    rwa [← of_decide_eq_true samePosition, ← decide_eq_true_eq (p := other.2 ∉ taken)]
  · intro free
    refine ⟨⟨element, ?_, decide_eq_true rfl⟩, fun early => free (more early)⟩
    rw [holds]
    exact mem_withLabel.mpr ⟨List.mem_filter.mpr ⟨member, decide_eq_true free⟩, rfl⟩

end HoldsUntaken

/-- Matching by queues is matching by search: the same pairs, the same elements
without partners, and all of them in the same order. -/
theorem of_eq_bySearch (name fingerprint : α → String) (previous next : List α) :
    of name fingerprint previous next = bySearch name fingerprint previous next := by
  have numbered := numbered_zipIdx next
  have all : untaken next.zipIdx [] = next.zipIdx := List.filter_eq_self.mpr (by simp)
  obtain ⟨unchanged, pending, firstLeaves⟩ :=
    (all ▸ HoldsUntaken.of_queuesOf fingerprint next.zipIdx []).search_eq_pass numbered previous
  have free := firstLeaves.waiting_eq (List.nil_subset _)
  rw [all] at free
  obtain ⟨modified, removed, secondLeaves⟩ :=
    (HoldsUntaken.of_queuesOf name next.zipIdx
      (search fingerprint next.zipIdx previous []).taken).search_eq_pass numbered
        (search fingerprint next.zipIdx previous []).alone
  have added := secondLeaves.waiting_eq (subset_taken_search name next.zipIdx _ _)
  rw [of, bySearch]
  simp only [free, unchanged, ← pending, modified, removed, added]

end JvmDiff.Matching
