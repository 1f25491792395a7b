import JvmDiff.Matching
import Mathlib.Data.List.Sort
import Mathlib.Logic.Function.Basic

/-!
# Matching without queues

The queues of a matching are only a way to look things up.  What a pass finds is determined by
the elements of each label: the first of them take partners in turn, those that come after the
last partner stay alone.  `Matching.of_eq_plain` states the whole matching in these terms, and
the lemmas beside the two plain functions say what they leave of each label.
-/

namespace JvmDiff.Matching

variable {α β γ : Type}

/-! ## Elements by label -/

/-- The elements with a label, in their order. -/
def withLabel (label : α → String) (elements : List α) (wanted : String) : List α :=
  elements.filter fun element => label element = wanted

/-- How often a label occurs. -/
def occurrences (label : α → String) (elements : List α) (wanted : String) : Nat :=
  (withLabel label elements wanted).length

theorem mem_withLabel {label : α → String} {elements : List α} {wanted : String} {element : α} :
    element ∈ withLabel label elements wanted ↔ element ∈ elements ∧ label element = wanted := by
  simp [withLabel]

theorem withLabel_cons_self (label : α → String) (element : α) (elements : List α) :
    withLabel label (element :: elements) (label element) =
      element :: withLabel label elements (label element) := by
  simp [withLabel]

theorem withLabel_cons_of_ne (label : α → String) (element : α) {wanted : String}
    (different : wanted ≠ label element) (elements : List α) :
    withLabel label (element :: elements) wanted = withLabel label elements wanted := by
  simp [withLabel, Ne.symm different]

theorem withLabel_append (label : α → String) (first second : List α) (wanted : String) :
    withLabel label (first ++ second) wanted =
      withLabel label first wanted ++ withLabel label second wanted :=
  List.filter_append first second

theorem withLabel_map (label : β → String) (f : α → β) (elements : List α) (wanted : String) :
    withLabel label (elements.map f) wanted =
      (withLabel (fun element => label (f element)) elements wanted).map f := by
  simp only [withLabel, List.filter_map]
  rfl

theorem occurrences_map (label : β → String) (f : α → β) (elements : List α) :
    occurrences label (elements.map f) =
      occurrences (fun element => label (f element)) elements := by
  funext wanted
  rw [occurrences, withLabel_map, List.length_map, occurrences]

/-- Lists with the same elements of each label are permutations of each
other. -/
theorem perm_of_withLabel_perm (label : α → String) {first second : List α}
    (sameLabels : ∀ wanted,
      (withLabel label first wanted).Perm (withLabel label second wanted)) :
    first.Perm second := by
  classical
  rw [List.perm_iff_count]
  intro element
  have counted : ∀ elements : List α,
      (withLabel label elements (label element)).count element = elements.count element := by
    intro elements
    exact List.count_filter (by simp)
  rw [← counted first, ← counted second]
  exact (sameLabels (label element)).count_eq element

/-! ## The pairs of a pass -/

/-- Each element with the first that still waits under its label. -/
def served (label : α → String) : List α → (String → List β) → List (α × β)
  | [], _ => []
  | element :: elements, waiting =>
      match waiting (label element) with
      | [] => served label elements waiting
      | partner :: others =>
          (element, partner) ::
            served label elements (Function.update waiting (label element) others)

/-- Under each label, the elements and those that wait pair off in order. -/
theorem withLabel_served (label : α → String) (elements : List α)
    (waiting : String → List β) (wanted : String) :
    withLabel (fun pair => label pair.1) (served label elements waiting) wanted =
      (withLabel label elements wanted).zip (waiting wanted) := by
  induction elements generalizing waiting with
  | nil => rfl
  | cons element elements inductionHypothesis =>
    rw [served]
    by_cases same : wanted = label element
    · subst same
      rw [withLabel_cons_self]
      split
      case h_1 none =>
        rw [inductionHypothesis, none, List.zip_nil_right, List.zip_nil_right]
      case h_2 partner others some =>
        rw [some, List.zip_cons_cons,
          withLabel_cons_self (fun pair : α × β => label pair.1) (element, partner),
          inductionHypothesis, Function.update_self]
    · rw [withLabel_cons_of_ne _ _ same]
      split
      case h_1 => exact inductionHypothesis waiting
      case h_2 partner others _ =>
        rw [withLabel_cons_of_ne (fun pair : α × β => label pair.1) (element, partner) same,
          inductionHypothesis, Function.update_of_ne same]

/-- Every pair is made of an element and one that waited under its label. -/
theorem mem_of_mem_served {label : α → String} {elements : List α}
    {waiting : String → List β} {pair : α × β}
    (member : pair ∈ served label elements waiting) :
    pair.1 ∈ elements ∧ pair.2 ∈ waiting (label pair.1) := by
  have labelled :
      pair ∈ withLabel (fun pair => label pair.1) (served label elements waiting)
        (label pair.1) :=
    mem_withLabel.mpr ⟨member, rfl⟩
  rw [withLabel_served] at labelled
  obtain ⟨first, second⟩ := List.of_mem_zip labelled
  exact ⟨(mem_withLabel.mp first).1, second⟩

/-- Serving looks at labels only. -/
theorem served_map (label : β → String) (f : α → β) (elements : List α)
    (waiting : String → List α) :
    served label (elements.map f) (fun wanted => (waiting wanted).map f) =
      (served (fun element => label (f element)) elements waiting).map (Prod.map f f) := by
  induction elements generalizing waiting with
  | nil => rfl
  | cons element elements inductionHypothesis =>
    rw [List.map_cons, served, served]
    cases queued : waiting (label (f element)) with
    | nil => exact inductionHypothesis waiting
    | cons partner others =>
      simp only [List.map_cons, Prod.map_apply, ← inductionHypothesis]
      congr 2
      funext wanted
      by_cases same : wanted = label (f element)
      · subst same
        rw [Function.update_self, Function.update_self]
      · rw [Function.update_of_ne same, Function.update_of_ne same]

/-! ## The rest of a pass -/

/-- The elements that come after the first few of their label. -/
def surplus (label : α → String) : List α → (String → Nat) → List α
  | [], _ => []
  | element :: elements, few =>
      match few (label element) with
      | 0 => element :: surplus label elements few
      | others + 1 => surplus label elements (Function.update few (label element) others)

theorem surplus_sublist (label : α → String) (elements : List α) (few : String → Nat) :
    (surplus label elements few).Sublist elements := by
  induction elements generalizing few with
  | nil => exact List.Sublist.refl []
  | cons element elements inductionHypothesis =>
    rw [surplus]
    split
    · exact (inductionHypothesis few).cons_cons element
    · exact (inductionHypothesis _).cons element

/-- Of each label, all but the first few are left. -/
theorem withLabel_surplus (label : α → String) (elements : List α)
    (few : String → Nat) (wanted : String) :
    withLabel label (surplus label elements few) wanted =
      (withLabel label elements wanted).drop (few wanted) := by
  induction elements generalizing few with
  | nil => simp [surplus, withLabel]
  | cons element elements inductionHypothesis =>
    rw [surplus]
    by_cases same : wanted = label element
    · subst same
      rw [withLabel_cons_self]
      split
      case h_1 none =>
        rw [withLabel_cons_self, inductionHypothesis, none, List.drop_zero, List.drop_zero]
      case h_2 others some =>
        rw [inductionHypothesis, some, Function.update_self, List.drop_succ_cons]
    · rw [withLabel_cons_of_ne _ _ same]
      split
      case h_1 => rw [withLabel_cons_of_ne _ _ same, inductionHypothesis]
      case h_2 => rw [inductionHypothesis, Function.update_of_ne same]

/-- What is left depends on labels only. -/
theorem surplus_map (label : β → String) (f : α → β) (elements : List α)
    (few : String → Nat) :
    surplus label (elements.map f) few =
      (surplus (fun element => label (f element)) elements few).map f := by
  induction elements generalizing few with
  | nil => rfl
  | cons element elements inductionHypothesis =>
    rw [List.map_cons, surplus, surplus]
    split
    · rw [List.map_cons, inductionHypothesis]
    · rw [inductionHypothesis]

/-! ## What queues hold -/

@[simp]
theorem queue_empty (label : String) : queue (∅ : Queues α) label = [] := by
  simp [queue]

theorem queue_insert (queues : Queues α) (label wanted : String) (elements : List (α × Nat)) :
    queue (queues.insert label elements) wanted =
      if wanted = label then elements else queue queues wanted := by
  rw [queue, Std.HashMap.getD_insert]
  by_cases same : wanted = label
  · simp [same]
  · rw [if_neg same, if_neg (by simpa using Ne.symm same), queue]

/-- The queues of numbered elements hold them by label. -/
theorem queue_queuesOf (label : α → String) (numbered : List (α × Nat)) (wanted : String) :
    queue (queuesOf label numbered) wanted =
      withLabel (fun element => label element.1) numbered wanted := by
  induction numbered with
  | nil => exact queue_empty wanted
  | cons element numbered inductionHypothesis =>
    rw [queuesOf, List.foldr_cons, ← queuesOf, queue_insert]
    by_cases same : wanted = label element.1
    · subst same
      rw [if_pos rfl, inductionHypothesis,
        withLabel_cons_self (fun element : α × Nat => label element.1)]
    · rw [if_neg same, inductionHypothesis,
        withLabel_cons_of_ne (fun element : α × Nat => label element.1) _ same]

/-- Taking the head of a queue changes that queue only. -/
theorem map_queue_insert (f : List (α × Nat) → γ) (queues : Queues α) (label : String)
    (elements : List (α × Nat)) :
    (fun wanted => f (queue (queues.insert label elements) wanted)) =
      Function.update (fun wanted => f (queue queues wanted)) label (f elements) := by
  funext wanted
  rw [queue_insert, Function.update_apply]
  exact apply_ite f _ _ _

theorem pairs_pass (label : α → String) (elements : List α) (queues : Queues α) :
    (pass label elements queues).pairs =
      served label elements (fun wanted => (queue queues wanted).map Prod.fst) := by
  induction elements generalizing queues with
  | nil => rfl
  | cons element elements inductionHypothesis =>
    rw [pass, served]
    cases queued : queue queues (label element) with
    | nil => exact inductionHypothesis queues
    | cons partner others =>
      simp only [List.map_cons, inductionHypothesis, map_queue_insert (List.map Prod.fst)]

theorem alone_pass (label : α → String) (elements : List α) (queues : Queues α) :
    (pass label elements queues).alone =
      surplus label elements (fun wanted => (queue queues wanted).length) := by
  induction elements generalizing queues with
  | nil => rfl
  | cons element elements inductionHypothesis =>
    rw [pass, surplus]
    cases queued : queue queues (label element) with
    | nil => exact congrArg (element :: ·) (inductionHypothesis queues)
    | cons partner others =>
      simp only [List.length_cons, inductionHypothesis, map_queue_insert List.length]

/-- A pass takes from each queue as many as there are elements of its label. -/
theorem queue_pass (label : α → String) (elements : List α) (queues : Queues α)
    (wanted : String) :
    queue (pass label elements queues).queues wanted =
      (queue queues wanted).drop (occurrences label elements wanted) := by
  induction elements generalizing queues with
  | nil => rfl
  | cons element elements inductionHypothesis =>
    rw [pass, occurrences]
    by_cases same : wanted = label element
    · subst same
      rw [withLabel_cons_self, List.length_cons, ← occurrences]
      cases queued : queue queues (label element) with
      | nil => rw [List.drop_nil, inductionHypothesis, queued, List.drop_nil]
      | cons partner others =>
        rw [inductionHypothesis, queue_insert, if_pos rfl, List.drop_succ_cons]
    · rw [withLabel_cons_of_ne _ _ same, ← occurrences]
      cases queued : queue queues (label element) with
      | nil => exact inductionHypothesis queues
      | cons partner others => rw [inductionHypothesis, queue_insert, if_neg same]

/-! ## The elements that still wait -/

/-- The numbers of the elements ascend. -/
def Numbered (elements : List (α × Nat)) : Prop :=
  elements.Pairwise fun first second => first.2 < second.2

theorem numbered_zipIdx (elements : List α) : Numbered elements.zipIdx := by
  have ascending : (elements.zipIdx.map Prod.snd).Pairwise (· < ·) := by
    rw [List.zipIdx_map_snd]
    exact List.pairwise_lt_range'
  exact List.pairwise_map.mp ascending

/-- Looking numbered elements up in their own tail finds the tail. -/
theorem filter_any_drop {elements : List (α × Nat)} (numbered : Numbered elements)
    (count : Nat) :
    (elements.filter fun element =>
        (elements.drop count).any fun other => decide (other.2 = element.2)) =
      elements.drop count := by
  have parted : Numbered (elements.take count ++ elements.drop count) := by
    rwa [List.take_append_drop]
  have before := (List.pairwise_append.mp parted).2.2
  conv_lhs =>
    enter [2]
    rw [← List.take_append_drop count elements]
  rw [List.filter_append, List.filter_eq_nil_iff.mpr, List.filter_eq_self.mpr,
    List.nil_append]
  · intro element member
    exact List.any_eq_true.mpr ⟨element, member, by simp⟩
  · intro element member found
    obtain ⟨other, otherMember, same⟩ := List.any_eq_true.mp found
    exact Nat.ne_of_gt (before element member other otherMember) (of_decide_eq_true same)

/-- Sublists of numbered elements that agree on each label are equal. -/
theorem eq_of_withLabel_eq (label : α × Nat → String) {elements first second : List (α × Nat)}
    (numbered : Numbered elements) (firstSublist : first.Sublist elements)
    (secondSublist : second.Sublist elements)
    (sameLabels : ∀ wanted, withLabel label first wanted = withLabel label second wanted) :
    first = second := by
  have permutation : first.Perm second :=
    perm_of_withLabel_perm label fun wanted => List.Perm.of_eq (sameLabels wanted)
  refine permutation.eq_of_pairwise ?_ (numbered.sublist firstSublist)
    (numbered.sublist secondSublist)
  intro left right _ _ before after
  exact absurd after (Nat.lt_asymm before)

/-- When the queues have lost some of their first elements, those that still
wait come after these. -/
theorem waiting_eq_surplus (label : α → String) (queues : Queues α)
    {elements : List (α × Nat)} (numbered : Numbered elements) (lost : String → Nat)
    (left : ∀ wanted, queue queues wanted =
      (withLabel (fun element => label element.1) elements wanted).drop (lost wanted)) :
    waiting label queues elements =
      surplus (fun element => label element.1) elements lost := by
  -- Both sides are sublists of numbered elements, so it is enough to compare each label.
  refine eq_of_withLabel_eq (fun element => label element.1) numbered
    List.filter_sublist (surplus_sublist _ _ _) fun wanted => ?_
  rw [withLabel_surplus]
  have ofLabel : Numbered (withLabel (fun element => label element.1) elements wanted) :=
    numbered.sublist List.filter_sublist
  rw [← filter_any_drop ofLabel (lost wanted), ← left wanted]
  simp only [waiting, withLabel, List.filter_filter]
  refine List.filter_congr fun element _ => ?_
  by_cases same : label element.1 = wanted
  · subst same
    rw [Bool.and_comm]
  · simp [same]

/-! ## The whole matching -/

/-- The correspondence of two lists, told by labels: first the pairs of one
fingerprint, then the pairs of one name among the elements left over. -/
def plain (name fingerprint : α → String) (previous next : List α) : Matching α :=
  let pending := surplus fingerprint previous (occurrences fingerprint next)
  let free := surplus fingerprint next (occurrences fingerprint previous)
  { unchanged := served fingerprint previous (withLabel fingerprint next)
    modified := served name pending (withLabel name free)
    removed := surplus name pending (occurrences name free)
    added := surplus name free (occurrences name pending) }

section NumberedElements

variable (label : α → String) (previous : List α) (elements : List (α × Nat))

theorem map_fst_withLabel (wanted : String) :
    (withLabel (fun element => label element.1) elements wanted).map Prod.fst =
      withLabel label (elements.map Prod.fst) wanted :=
  (withLabel_map label Prod.fst elements wanted).symm

theorem pairs_pass_queuesOf :
    (pass label previous (queuesOf label elements)).pairs =
      served label previous (withLabel label (elements.map Prod.fst)) := by
  rw [pairs_pass]
  congr 1
  funext wanted
  rw [queue_queuesOf, map_fst_withLabel]

theorem alone_pass_queuesOf :
    (pass label previous (queuesOf label elements)).alone =
      surplus label previous (occurrences label (elements.map Prod.fst)) := by
  rw [alone_pass]
  congr 1
  funext wanted
  rw [queue_queuesOf, occurrences, ← map_fst_withLabel, List.length_map]

theorem waiting_pass {elements : List (α × Nat)} (numbered : Numbered elements) :
    waiting label (pass label previous (queuesOf label elements)).queues elements =
      surplus (fun element => label element.1) elements (occurrences label previous) := by
  refine waiting_eq_surplus label _ numbered _ fun wanted => ?_
  rw [queue_pass, queue_queuesOf]

end NumberedElements

/-- Matching by queues is matching by labels. -/
theorem of_eq_plain (name fingerprint : α → String) (previous next : List α) :
    of name fingerprint previous next = plain name fingerprint previous next := by
  have freeNumbered :
      Numbered (surplus (fun element => fingerprint element.1) next.zipIdx
        (occurrences fingerprint previous)) :=
    (numbered_zipIdx next).sublist (surplus_sublist _ _ _)
  simp only [of, plain, pairs_pass_queuesOf, alone_pass_queuesOf,
    waiting_pass fingerprint previous (numbered_zipIdx next),
    waiting_pass name _ freeNumbered, ← surplus_map _ Prod.fst, List.zipIdx_map_fst]

/-- A matching of images is the image of the matching. -/
theorem of_map (name fingerprint : β → String) (f : α → β) (previous next : List α) :
    of name fingerprint (previous.map f) (next.map f) =
      let matching :=
        of (fun element => name (f element)) (fun element => fingerprint (f element))
          previous next
      { unchanged := matching.unchanged.map (Prod.map f f)
        modified := matching.modified.map (Prod.map f f)
        removed := matching.removed.map f
        added := matching.added.map f } := by
  have labelled (label : β → String) (elements : List α) :
      withLabel label (elements.map f) = fun wanted =>
        (withLabel (fun element => label (f element)) elements wanted).map f :=
    funext (withLabel_map label f elements)
  simp only [of_eq_plain, plain, surplus_map, occurrences_map, labelled, served_map]

end JvmDiff.Matching
