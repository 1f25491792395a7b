import JvmDiff.Proofs.Matching.Symmetry
import Mathlib.Data.List.Basic

/-!
# How many elements of a name are matched

How many elements of one name are taken by fingerprint depends on all fingerprints of both lists,
but how many find a partner at all does not: as many as both lists have.  So the removed and the
added elements of a name are counted by the surplus of the one list and of the other.  Lists of
texts, where name and fingerprint are the text itself, leave their differences as multisets.
-/

namespace JvmDiff.Matching

variable {α β : Type}

/-! ## Occurrences -/

theorem occurrences_append (label : α → String) (first second : List α) (wanted : String) :
    occurrences label (first ++ second) wanted =
      occurrences label first wanted + occurrences label second wanted := by
  rw [occurrences, withLabel_append, List.length_append, occurrences, occurrences]

theorem occurrences_of_perm (label : α → String) {first second : List α}
    (perm : first.Perm second) (wanted : String) :
    occurrences label first wanted = occurrences label second wanted :=
  (perm.filter _).length_eq

theorem occurrences_congr {label other : α → String} {elements : List α}
    (same : ∀ element ∈ elements, label element = other element) (wanted : String) :
    occurrences label elements wanted = occurrences other elements wanted := by
  rw [occurrences, withLabel, List.filter_congr, ← withLabel, ← occurrences]
  intro element member
  rw [same element member]

theorem exists_of_occurrences_pos {label : α → String} {elements : List α} {wanted : String}
    (some : 0 < occurrences label elements wanted) :
    ∃ element ∈ elements, label element = wanted := by
  obtain ⟨element, member⟩ := List.exists_mem_of_length_pos some
  exact ⟨element, mem_withLabel.mp member⟩

/-! ## Elements of one name -/

section OneName

variable {name fingerprint : α → String} {previous next : List α}

/-- The pairs of a name. -/
def pairsNamed (name : α → String) (matching : Matching α) (wanted : String) : Nat :=
  occurrences (fun pair => name pair.1) (matching.unchanged ++ matching.modified) wanted

theorem pairs_add_removed (wanted : String) :
    (of name fingerprint previous next).pairsNamed name wanted +
        occurrences name (of name fingerprint previous next).removed wanted =
      occurrences name previous wanted := by
  have conserved := of_conserves_previous name fingerprint previous next
  rw [← occurrences_of_perm name conserved, occurrences_append, occurrences_map]
  rfl

theorem pairs_add_added
    (named : ∀ first ∈ previous, ∀ second ∈ next,
      fingerprint first = fingerprint second → name first = name second) (wanted : String) :
    (of name fingerprint previous next).pairsNamed name wanted +
        occurrences name (of name fingerprint previous next).added wanted =
      occurrences name next wanted := by
  have conserved := of_conserves_next name fingerprint previous next
  rw [← occurrences_of_perm name conserved, occurrences_append, occurrences_map, pairsNamed,
    occurrences_congr fun pair member => name_eq_of_mem_pairs named member]

/-- The surplus of one list is removed, that of the other is added, and the rest
is paired. -/
theorem counts_of_name
    (named : ∀ first ∈ previous, ∀ second ∈ next,
      fingerprint first = fingerprint second → name first = name second) (wanted : String) :
    let matching := of name fingerprint previous next
    let both := min (occurrences name previous wanted) (occurrences name next wanted)
    occurrences name matching.removed wanted = occurrences name previous wanted - both ∧
      occurrences name matching.added wanted = occurrences name next wanted - both ∧
      matching.pairsNamed name wanted = both := by
  intro matching both
  have fromPrevious : matching.pairsNamed name wanted + occurrences name matching.removed wanted =
      occurrences name previous wanted := pairs_add_removed wanted
  have fromNext : matching.pairsNamed name wanted + occurrences name matching.added wanted =
      occurrences name next wanted := pairs_add_added named wanted
  -- No name is left on both sides.
  have oneSide : occurrences name matching.removed wanted = 0 ∨
      occurrences name matching.added wanted = 0 := by
    by_contra bothLeft
    obtain ⟨removedLeft, addedLeft⟩ := not_or.mp bothLeft
    obtain ⟨first, removed, firstNamed⟩ :=
      exists_of_occurrences_pos (Nat.pos_of_ne_zero removedLeft)
    obtain ⟨second, added, secondNamed⟩ :=
      exists_of_occurrences_pos (Nat.pos_of_ne_zero addedLeft)
    exact name_ne_of_mem name fingerprint previous next removed added
      (firstNamed.trans secondNamed.symm)
  omega

end OneName

/-! ## Texts -/

section Texts

theorem occurrences_id (texts : List String) (wanted : String) :
    occurrences id texts wanted = texts.count wanted := by
  rw [occurrences, withLabel, List.count_eq_length_filter]
  simp only [id, beq_eq_decide]

/-- Leaving out the first few of each text, as many as another list has of it, is
taking the difference of the lists. -/
theorem surplus_eq_diff (texts others : List String) :
    surplus id texts (occurrences id others) = texts.diff others := by
  induction texts generalizing others with
  | nil => simp [surplus]
  | cons text texts inductionHypothesis =>
    rw [surplus, List.cons_diff]
    by_cases member : text ∈ others
    · -- One of the few is used up, and with it one text of the other list.
      have fewer : Function.update (occurrences id others) text (others.count text - 1) =
          occurrences id (others.erase text) := by
        funext wanted
        rw [occurrences_id]
        by_cases same : wanted = text
        · rw [same, Function.update_self, List.count_erase_self]
        · rw [Function.update_of_ne same, occurrences_id, List.count_erase_of_ne same]
      have some : occurrences id others (id text) = others.count text - 1 + 1 := by
        have positive := List.count_pos_iff.mpr member
        rw [occurrences_id, id]
        omega
      rw [if_pos member, ← inductionHypothesis, ← fewer, some]
      rfl
    · have none : occurrences id others (id text) = 0 := by
        rw [occurrences_id]
        exact List.count_eq_zero.mpr member
      rw [if_neg member, ← inductionHypothesis, none]

theorem surplus_eq_self {label : α → String} {elements : List α} {few : String → Nat}
    (none : ∀ element ∈ elements, few (label element) = 0) :
    surplus label elements few = elements := by
  induction elements with
  | nil => rfl
  | cons element elements inductionHypothesis =>
    obtain ⟨noneHere, noneLater⟩ := List.forall_mem_cons.mp none
    rw [surplus, noneHere]
    exact congrArg (element :: ·) (inductionHypothesis noneLater)

theorem modified_ofTexts (previous next : List String) : (ofTexts previous next).modified = [] := by
  refine List.eq_nil_iff_forall_not_mem.mpr fun pair member => ?_
  have sameText : pair.1 = pair.2 := name_eq_of_mem_modified id id previous next member
  exact fingerprint_ne_of_mem id id previous next
    (List.mem_append_left _ (List.mem_map_of_mem member))
    (List.mem_append_left _ (List.mem_map_of_mem member)) sameText

/-- After the first pass no text is left on both sides. -/
theorem removed_ofTexts (previous next : List String) :
    (ofTexts previous next).removed = previous.diff next := by
  rw [← surplus_eq_diff, ofTexts, of_eq_plain]
  refine surplus_eq_self fun text pending => ?_
  by_contra some
  obtain ⟨other, free, same⟩ := exists_of_occurrences_pos (Nat.pos_of_ne_zero some)
  exact surplus_apart id previous next pending free same.symm

theorem added_ofTexts (previous next : List String) :
    (ofTexts previous next).added = next.diff previous := by
  rw [← removed_ofTexts, ofTexts, ofTexts, removed_of_swap]

end Texts

/-- When elements of one fingerprint have one name, as many elements of a name are
removed and added as the one list has more of it than the other, and all others are
paired.  Of texts, which are their own names and fingerprints, none is modified, and
the removed and the added ones are the differences of the lists, in their order. -/
theorem unmatched_eq_difference (name fingerprint : α → String) (previous next : List α)
    (named : ∀ first ∈ previous, ∀ second ∈ next,
      fingerprint first = fingerprint second → name first = name second)
    (wanted : String) (texts others : List String) :
    let matching := of name fingerprint previous next
    let both := min (occurrences name previous wanted) (occurrences name next wanted)
    (∀ pair ∈ matching.unchanged ++ matching.modified, name pair.1 = name pair.2) ∧
      occurrences name matching.removed wanted = occurrences name previous wanted - both ∧
      occurrences name matching.added wanted = occurrences name next wanted - both ∧
      occurrences (fun pair => name pair.1) (matching.unchanged ++ matching.modified) wanted =
        both ∧
      (ofTexts texts others).modified = [] ∧
      (ofTexts texts others).removed = texts.diff others ∧
      (ofTexts texts others).added = others.diff texts := by
  obtain ⟨removed, added, paired⟩ := counts_of_name named wanted
  exact ⟨fun _ => name_eq_of_mem_pairs named, removed, added, paired,
    modified_ofTexts texts others, removed_ofTexts texts others, added_ofTexts texts others⟩

/-- Elements of one name with equal and with different fingerprints, and a text that
is there twice. -/
theorem unmatched_eq_difference_repeated :
    let previous := [("size", "1"), ("size", "2"), ("size", "1"), ("run", "3")]
    let next := [("run", "4"), ("size", "1"), ("run", "3"), ("size", "5")]
    (∀ first ∈ previous, ∀ second ∈ next, first.2 = second.2 → first.1 = second.1) ∧
      occurrences Prod.fst (of Prod.fst Prod.snd previous next).removed "size" = 1 ∧
      occurrences Prod.fst (of Prod.fst Prod.snd previous next).added "size" = 0 ∧
      (ofTexts ["Closeable", "Readable", "Closeable"] ["Flushable", "Closeable"]).removed =
        ["Readable", "Closeable"] := by
  intro previous next
  have named : ∀ first ∈ previous, ∀ second ∈ next, first.2 = second.2 → first.1 = second.1 := by
    decide
  obtain ⟨_, removed, added, _, _, difference, _⟩ :=
    unmatched_eq_difference Prod.fst Prod.snd previous next named "size"
      ["Closeable", "Readable", "Closeable"] ["Flushable", "Closeable"]
  exact ⟨named, removed.trans (by decide), added.trans (by decide), difference.trans (by decide)⟩

end JvmDiff.Matching
