import JvmDiff.Proofs.Matching.Plain
import Mathlib.Data.List.Zip

/-!
# A matching conserves its elements

Every element of both lists has exactly one place in a matching, pairs are made of elements that
belong together, and no two elements that could still be paired are left.  Elements are told
apart by their positions, so that equal elements count as often as they come.
-/

namespace JvmDiff.Matching

variable {α β : Type}

theorem map_fst_zip_eq_take :
    ∀ (first : List α) (second : List β),
      (first.zip second).map Prod.fst = first.take second.length
  | [], _ => by simp
  | _ :: _, [] => by simp
  | element :: first, other :: second => by
      simp [map_fst_zip_eq_take first second]

theorem map_snd_zip_eq_take (first : List α) (second : List β) :
    (first.zip second).map Prod.snd = second.take first.length := by
  rw [← List.zip_swap, List.map_map]
  exact map_fst_zip_eq_take second first

/-! ## What one pass conserves -/

section OnePass

variable (label : α → String) (previous next : List α)

/-- Partners have one label. -/
theorem label_eq_of_mem_served {pair : α × α}
    (member : pair ∈ served label previous (withLabel label next)) :
    label pair.1 = label pair.2 :=
  (mem_withLabel.mp (mem_of_mem_served member).2).2.symm

/-- The label of a pair is that of either side. -/
theorem withLabel_snd_served (wanted : String) :
    withLabel (fun pair => label pair.2) (served label previous (withLabel label next))
        wanted =
      (withLabel label previous wanted).zip (withLabel label next wanted) := by
  rw [← withLabel_served label previous (withLabel label next) wanted]
  refine List.filter_congr fun pair member => ?_
  simp only [label_eq_of_mem_served label previous next member]

/-- The earlier elements are those with a partner and those left over. -/
theorem previous_conserved :
    ((served label previous (withLabel label next)).map Prod.fst ++
      surplus label previous (occurrences label next)).Perm previous := by
  refine perm_of_withLabel_perm label fun wanted => List.Perm.of_eq ?_
  have taken :
      withLabel label ((served label previous (withLabel label next)).map Prod.fst) wanted =
        (withLabel label previous wanted).take (occurrences label next wanted) := by
    rw [withLabel_map, withLabel_served, map_fst_zip_eq_take, occurrences]
  rw [withLabel_append, taken, withLabel_surplus, List.take_append_drop]

/-- The later elements are those that were taken and those left over. -/
theorem next_conserved :
    ((served label previous (withLabel label next)).map Prod.snd ++
      surplus label next (occurrences label previous)).Perm next := by
  refine perm_of_withLabel_perm label fun wanted => List.Perm.of_eq ?_
  have taken :
      withLabel label ((served label previous (withLabel label next)).map Prod.snd) wanted =
        (withLabel label next wanted).take (occurrences label previous wanted) := by
    rw [withLabel_map, withLabel_snd_served, map_snd_zip_eq_take, occurrences]
  rw [withLabel_append, taken, withLabel_surplus, List.take_append_drop]

/-- No label is left over on both sides: the side with more of it has used up
the other. -/
theorem surplus_apart {first second : α}
    (firstLeft : first ∈ surplus label previous (occurrences label next))
    (secondLeft : second ∈ surplus label next (occurrences label previous)) :
    label first ≠ label second := by
  intro same
  have firstOfLabel := mem_withLabel.mpr ⟨firstLeft, same⟩
  have secondOfLabel : second ∈ withLabel label _ (label second) :=
    mem_withLabel.mpr ⟨secondLeft, rfl⟩
  rw [withLabel_surplus] at firstOfLabel secondOfLabel
  have morePrevious := List.length_pos_of_mem firstOfLabel
  have moreNext := List.length_pos_of_mem secondOfLabel
  rw [List.length_drop, ← occurrences] at morePrevious moreNext
  omega

end OnePass

/-! ## What a matching conserves -/

section TwoPasses

variable (name fingerprint : α → String) (previous next : List α)

theorem of_conserves_previous :
    (((of name fingerprint previous next).unchanged ++
          (of name fingerprint previous next).modified).map Prod.fst ++
        (of name fingerprint previous next).removed).Perm previous := by
  rw [of_eq_plain, List.map_append, List.append_assoc]
  exact ((previous_conserved name _ _).append_left _).trans
    (previous_conserved fingerprint previous next)

theorem of_conserves_next :
    (((of name fingerprint previous next).unchanged ++
          (of name fingerprint previous next).modified).map Prod.snd ++
        (of name fingerprint previous next).added).Perm next := by
  rw [of_eq_plain, List.map_append, List.append_assoc]
  exact ((next_conserved name _ _).append_left _).trans
    (next_conserved fingerprint previous next)

theorem fingerprint_eq_of_mem_unchanged {pair : α × α}
    (member : pair ∈ (of name fingerprint previous next).unchanged) :
    fingerprint pair.1 = fingerprint pair.2 := by
  rw [of_eq_plain] at member
  exact label_eq_of_mem_served fingerprint previous next member

theorem name_eq_of_mem_modified {pair : α × α}
    (member : pair ∈ (of name fingerprint previous next).modified) :
    name pair.1 = name pair.2 := by
  rw [of_eq_plain] at member
  exact label_eq_of_mem_served name _ _ member

/-- An element that was modified or removed and one that was modified or added
have different fingerprints. -/
theorem fingerprint_ne_of_mem {first second : α}
    (firstMember :
      first ∈ (of name fingerprint previous next).modified.map Prod.fst ++
        (of name fingerprint previous next).removed)
    (secondMember :
      second ∈ (of name fingerprint previous next).modified.map Prod.snd ++
        (of name fingerprint previous next).added) :
    fingerprint first ≠ fingerprint second := by
  rw [of_eq_plain] at firstMember secondMember
  exact surplus_apart fingerprint previous next
    ((previous_conserved name _ _).mem_iff.mp firstMember)
    ((next_conserved name _ _).mem_iff.mp secondMember)

theorem name_ne_of_mem {first second : α}
    (removed : first ∈ (of name fingerprint previous next).removed)
    (added : second ∈ (of name fingerprint previous next).added) :
    name first ≠ name second := by
  rw [of_eq_plain] at removed added
  exact surplus_apart name _ _ removed added

end TwoPasses

/-! ## Positions -/

/-- The same correspondence between images of the elements. -/
def map (f : α → β) (matching : Matching α) : Matching β where
  unchanged := matching.unchanged.map (Prod.map f f)
  modified := matching.modified.map (Prod.map f f)
  removed := matching.removed.map f
  added := matching.added.map f

/-- The correspondence of two lists in which each element has its position. -/
def withPositions (name fingerprint : α → String) (previous next : List α) :
    Matching (α × Nat) :=
  of (fun element => name element.1) (fun element => fingerprint element.1)
    previous.zipIdx next.zipIdx

/-- Without the positions it is the correspondence of the lists. -/
theorem map_fst_withPositions (name fingerprint : α → String) (previous next : List α) :
    (withPositions name fingerprint previous next).map Prod.fst =
      of name fingerprint previous next := by
  have images := of_map name fingerprint Prod.fst previous.zipIdx next.zipIdx
  rw [List.zipIdx_map_fst, List.zipIdx_map_fst] at images
  exact images.symm

/-- A matching puts every position of the earlier list into exactly one of
unchanged, modified and removed, and every position of the later list into
exactly one of unchanged, modified and added.  Unchanged elements have one
fingerprint, modified ones one name and two fingerprints.  No fingerprint is
left on both sides after the first pass, and no name after the second. -/
theorem withPositions_partition (name fingerprint : α → String) (previous next : List α) :
    let matching := withPositions name fingerprint previous next
    matching.map Prod.fst = of name fingerprint previous next ∧
      ((matching.unchanged ++ matching.modified).map Prod.fst ++ matching.removed).Perm
        previous.zipIdx ∧
      ((matching.unchanged ++ matching.modified).map Prod.snd ++ matching.added).Perm
        next.zipIdx ∧
      (∀ pair ∈ matching.unchanged, fingerprint pair.1.1 = fingerprint pair.2.1) ∧
      (∀ pair ∈ matching.modified,
        name pair.1.1 = name pair.2.1 ∧ fingerprint pair.1.1 ≠ fingerprint pair.2.1) ∧
      (∀ first ∈ matching.modified.map Prod.fst ++ matching.removed,
        ∀ second ∈ matching.modified.map Prod.snd ++ matching.added,
          fingerprint first.1 ≠ fingerprint second.1) ∧
      ∀ first ∈ matching.removed, ∀ second ∈ matching.added,
        name first.1 ≠ name second.1 := by
  intro matching
  have apart : ∀ first ∈ matching.modified.map Prod.fst ++ matching.removed,
      ∀ second ∈ matching.modified.map Prod.snd ++ matching.added,
        fingerprint first.1 ≠ fingerprint second.1 := by
    intro first firstMember second secondMember
    exact fingerprint_ne_of_mem (fun element : α × Nat => name element.1)
      (fun element => fingerprint element.1) _ _ firstMember secondMember
  refine ⟨map_fst_withPositions name fingerprint previous next,
    of_conserves_previous _ _ _ _, of_conserves_next _ _ _ _, ?_, ?_, apart, ?_⟩
  · intro pair member
    exact fingerprint_eq_of_mem_unchanged _ _ _ _ member
  · intro pair member
    refine ⟨name_eq_of_mem_modified _ _ _ _ member, ?_⟩
    exact apart pair.1 (List.mem_append_left _ (List.mem_map_of_mem member))
      pair.2 (List.mem_append_left _ (List.mem_map_of_mem member))
  · intro first removed second added
    exact name_ne_of_mem (fun element : α × Nat => name element.1) _ _ _ removed added

end JvmDiff.Matching
