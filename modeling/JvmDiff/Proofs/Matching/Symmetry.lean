import JvmDiff.Proofs.Matching.Conservation

/-!
# A matching in the other direction

Matching the later list with the earlier one finds the same correspondence with its sides
exchanged.  Removed and added elements even keep their order; pairs keep it among those of one
name, but the names come in the order of the other list.

Where names are distinct, an element is removed or added exactly if its name is, which needs a
proof for one direction only.
-/

namespace JvmDiff.Matching

variable {α : Type} (name fingerprint : α → String) (previous next : List α)

theorem removed_of_swap :
    (of name fingerprint next previous).removed =
      (of name fingerprint previous next).added := by
  rw [of_eq_plain, of_eq_plain]
  rfl

theorem added_of_swap :
    (of name fingerprint next previous).added =
      (of name fingerprint previous next).removed := by
  rw [of_eq_plain, of_eq_plain]
  rfl

/-- A pass in the other direction finds the same pairs with their sides
exchanged. -/
theorem served_swap (label : α → String) :
    (served label next (withLabel label previous)).Perm
      ((served label previous (withLabel label next)).map Prod.swap) := by
  refine perm_of_withLabel_perm (fun pair => label pair.1) fun wanted => List.Perm.of_eq ?_
  calc withLabel (fun pair => label pair.1) (served label next (withLabel label previous)) wanted
      _ = (withLabel label next wanted).zip (withLabel label previous wanted) :=
        withLabel_served label next _ wanted
      _ = ((withLabel label previous wanted).zip (withLabel label next wanted)).map Prod.swap :=
        (List.zip_swap _ _).symm
      _ = _ := by
        rw [withLabel_map, ← withLabel_snd_served]
        rfl

theorem modified_of_swap :
    (of name fingerprint next previous).modified.Perm
      ((of name fingerprint previous next).modified.map Prod.swap) := by
  rw [of_eq_plain, of_eq_plain]
  exact served_swap _ _ name

/-! ## Distinct names -/

section DistinctNames

variable {name fingerprint previous next}

/-- Partners have one name if no two elements of one fingerprint have two. -/
theorem name_eq_of_mem_pairs
    (named : ∀ first ∈ previous, ∀ second ∈ next,
      fingerprint first = fingerprint second → name first = name second) {pair : α × α}
    (member : pair ∈ (of name fingerprint previous next).unchanged ++
      (of name fingerprint previous next).modified) : name pair.1 = name pair.2 := by
  rcases List.mem_append.mp member with unchanged | modified
  · apply named
    · exact (of_conserves_previous name fingerprint previous next).mem_iff.mp
        (List.mem_append_left _ (List.mem_map_of_mem member))
    · exact (of_conserves_next name fingerprint previous next).mem_iff.mp
        (List.mem_append_left _ (List.mem_map_of_mem member))
    · exact fingerprint_eq_of_mem_unchanged name fingerprint previous next unchanged
  · exact name_eq_of_mem_modified name fingerprint previous next modified

/-- An element whose name is gone was removed. -/
theorem mem_removed_of_notMem
    (named : ∀ first ∈ previous, ∀ second ∈ next,
      fingerprint first = fingerprint second → name first = name second) {first : α}
    (member : first ∈ previous) (gone : name first ∉ next.map name) :
    first ∈ (of name fingerprint previous next).removed := by
  rcases List.mem_append.mp
    ((of_conserves_previous name fingerprint previous next).mem_iff.mpr member) with
    paired | removed
  · obtain ⟨pair, pairMember, rfl⟩ := List.mem_map.mp paired
    apply absurd _ gone
    rw [name_eq_of_mem_pairs named pairMember]
    exact List.mem_map_of_mem ((of_conserves_next name fingerprint previous next).mem_iff.mp
      (List.mem_append_left _ (List.mem_map_of_mem pairMember)))
  · exact removed

theorem mem_added_of_notMem
    (named : ∀ first ∈ previous, ∀ second ∈ next,
      fingerprint first = fingerprint second → name first = name second) {second : α}
    (member : second ∈ next) (fresh : name second ∉ previous.map name) :
    second ∈ (of name fingerprint previous next).added := by
  rw [← removed_of_swap name fingerprint previous next]
  refine mem_removed_of_notMem ?_ member fresh
  intro later laterMember earlier earlierMember same
  exact (named earlier earlierMember later laterMember same.symm).symm

/-- If the names of the earlier list are distinct and no two elements of one
fingerprint have two names, the elements that are gone are those whose names are. -/
theorem mem_names_removed (distinct : (previous.map name).Nodup)
    (named : ∀ first ∈ previous, ∀ second ∈ next,
      fingerprint first = fingerprint second → name first = name second) {wanted : String} :
    wanted ∈ (of name fingerprint previous next).removed.map name ↔
      wanted ∈ previous.map name ∧ wanted ∉ next.map name := by
  have fromPrevious := of_conserves_previous name fingerprint previous next
  have fromNext := of_conserves_next name fingerprint previous next
  constructor
  · intro member
    obtain ⟨first, removed, rfl⟩ := List.mem_map.mp member
    refine ⟨List.mem_map_of_mem (fromPrevious.mem_iff.mp (List.mem_append_right _ removed)), ?_⟩
    intro inNext
    obtain ⟨second, secondMember, sameName⟩ := List.mem_map.mp inNext
    rcases List.mem_append.mp (fromNext.mem_iff.mpr secondMember) with paired | added
    · -- The partner of the second element and the first would be two of one name.
      obtain ⟨pair, pairMember, rfl⟩ := List.mem_map.mp paired
      have apart := (fromPrevious.map name).nodup_iff.mpr distinct
      rw [List.map_append] at apart
      apply (List.nodup_append.mp apart).2.2 (name pair.1)
        (List.mem_map_of_mem (List.mem_map_of_mem pairMember)) (name first)
        (List.mem_map_of_mem removed)
      rw [name_eq_of_mem_pairs named pairMember, sameName]
    · exact name_ne_of_mem name fingerprint previous next removed added sameName.symm
  · rintro ⟨inPrevious, notInNext⟩
    obtain ⟨first, firstMember, rfl⟩ := List.mem_map.mp inPrevious
    exact List.mem_map_of_mem (mem_removed_of_notMem named firstMember notInNext)

theorem mem_names_added (distinct : (next.map name).Nodup)
    (named : ∀ first ∈ previous, ∀ second ∈ next,
      fingerprint first = fingerprint second → name first = name second) {wanted : String} :
    wanted ∈ (of name fingerprint previous next).added.map name ↔
      wanted ∈ next.map name ∧ wanted ∉ previous.map name := by
  rw [← removed_of_swap name fingerprint previous next]
  apply mem_names_removed distinct
  intro second secondMember first firstMember same
  exact (named first firstMember second secondMember same.symm).symm

theorem nodup_names_removed (distinct : (previous.map name).Nodup) :
    ((of name fingerprint previous next).removed.map name).Nodup := by
  have apart := ((of_conserves_previous name fingerprint previous next).map name).nodup_iff.mpr
    distinct
  rw [List.map_append] at apart
  exact (List.nodup_append.mp apart).2.1

theorem nodup_names_added (distinct : (next.map name).Nodup) :
    ((of name fingerprint previous next).added.map name).Nodup := by
  rw [← removed_of_swap name fingerprint previous next]
  exact nodup_names_removed distinct

end DistinctNames

end JvmDiff.Matching
