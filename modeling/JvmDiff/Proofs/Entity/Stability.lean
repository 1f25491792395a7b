import JvmDiff.Proofs.Entity.Order

/-!
# Sorting is stable

Sorting keeps the order of entities that have the same name and the same content.  So lists that
differ in the order of their parts only are sorted alike, provided that such entities are the same
or come from one part.
-/

namespace JvmDiff

namespace Entity

variable {α β : Type} [Entity α] {first second : List α}

theorem rank_eq_of_le {one other : α} (below : le one other = true) (above : le other one = true) :
    rank one = rank other := by
  rcases le_iff.mp below with less | ⟨sameName, contentBelow⟩
  · rcases le_iff.mp above with more | ⟨sameName, _⟩
    · exact absurd (String.lt_trans less more) (String.lt_irrefl _)
    · exact absurd (sameName ▸ less) (String.lt_irrefl _)
  · rcases le_iff.mp above with more | ⟨_, contentAbove⟩
    · exact absurd (sameName ▸ more) (String.lt_irrefl _)
    · exact Prod.ext sameName (String.le_antisymm contentBelow contentAbove)

theorem le_of_rank_eq {one other : α} (same : rank one = rank other) : le one other = true := by
  obtain ⟨sameName, sameContent⟩ := Prod.mk.inj same
  exact le_iff.mpr (Or.inr ⟨sameName, sameContent ▸ String.le_refl _⟩)

/-- The entities with a name and a content. -/
def ranked (key : String × String) (entities : List α) : List α :=
  entities.filter fun entity => rank entity = key

theorem rank_of_mem_ranked {key : String × String} {entity : α}
    (member : entity ∈ ranked key first) : rank entity = key :=
  of_decide_eq_true (List.mem_filter.mp member).2

theorem ranked_append (key : String × String) (first second : List α) :
    ranked key (first ++ second) = ranked key first ++ ranked key second :=
  List.filter_append ..

theorem ranked_sorted (key : String × String) (entities : List α) :
    ranked key (sorted entities) = ranked key entities := by
  have ascends : Ascends (ranked key entities) := by
    refine List.pairwise_iff_forall_sublist.mpr fun {one other} within => ?_
    have oneRank := rank_of_mem_ranked (within.mem List.mem_cons_self)
    have otherRank := rank_of_mem_ranked (within.mem (List.mem_cons_of_mem _ List.mem_cons_self))
    exact le_of_rank_eq (oneRank.trans otherRank.symm)
  have within : (ranked key entities).Sublist (sorted entities) := by
    apply List.sublist_mergeSort
    · intro one other third
      exact le_trans
    · exact le_total
    · exact ascends
    · exact List.filter_sublist
  have twice : ranked key (ranked key entities) = ranked key entities := by
    simp [ranked]
  have sublist := within.filter fun entity => decide (rank entity = key)
  have lengths := ((sorted_perm entities).filter fun entity => decide (rank entity = key)).length_eq
  refine (List.Sublist.eq_of_length ?_ ?_).symm
  · exact twice ▸ sublist
  · exact lengths.symm

theorem mem_of_ranked_eq {entity : α} (same : ∀ key, ranked key first = ranked key second)
    (member : entity ∈ first) : entity ∈ second := by
  have inRanked : entity ∈ ranked (rank entity) first :=
    List.mem_filter.mpr ⟨member, decide_eq_true rfl⟩
  rw [same] at inRanked
  exact List.mem_of_mem_filter inRanked

theorem le_head {entity other : α} {rest : List α} (ascends : Ascends (entity :: rest))
    (member : other ∈ entity :: rest) : le entity other = true := by
  rcases List.mem_cons.mp member with rfl | inRest
  · exact le_of_rank_eq rfl
  · exact (List.pairwise_cons.mp ascends).1 other inRest

/-- Two ascending lists are the same when they list the entities of each rank alike. -/
theorem eq_of_ranked_eq (firstAscends : Ascends first) (secondAscends : Ascends second)
    (same : ∀ key, ranked key first = ranked key second) : first = second := by
  induction first generalizing second with
  | nil =>
    refine (List.eq_nil_iff_forall_not_mem.mpr fun entity member => ?_).symm
    exact List.not_mem_nil (mem_of_ranked_eq (fun key => (same key).symm) member)
  | cons entity rest inductionHypothesis =>
    cases second with
    | nil => exact absurd (mem_of_ranked_eq same List.mem_cons_self) List.not_mem_nil
    | cons other others =>
      have below := le_head firstAscends
        (mem_of_ranked_eq (fun key => (same key).symm) List.mem_cons_self)
      have above := le_head secondAscends (mem_of_ranked_eq same List.mem_cons_self)
      have sameRank := rank_eq_of_le below above
      have heads := same (rank entity)
      simp only [ranked, List.filter_cons, sameRank, decide_true, if_true, List.cons.injEq] at heads
      obtain ⟨rfl, _⟩ := heads
      have sameRest : ∀ key, ranked key rest = ranked key others := by
        intro key
        have whole := same key
        by_cases isKey : rank entity = key
        · simpa [ranked, isKey] using whole
        · simpa [ranked, isKey] using whole
      rw [inductionHypothesis (List.pairwise_cons.mp firstAscends).2
        (List.pairwise_cons.mp secondAscends).2 sameRest]

theorem sorted_eq_of_ranked_eq (same : ∀ key, ranked key first = ranked key second) :
    sorted first = sorted second := by
  refine eq_of_ranked_eq (ascends_sorted first) (ascends_sorted second) fun key => ?_
  rw [ranked_sorted, ranked_sorted, same]

/-- Entities of both lists that have the same name and content are the same. -/
def Agree (first second : List α) : Prop :=
  ∀ one ∈ first, ∀ other ∈ second, rank one = rank other → one = other

instance [DecidableEq α] (first second : List α) : Decidable (Agree first second) :=
  inferInstanceAs (Decidable (∀ one ∈ first, ∀ other ∈ second, rank one = rank other → one = other))

theorem Agree.symm (agree : Agree first second) : Agree second first :=
  fun one oneMember other otherMember same =>
    (agree other otherMember one oneMember same.symm).symm

theorem Agree.ranked_append_comm (agree : Agree first second) (key : String × String) :
    ranked key first ++ ranked key second = ranked key second ++ ranked key first := by
  cases inFirst : ranked key first with
  | nil => exact (List.append_nil _).symm
  | cons one more =>
    cases inSecond : ranked key second with
    | nil => exact List.append_nil _
    | cons other others =>
      -- All entities of the rank are one and the same.
      have oneMember : one ∈ ranked key first := inFirst ▸ List.mem_cons_self
      have otherMember : other ∈ ranked key second := inSecond ▸ List.mem_cons_self
      have same : ∀ a ∈ ranked key first, ∀ b ∈ ranked key second, a = b := by
        intro a aMember b bMember
        refine agree a (List.mem_of_mem_filter aMember) b (List.mem_of_mem_filter bMember) ?_
        exact (rank_of_mem_ranked aMember).trans (rank_of_mem_ranked bMember).symm
      have allFirst : ranked key first = List.replicate (ranked key first).length other :=
        List.eq_replicate_of_mem fun a aMember => same a aMember other otherMember
      have allSecond : ranked key second = List.replicate (ranked key second).length other := by
        refine List.eq_replicate_of_mem fun b bMember => ?_
        exact (same one oneMember b bMember).symm.trans (same one oneMember other otherMember)
      rw [← inFirst, ← inSecond, allFirst, allSecond, List.replicate_append_replicate,
        List.replicate_append_replicate, Nat.add_comm]

/-- Sorted, what the parts write does not show the order of the parts. -/
theorem sorted_flatMap_of_perm {write : β → List α} {parts others : List β}
    (perm : parts.Perm others)
    (agree : parts.Pairwise fun part other => Agree (write part) (write other)) :
    sorted (parts.flatMap write) = sorted (others.flatMap write) := by
  refine sorted_eq_of_ranked_eq fun key => ?_
  induction perm with
  | nil => rfl
  | cons part _ inductionHypothesis =>
    rw [List.flatMap_cons, List.flatMap_cons, ranked_append, ranked_append,
      inductionHypothesis (List.pairwise_cons.mp agree).2]
  | swap part other rest =>
    have both := ((List.pairwise_cons.mp agree).1 part List.mem_cons_self).ranked_append_comm key
    simp only [List.flatMap_cons, ranked_append, ← List.append_assoc, both]
  | trans perm _ firstHypothesis secondHypothesis =>
    have agreeBetween := (perm.pairwise_iff fun agree => agree.symm).mp agree
    exact (firstHypothesis agree).trans (secondHypothesis agreeBetween)

end Entity

end JvmDiff
