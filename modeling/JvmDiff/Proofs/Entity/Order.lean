import JvmDiff.Entity
import Mathlib.Data.List.Sort

/-!
# The order of entities

Entities are sorted by name and, below one name, by content.  Two sorted lists with the same
contents, each as often, list them in the same order, provided that a content belongs to one
name only.
-/

namespace JvmDiff

namespace Text

theorem le_trans {first second third : String} (firstSecond : le first second = true)
    (secondThird : le second third = true) : le first third = true := by
  rw [le, decide_eq_true_eq] at *
  exact String.le_trans firstSecond secondThird

theorem le_total (first second : String) : (le first second || le second first) = true := by
  simp only [le, Bool.or_eq_true, decide_eq_true_eq]
  exact String.le_total first second

theorem sorted_perm (texts : List String) : (sorted texts).Perm texts :=
  List.mergeSort_perm texts le

theorem pairwise_sorted (texts : List String) :
    (sorted texts).Pairwise fun first second => first ≤ second := by
  have ascends : (sorted texts).Pairwise fun first second => le first second = true := by
    apply List.pairwise_mergeSort
    · intro first second third
      exact le_trans
    · exact le_total
  exact ascends.imp of_decide_eq_true

/-- Sorted texts have lost the order in which they came. -/
theorem sorted_eq_of_perm {first second : List String} (perm : first.Perm second) :
    sorted first = sorted second := by
  have sortedPerm := ((sorted_perm first).trans perm).trans (sorted_perm second).symm
  apply sortedPerm.eq_of_pairwise _ (pairwise_sorted first) (pairwise_sorted second)
  intro one other _ _ before after
  exact String.le_antisymm before after

theorem mem_withoutRepeats {text : String} {texts : List String} :
    text ∈ withoutRepeats texts ↔ text ∈ texts := by
  fun_induction withoutRepeats texts with
  | case1 => rfl
  | case2 => rfl
  | case3 next rest inductionHypothesis => simp [inductionHypothesis]
  | case4 first next rest _ inductionHypothesis =>
    rw [List.mem_cons, inductionHypothesis, ← List.mem_cons]

/-- Where equal texts are neighbours, no text is left twice. -/
theorem pairwise_withoutRepeats {texts : List String}
    (ascends : texts.Pairwise fun first second => first ≤ second) :
    (withoutRepeats texts).Pairwise fun first second => first < second := by
  fun_induction withoutRepeats texts with
  | case1 => exact List.Pairwise.nil
  | case2 text => exact List.pairwise_singleton _ text
  | case3 next rest inductionHypothesis =>
    exact inductionHypothesis (List.pairwise_cons.mp ascends).2
  | case4 first next rest different inductionHypothesis =>
    obtain ⟨firstBelow, restAscends⟩ := List.pairwise_cons.mp ascends
    refine List.pairwise_cons.mpr ⟨?_, inductionHypothesis restAscends⟩
    intro other member
    have nextBelow : next ≤ other := by
      rcases List.mem_cons.mp (mem_withoutRepeats.mp member) with rfl | inRest
      · exact String.le_refl other
      · exact (List.pairwise_cons.mp restAscends).1 other inRest
    apply String.not_le.mp
    intro otherBelow
    apply different
    apply String.le_antisymm (firstBelow next List.mem_cons_self)
    exact String.le_trans nextBelow otherBelow

theorem mem_distinct {text : String} {texts : List String} :
    text ∈ distinct texts ↔ text ∈ texts := by
  rw [distinct, mem_withoutRepeats, (sorted_perm texts).mem_iff]

theorem pairwise_distinct (texts : List String) :
    (distinct texts).Pairwise fun first second => first < second :=
  pairwise_withoutRepeats (pairwise_sorted texts)

/-- Two lists in strictly ascending order are told apart by their members. -/
theorem eq_of_mem_iff {first second : List String}
    (firstAscends : first.Pairwise fun one other => one < other)
    (secondAscends : second.Pairwise fun one other => one < other)
    (same : ∀ text, text ∈ first ↔ text ∈ second) : first = second := by
  have apart : ∀ {texts : List String}, (texts.Pairwise fun one other => one < other) →
      texts.Nodup := by
    intro texts ascends
    refine ascends.imp ?_
    rintro one _ less rfl
    exact String.lt_irrefl one less
  have perm := (List.perm_ext_iff_of_nodup (apart firstAscends) (apart secondAscends)).mpr same
  apply perm.eq_of_pairwise _ firstAscends secondAscends
  intro one other _ _ less more
  exact absurd (String.lt_trans less more) (String.lt_irrefl _)

end Text

namespace Entity

variable {α : Type} [Entity α]

theorem le_iff {first second : α} :
    le first second = true ↔
      name first < name second ∨
        (name first = name second ∧ content first ≤ content second) := by
  by_cases same : name first = name second
  · simp [le, Text.le, same]
  · have strict : name first ≤ name second ↔ name first < name second := by
      constructor
      · intro before
        apply String.not_le.mp
        intro after
        exact same (String.le_antisymm before after)
      · intro less
        apply String.not_lt.mp
        intro more
        exact String.lt_irrefl _ (String.lt_trans less more)
    simp [le, Text.le, same, strict]

theorem le_trans {first second third : α} (firstSecond : le first second = true)
    (secondThird : le second third = true) : le first third = true := by
  rw [le_iff] at *
  rcases firstSecond with before | ⟨sameName, before⟩
  · rcases secondThird with later | ⟨sameLater, _⟩
    · exact Or.inl (String.lt_trans before later)
    · exact Or.inl (sameLater ▸ before)
  · rcases secondThird with later | ⟨sameLater, later⟩
    · exact Or.inl (sameName ▸ later)
    · exact Or.inr ⟨sameName.trans sameLater, String.le_trans before later⟩

theorem le_total (first second : α) : (le first second || le second first) = true := by
  rw [Bool.or_eq_true, le_iff, le_iff]
  by_cases same : name first = name second
  · rcases String.le_total (content first) (content second) with before | after
    · exact Or.inl (Or.inr ⟨same, before⟩)
    · exact Or.inr (Or.inr ⟨same.symm, after⟩)
  · by_cases before : name first < name second
    · exact Or.inl (Or.inl before)
    · apply Or.inr ∘ Or.inl
      apply String.not_le.mp
      intro reverse
      exact same (String.le_antisymm reverse (String.not_lt.mp before))

theorem sorted_perm (entities : List α) : (sorted entities).Perm entities :=
  List.mergeSort_perm entities le

/-- The entities come in ascending order. -/
def Ascends (entities : List α) : Prop :=
  entities.Pairwise fun first second => le first second = true

instance (entities : List α) : Decidable (Ascends entities) :=
  inferInstanceAs (Decidable (entities.Pairwise fun first second => le first second = true))

theorem ascends_sorted (entities : List α) : Ascends (sorted entities) := by
  apply List.pairwise_mergeSort
  · intro first second third
    exact le_trans
  · exact le_total

@[simp]
theorem sorted_nil : sorted ([] : List α) = [] :=
  List.mergeSort_nil

theorem sorted_of_ascends {entities : List α} (ascends : Ascends entities) :
    sorted entities = entities :=
  List.mergeSort_of_pairwise ascends

theorem mem_sorted {entities : List α} {entity : α} :
    entity ∈ sorted entities ↔ entity ∈ entities :=
  (sorted_perm entities).mem_iff

/-- What the order looks at. -/
def rank (entity : α) : String × String :=
  (name entity, content entity)

/-- Sorting leaves no trace of an earlier order: entities of one name and content
are alike to whoever looks at these two only. -/
theorem map_rank_sorted_of_perm {first second : List α}
    (perm : (first.map rank).Perm (second.map rank)) :
    (sorted first).map rank = (sorted second).map rank := by
  let before : String × String → String × String → Prop := fun one other =>
    one.1 < other.1 ∨ (one.1 = other.1 ∧ one.2 ≤ other.2)
  have ascending : ∀ entities : List α, ((sorted entities).map rank).Pairwise before := by
    intro entities
    exact List.pairwise_map.mpr ((ascends_sorted entities).imp le_iff.mp)
  have antisymmetric : ∀ one other, before one other → before other one → one = other := by
    rintro ⟨oneName, oneContent⟩ ⟨otherName, otherContent⟩ (less | ⟨sameName, below⟩)
      (more | ⟨otherSame, above⟩)
    · exact absurd (String.lt_trans less more) (String.lt_irrefl _)
    · exact absurd (otherSame ▸ less) (String.lt_irrefl _)
    · exact absurd (sameName ▸ more) (String.lt_irrefl _)
    · exact Prod.ext sameName (String.le_antisymm below above)
  have sortedPerm : ((sorted first).map rank).Perm ((sorted second).map rank) :=
    (((sorted_perm first).map rank).trans perm).trans ((sorted_perm second).map rank).symm
  exact sortedPerm.eq_of_pairwise (fun one other _ _ => antisymmetric one other)
    (ascending first) (ascending second)

theorem map_content_sorted_of_perm {first second : List α}
    (perm : (first.map rank).Perm (second.map rank)) :
    (sorted first).map content = (sorted second).map content := by
  have ranks := congrArg (List.map Prod.snd) (map_rank_sorted_of_perm perm)
  rwa [List.map_map, List.map_map] at ranks

section Contents

variable {first second : List α}

/-- The name that some entity of the list with the content has. -/
private def nameFor (entities : List α) (text : String) : String :=
  ((entities.find? fun entity => content entity = text).map name).getD ""

private theorem nameFor_content
    (named : ∀ a ∈ first, ∀ b ∈ second, content a = content b → name a = name b)
    {a : α} (member : a ∈ first) (spelled : content a ∈ second.map content) :
    nameFor second (content a) = name a := by
  rw [nameFor]
  cases found : second.find? fun entity => content entity = content a with
  | none =>
      obtain ⟨b, bMember, same⟩ := List.mem_map.mp spelled
      have missing := List.find?_eq_none.mp found b bMember
      simp [same] at missing
  | some b =>
      have bMember := List.mem_of_find?_eq_some found
      have same : content b = content a := by
        simpa using List.find?_some found
      simp [named a member b bMember same.symm]

/-- Sorted lists with the same contents list them alike, if entities of one
content have one name. -/
theorem map_content_eq_of_perm
    (named : ∀ a ∈ first, ∀ b ∈ second, content a = content b → name a = name b)
    (firstAscends : Ascends first) (secondAscends : Ascends second)
    (perm : (first.map content).Perm (second.map content)) :
    first.map content = second.map content := by
  -- Names are read off the contents, so the order is one of the contents alone.
  let spelled : String → String := nameFor second
  have ofFirst : ∀ a ∈ first, spelled (content a) = name a := by
    intro a member
    exact nameFor_content named member (perm.mem_iff.mp (List.mem_map_of_mem member))
  have ofSecond : ∀ b ∈ second, spelled (content b) = name b := by
    intro b member
    obtain ⟨a, aMember, same⟩ :=
      List.mem_map.mp (perm.mem_iff.mpr (List.mem_map_of_mem member))
    rw [← same, ofFirst a aMember]
    exact named a aMember b member same
  let before : String → String → Prop := fun text other =>
    spelled text < spelled other ∨ (spelled text = spelled other ∧ text ≤ other)
  have antisymmetric : ∀ text other, before text other → before other text → text = other := by
    rintro text other (less | ⟨same, below⟩) (more | ⟨_, above⟩)
    · exact absurd (String.lt_trans less more) (String.lt_irrefl _)
    · simp_all
    · rw [same] at more
      exact absurd more (String.lt_irrefl _)
    · exact String.le_antisymm below above
  have firstBefore : (first.map content).Pairwise before := by
    refine List.pairwise_map.mpr (firstAscends.imp_of_mem fun aMember bMember ascends => ?_)
    simpa only [before, ofFirst _ aMember, ofFirst _ bMember] using le_iff.mp ascends
  have secondBefore : (second.map content).Pairwise before := by
    refine List.pairwise_map.mpr (secondAscends.imp_of_mem fun aMember bMember ascends => ?_)
    simpa only [before, ofSecond _ aMember, ofSecond _ bMember] using le_iff.mp ascends
  exact perm.eq_of_pairwise (fun text other _ _ => antisymmetric text other) firstBefore
    secondBefore

end Contents

end Entity

end JvmDiff
