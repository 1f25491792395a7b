import JvmDiff.Proofs.Comparison.Completeness

/-!
# What a comparison of classes does not see

A comparison passes over the type parameters of a class, over those of its methods and over the
order of its fields, whatever they are, although the content of the class holds all three.
-/

namespace JvmDiff

namespace Matching

section Balanced

variable {α : Type} (name fingerprint : α → String) {previous next : List α}

/-- Lists with the same fingerprints, each as often, leave rests with the same
fingerprints. -/
theorem rests_perm (perm : (previous.map fingerprint).Perm (next.map fingerprint)) :
    (((of name fingerprint previous next).modified.map Prod.fst ++
          (of name fingerprint previous next).removed).map fingerprint).Perm
      (((of name fingerprint previous next).modified.map Prod.snd ++
          (of name fingerprint previous next).added).map fingerprint) := by
  have previousSide := (of_conserves_previous name fingerprint previous next).map fingerprint
  have nextSide := (of_conserves_next name fingerprint previous next).map fingerprint
  have unchanged : ((of name fingerprint previous next).unchanged.map Prod.fst).map fingerprint =
      ((of name fingerprint previous next).unchanged.map Prod.snd).map fingerprint := by
    rw [List.map_map, List.map_map]
    apply List.map_congr_left
    intro pair member
    exact fingerprint_eq_of_mem_unchanged name fingerprint previous next member
  -- The unchanged pairs have the same fingerprints on both sides and cancel out.
  have both := (previousSide.trans perm).trans nextSide.symm
  simp only [List.map_append, List.append_assoc, unchanged] at both
  simpa only [List.map_append] using (List.perm_append_left_iff _).mp both

theorem rests_eq_nil_of_perm (perm : (previous.map fingerprint).Perm (next.map fingerprint)) :
    (of name fingerprint previous next).modified = [] ∧
      (of name fingerprint previous next).removed = [] ∧
      (of name fingerprint previous next).added = [] := by
  have rests := rests_perm name fingerprint perm
  have previousRest : (of name fingerprint previous next).modified.map Prod.fst ++
      (of name fingerprint previous next).removed = [] := by
    apply List.eq_nil_iff_forall_not_mem.mpr
    intro first firstMember
    obtain ⟨second, secondMember, same⟩ :=
      List.mem_map.mp (rests.mem_iff.mp (List.mem_map_of_mem firstMember))
    exact fingerprint_ne_of_mem name fingerprint previous next firstMember secondMember same.symm
  -- With nothing left on one side, nothing is left on the other.
  rw [previousRest, List.map_nil, List.nil_perm, List.map_eq_nil_iff] at rests
  obtain ⟨modified, removed⟩ := List.append_eq_nil_iff.mp previousRest
  exact ⟨List.map_eq_nil_iff.mp modified, removed, (List.append_eq_nil_iff.mp rests).2⟩

end Balanced

end Matching

namespace Comparison

section Parts

variable {topics : PartTopics} {owner : String}

theorem ofNames_self (names : List String) : ofNames topics owner names names = [] := by
  obtain ⟨modified, removed, added⟩ :=
    Matching.rests_eq_nil_of_perm id id (List.Perm.refl (names.map id))
  apply (ofMatching_eq_nil_iff _ _ _).mpr
  refine ⟨fun _ _ => rfl, removed, added⟩

variable {α : Type} [Entity α]

theorem ofMatching_eq_nil_of_perm {label : α → String} {inside : α → α → List Change}
    {previous next : List α} (perm : previous.Perm next) :
    ofMatching topics owner label inside (Matching.ofEntities previous next) = [] := by
  obtain ⟨modified, removed, added⟩ :=
    Matching.rests_eq_nil_of_perm Entity.name Entity.hash (perm.map Entity.hash)
  apply (ofMatching_eq_nil_iff _ _ _).mpr
  refine ⟨?_, removed, added⟩
  intro pair member
  rw [Matching.ofEntities, modified] at member
  exact absurd member List.not_mem_nil

theorem ofAnnotations_self (annotations : List AnnotationUse) :
    ofAnnotations topics owner annotations annotations = [] :=
  ofMatching_eq_nil_of_perm (List.Perm.refl annotations)

theorem ofEntities_of_perm {inside : α → α → List Change} {previous next : List α}
    (perm : previous.Perm next) : ofEntities topics owner inside previous next = [] :=
  ofMatching_eq_nil_of_perm perm

/-- The one part of two lists, if a comparison inside it finds nothing. -/
theorem ofEntities_singletons {inside : α → α → List Change} {previous next : α}
    (sameName : Entity.name previous = Entity.name next) (silent : inside previous next = []) :
    ofEntities topics owner inside [previous] [next] = [] := by
  have fromPrevious := Matching.of_conserves_previous Entity.name Entity.hash [previous] [next]
  have fromNext := Matching.of_conserves_next Entity.name Entity.hash [previous] [next]
  -- One part is gone exactly when one is new, and these two would have been matched by name.
  have balanced : (Matching.ofEntities [previous] [next]).removed.length =
      (Matching.ofEntities [previous] [next]).added.length := by
    have previousCount := fromPrevious.length_eq
    have nextCount := fromNext.length_eq
    rw [List.length_append, List.length_map, List.length_append, List.length_singleton]
      at previousCount nextCount
    simp only [Matching.ofEntities]
    omega
  have removed : (Matching.ofEntities [previous] [next]).removed = [] := by
    apply List.eq_nil_iff_forall_not_mem.mpr
    intro first firstMember
    obtain ⟨second, secondMember⟩ :
        ∃ second, second ∈ (Matching.ofEntities [previous] [next]).added := by
      apply List.exists_mem_of_length_pos
      rw [← balanced]
      exact List.length_pos_of_mem firstMember
    have firstIs := List.mem_singleton.mp
      (fromPrevious.mem_iff.mp (List.mem_append_right _ firstMember))
    have secondIs := List.mem_singleton.mp
      (fromNext.mem_iff.mp (List.mem_append_right _ secondMember))
    apply Matching.name_ne_of_mem Entity.name Entity.hash [previous] [next] firstMember secondMember
    rw [firstIs, secondIs, sameName]
  apply (ofMatching_eq_nil_iff _ _ _).mpr
  refine ⟨?_, removed, ?_⟩
  · intro pair member
    obtain ⟨first, second⟩ := Matching.mem_of_mem_pairs Entity.name Entity.hash [previous] [next]
      (List.mem_append_right _ member)
    rw [List.mem_singleton.mp first, List.mem_singleton.mp second]
    exact silent
  · rw [removed, List.length_nil, eq_comm, List.length_eq_zero_iff] at balanced
    exact balanced

end Parts

/-! ## The parts that are passed over -/

/-- The type parameters of a class may be any. -/
theorem ofClass_typeParameters (c : Class) (typeParameters : String) :
    ofClass c { c with typeParameters := typeParameters } = [] := by
  apply (unlessSame_eq_nil_iff _ _ _).mpr
  apply Or.inr
  simp [ofHead, ofTexts, ofAccess, ofNames_self, ofAnnotations_self,
    ofEntities_of_perm (List.Perm.refl _)]

/-- The fields may stand in any order. -/
theorem ofClass_fields_of_perm (c : Class) {fields : List Field} (perm : c.fields.Perm fields) :
    ofClass c { c with fields := fields } = [] := by
  apply (unlessSame_eq_nil_iff _ _ _).mpr
  apply Or.inr
  simp [ofHead, ofTexts, ofAccess, ofNames_self, ofAnnotations_self, ofEntities_of_perm perm,
    ofEntities_of_perm (List.Perm.refl _)]

/-- The type parameters of a method may be any. -/
theorem ofMethod_genericTypes (method : Method) (genericTypes : String) :
    ofMethod method { method with genericTypes := genericTypes } = [] := by
  apply (unlessSame_eq_nil_iff _ _ _).mpr
  apply Or.inr
  simp [ofTexts, ofAccess, ofNames_self, ofAnnotations_self]

theorem ofClass_genericTypes (c : Class) (method : Method) (genericTypes : String)
    (only : c.methods = [method]) :
    ofClass c { c with methods := [{ method with genericTypes := genericTypes }] } = [] := by
  apply (unlessSame_eq_nil_iff _ _ _).mpr
  apply Or.inr
  have methodsNone : ∀ topics owner, ofEntities topics owner ofMethod [method]
      [{ method with genericTypes := genericTypes }] = [] := by
    intro topics owner
    exact ofEntities_singletons rfl (ofMethod_genericTypes method genericTypes)
  simp [ofHead, ofTexts, ofAccess, ofNames_self, ofAnnotations_self, only, methodsNone,
    ofEntities_of_perm (List.Perm.refl _)]

/-- Two plain versions of a class have different contents and digests, and a
comparison finds nothing. -/
structure Overlooked (previous next : Class.Blueprint) : Prop where
  sameName : previous.build.name = next.build.name
  previousPlain : previous.IsPlain
  nextPlain : next.IsPlain
  free : Sha256.CollisionFree (classTexts previous.build ++ classTexts next.build)
  different : previous.build.content ≠ next.build.content
  silent : ofClass previous.build next.build = []

/-- A class whose type parameter is gone. -/
theorem overlooked_typeParameters :
    Overlooked { name := "Box", typeParameters := "<T>" } { name := "Box" } := by
  have digests :
      (classTexts ({ name := "Box", typeParameters := "<T>" } : Class.Blueprint).build ++
        classTexts ({ name := "Box" } : Class.Blueprint).build).map Sha256.ofText =
      ["a9ca596650fdd5de62e32a8307608b7e526cf39554ca3775db662e1638153e71",
        "f53de3c093faa1ce331867c50ff428656bedff84b5baacdb3a93cf9fdbf5c26f"] := by
    decide +kernel
  constructor
  case sameName => rfl
  case previousPlain => decide
  case nextPlain => decide
  case free =>
    apply Sha256.CollisionFree.of_nodup
    rw [digests]
    decide
  case different => decide +kernel
  case silent => exact ofClass_typeParameters _ ""

/-- A class whose only method has another type parameter. -/
theorem overlooked_genericTypes :
    Overlooked { name := "Box", methods := [{ name := "map", genericTypes := "T" }] }
      { name := "Box", methods := [{ name := "map", genericTypes := "U" }] } := by
  let box (genericTypes : String) : Class.Blueprint :=
    { name := "Box", methods := [{ name := "map", genericTypes := genericTypes }] }
  let method : Method := ({ name := "map", genericTypes := "T" } : Member.Declared).toMethod
  have digests : (classTexts (box "T").build ++ classTexts (box "U").build).map Sha256.ofText =
      ["19528a6a1bd43f0d502563eea9e047adb1f263a0222553d126dcb1a6ca679c14",
        "005e8fb69d0a4b1308992fa1d6cbbc6f44d4f4ea79dac808cadc2cb3abaee889",
        "a29ef8d6fc3c0293b86c734df25e944bff9845110ca6efee3b1f7d2f8ca5c648",
        "77d906322560a92f5c7f6bf0cbfb0cce67583a7d8968974eb441d39ae097594b"] := by
    decide +kernel
  constructor
  case sameName => rfl
  case previousPlain => decide
  case nextPlain => decide
  case free =>
    apply Sha256.CollisionFree.of_nodup
    rw [digests]
    decide
  case different => decide +kernel
  case silent =>
    have next : (box "U").build =
        { (box "T").build with methods := [{ method with genericTypes := "U" }] } := by
      decide +kernel
    change ofClass (box "T").build (box "U").build = []
    rw [next]
    exact ofClass_genericTypes _ method "U" (List.mergeSort_singleton _)

/-- An enumeration whose constants have changed places. -/
theorem overlooked_order :
    Overlooked
      { name := "Color", access := Access.accEnum,
        fields := [{ name := "RED", type := "Color" }, { name := "GREEN", type := "Color" }] }
      { name := "Color", access := Access.accEnum,
        fields := [{ name := "GREEN", type := "Color" }, { name := "RED", type := "Color" }] } := by
  let red : Field.Declared := { name := "RED", type := "Color" }
  let green : Field.Declared := { name := "GREEN", type := "Color" }
  let color (fields : List Field.Declared) : Class.Blueprint :=
    { name := "Color", access := Access.accEnum, fields := fields }
  let texts : List String :=
    [(color [red, green]).build.content, (color [green, red]).build.content,
      red.toField.content, green.toField.content]
  have digests : texts.map Sha256.ofText =
      ["c90ff2f01a1b24e55e6cb0bf0c7e4005a9d2d04f80a2112cbfccdbddea038ece",
        "220a8781f5a1b63ec2e2dc4fa02307a93aa662ad01bcaa9f0725198d06a9d6ae",
        "909b1ac312640734abfd33499123cd6e2745de977422e6d2b94e7196b3f69b01",
        "8165f65022320916697ec706718e2c072a48fa493634edc9a2dc2e33f1289eed"] := by
    decide +kernel
  constructor
  case sameName => rfl
  case previousPlain => decide
  case nextPlain => decide
  case free =>
    have free : Sha256.CollisionFree texts := by
      apply Sha256.CollisionFree.of_nodup
      rw [digests]
      decide
    have within : classTexts (color [red, green]).build ++
        classTexts (color [green, red]).build ⊆ texts := by
      decide +kernel
    intro first firstMember second secondMember
    exact free first (within firstMember) second (within secondMember)
  case different => decide +kernel
  case silent =>
    have next : (color [green, red]).build =
        { (color [red, green]).build with fields := [green.toField, red.toField] } := by
      decide +kernel
    change ofClass (color [red, green]).build (color [green, red]).build = []
    rw [next]
    have fields : (color [red, green]).build.fields = [red.toField, green.toField] := by
      have enumeration : (color [red, green]).build.kind = .enumeration := by decide
      rw [Class.Blueprint.fields_build, if_pos enumeration]
      rfl
    apply ofClass_fields_of_perm
    rw [fields]
    exact List.Perm.swap green.toField red.toField []

end Comparison

end JvmDiff
