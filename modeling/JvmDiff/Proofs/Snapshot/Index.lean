import JvmDiff.Proofs.Snapshot.Sources

/-!
# What a snapshot makes of its sources

A snapshot is an index of its sources.  A name leads to the first class that defines it, every later
definition is a failure in the order of the list, and the packages list what was kept and carry the
annotations of the classes that stand for them.
-/

namespace JvmDiff

namespace Snapshot

/-! ## Classes by name -/

section Classes

variable {sources earlier : List Source} {name : String}

/-- The first source with a name is a first definition, unless one in front has the name. -/
theorem mem_definitions_of_first {source : Source}
    (new : ∀ other ∈ earlier, other.content.name ≠ name)
    (first : firstSource? sources name = some source) : source ∈ definitions earlier sources := by
  induction sources generalizing earlier with
  | nil => cases first
  | cons head sources inductionHypothesis =>
    rw [firstSource?, List.find?_cons] at first
    rw [definitions]
    by_cases same : head.content.name = name
    · simp only [same, decide_true, Option.some.injEq] at first
      subst first
      rw [if_neg]
      · exact List.mem_cons_self
      · rw [List.any_eq_true]
        rintro ⟨other, inFront, alike⟩
        exact new other inFront ((of_decide_eq_true alike).trans same)
    · simp only [same, decide_false] at first
      split
      · exact inductionHypothesis new first
      · refine List.mem_cons_of_mem _ (inductionHypothesis ?_ first)
        intro other member
        rcases List.mem_cons.mp member with rfl | inFront
        · exact same
        · exact new other inFront

/-- A class is found by its name where no name comes twice. -/
theorem class?_eq_some {snapshot : Snapshot} (distinct : (snapshot.classes.map Class.name).Nodup)
    {c : Class} (member : c ∈ snapshot.classes) : snapshot.class? c.name = some c := by
  rw [class?]
  cases found : snapshot.classes.find? fun other => other.name = c.name with
  | none => simpa using List.find?_eq_none.mp found c member
  | some other =>
      have sameName : other.name = c.name := by simpa using List.find?_some found
      have inClasses := List.mem_of_find?_eq_some found
      rw [List.inj_on_of_nodup_map distinct inClasses member sameName]

/-- The class with a name is that of the first source with the name. -/
theorem class?_ofSources (root : String) (sources : List Source) (failures : List LoadFailure)
    (name : String) :
    (ofSources root sources failures).class? name =
      (firstSource? (ordinary sources) name).map Source.content := by
  have listed := classesOf_perm sources
  cases first : firstSource? (ordinary sources) name with
  | none =>
      apply List.find?_eq_none.mpr
      intro c member
      obtain ⟨source, sourceMember, rfl⟩ := List.mem_map.mp (listed.mem_iff.mp member)
      exact List.find?_eq_none.mp first source ((definitions_sublist _ _).mem sourceMember)
  | some source =>
      have sameName : source.content.name = name := by simpa using List.find?_some first
      have member : source.content ∈ classesOf sources :=
        listed.mem_iff.mpr (List.mem_map_of_mem (mem_definitions_of_first (by simp) first))
      rw [← sameName]
      exact class?_eq_some (nodup_names_classesOf sources) member

theorem isPackageInfo_of_mem_classes {root : String} {failures : List LoadFailure} {c : Class}
    (member : c ∈ (ofSources root sources failures).classes) : c.isPackageInfo = false := by
  obtain ⟨source, _, notInfo, rfl⟩ := exists_source_of_mem_classesOf member
  exact notInfo

end Classes

/-! ## Later definitions -/

section LaterDefinitions

/-- The failure that a source behind others is, if one of them defines the same class. -/
def again? (root : String) (inFront : List Source) (source : Source) : Option LoadFailure :=
  if source.content.isPackageInfo then none
  else
    (firstSource? (ordinary inFront) source.content.name).map fun first =>
      { className := source.content.name
        path := if source.path = "" then root else source.path
        reason :=
          "duplicate definition of " ++ source.content.name ++ " (first read from '" ++
            first.path ++ "')"
        errorCode := "ERR_INVALID_MODEL" }

/-- The failures of the sources at their places in the list. -/
def laterDefinitions (root : String) (sources : List Source) : List LoadFailure :=
  sources.zipIdx.filterMap fun placed => again? root (sources.take placed.2) placed.1

/-- Telling the redefinitions one after another is telling them place by place, as long as the
earlier sources have the first source in front for each name. -/
theorem failures_redefinitionsAfter (root : String) {earlier before sources : List Source}
    (alike : ∀ name, firstSource? earlier name = firstSource? (ordinary before) name) :
    (redefinitionsAfter earlier (ordinary sources)).map (Redefinition.failure root) =
      (sources.zipIdx before.length).filterMap fun placed =>
        again? root ((before ++ sources).take placed.2) placed.1 := by
  induction sources generalizing earlier before with
  | nil => rfl
  | cons source sources inductionHypothesis =>
    have onwards : before ++ source :: sources = (before ++ [source]) ++ sources := by simp
    have extended : ordinary (before ++ [source]) = ordinary before ++ ordinary [source] :=
      List.filter_append _ _
    have rest {later : List Source} := @inductionHypothesis later (before ++ [source])
    rw [List.length_append, List.length_singleton, ← onwards] at rest
    rw [List.zipIdx_cons, List.filterMap_cons, List.take_left']
    swap; rfl
    by_cases isInfo : source.content.isPackageInfo = true
    · have skipped : ordinary (source :: sources) = ordinary sources :=
        List.filter_cons_of_neg (by simp [isInfo])
      rw [skipped, again?, if_pos isInfo]
      apply rest
      intro name
      rw [extended, alike]
      simp [ordinary, isInfo]
    · have kept : ordinary (source :: sources) = source :: ordinary sources :=
        List.filter_cons_of_pos (by simp [isInfo])
      rw [kept, redefinitionsAfter, redefinition?, again?, if_neg isInfo, ← alike]
      have found : ∀ name, firstSource? (ordinary (before ++ [source])) name =
          (firstSource? earlier name).or
            (if source.content.name = name then some source else none) := by
        intro name
        have single : ordinary [source] = [source] := List.filter_cons_of_pos (by simp [isInfo])
        rw [extended, single, alike, firstSource?, List.find?_append, List.find?_singleton]
        simp only [decide_eq_true_eq, firstSource?]
      cases first : firstSource? earlier source.content.name with
      | none =>
          apply rest
          intro name
          rw [found, firstSource?, List.find?_cons]
          by_cases same : source.content.name = name
          · rw [← same, first]
            simp
          · rw [decide_eq_false same, if_neg same, Option.or_none]
            rfl
      | some other =>
          simp only [Option.map_some, List.map_cons]
          refine congrArg (_ :: ·) (rest fun name => ?_)
          rw [found]
          by_cases same : source.content.name = name
          · rw [← same, first, Option.some_or]
          · rw [if_neg same, Option.or_none]

theorem failures_ofSources (root : String) (sources : List Source)
    (failures : List LoadFailure) :
    (ofSources root sources failures).failures = failures ++ laterDefinitions root sources := by
  have told := @failures_redefinitionsAfter root [] [] sources fun _ => rfl
  exact congrArg (failures ++ ·) told

end LaterDefinitions

end Snapshot

/-! ## Packages -/

namespace Loaded

open Snapshot

variable {loaded : Loaded} {made : Package}

theorem eq_package_of_mem_packages (member : made ∈ loaded.snapshot.packages) :
    made = package (infos loaded.sources) (outer loaded.sources) made.name := by
  rw [Loading.snapshot, packages_ofSources] at member
  obtain ⟨name, nameMember, rfl⟩ := List.mem_map.mp member
  rw [loaded.name_package_of_mem nameMember]

theorem exists_package_iff (loaded : Loaded) (name : String) :
    (∃ made ∈ loaded.snapshot.packages, made.name = name) ↔
      (∃ c ∈ loaded.snapshot.classes, c.isNested = false ∧ c.package = name) ∨
      ∃ source ∈ loaded.sources,
        source.content.isPackageInfo = true ∧ source.content.package = name := by
  rw [← List.mem_map, map_name_packages, mem_packageNamesOf_iff]
  refine or_congr ?_ ?_
  · simp only [outer, List.mem_filter, Bool.not_eq_true', and_assoc]
    rfl
  · simp only [infos, packageInfos, List.mem_map, List.mem_filter, and_assoc]
    constructor
    · rintro ⟨_, ⟨source, member, isInfo, rfl⟩, named⟩
      exact ⟨source, member, isInfo, named⟩
    · rintro ⟨source, member, isInfo, named⟩
      exact ⟨_, ⟨source, member, isInfo, rfl⟩, named⟩

theorem pairwise_packages (loaded : Loaded) :
    loaded.snapshot.packages.Pairwise fun first second => first.name < second.name := by
  rw [← List.pairwise_map, map_name_packages]
  exact Text.pairwise_distinct _

theorem annotations_perm (member : made ∈ loaded.snapshot.packages) :
    made.annotations.Perm
      (((infos loaded.sources).filter fun info => info.package = made.name).flatMap
        Class.annotations) := by
  have annotations := congrArg Package.annotations (eq_package_of_mem_packages member)
  exact annotations ▸ Entity.sorted_perm _

/-- The entries of a package are in the order of the classes, which is that of their names. -/
theorem classes_eq (member : made ∈ loaded.snapshot.packages) :
    made.classes =
      (loaded.snapshot.classes.filter fun c => !c.isNested && c.package = made.name).map fun c =>
        ⟨c.name, c.access⟩ := by
  have listed : (outer loaded.sources).filter (fun c => c.package = made.name) =
      (classesOf loaded.sources).filter fun c => !c.isNested && c.package = made.name := by
    rw [outer, List.filter_filter]
    exact List.filter_congr fun c _ => Bool.and_comm _ _
  have entries : ((classesOf loaded.sources).filter fun c =>
        !c.isNested && c.package = made.name).map entry =
      ((classesOf loaded.sources).filter fun c => !c.isNested && c.package = made.name).map
        fun c => ⟨c.name, c.access⟩ := by
    refine List.map_congr_left fun c cMember => ?_
    have isDotted := loaded.isDotted_of_mem_classesOf (List.mem_filter.mp cMember).1
    exact congrArg (InnerClass.mk · c.access) (Text.dotted_eq_self isDotted)
  have classes := congrArg Package.classes (eq_package_of_mem_packages member)
  rw [classes]
  change Entity.sorted (((outer loaded.sources).filter _).map entry) = _
  rw [listed, entries]
  apply Entity.sorted_of_ascends
  refine List.pairwise_map.mpr (((pairwise_classesOf loaded.sources).filter _).imp fun less => ?_)
  exact Entity.le_iff.mpr (.inl less)

end Loaded

/-! ## The index -/

namespace Snapshot

/-- The snapshot is an index of the sources: it holds what they define, and nothing else. -/
structure Indexes (root : String) (sources : List Source) (failures : List LoadFailure)
    (snapshot : Snapshot) : Prop where
  /-- A name leads to the first class of the list that has it and stands for no package. -/
  class?_eq : ∀ name, snapshot.class? name =
    (sources.find? fun source =>
      !source.content.isPackageInfo && source.content.name = name).map Source.content
  classes_ascend : snapshot.classes.Pairwise fun first second => first.name < second.name
  noPackageInfo : ∀ c ∈ snapshot.classes, c.isPackageInfo = false
  failures_eq : snapshot.failures = failures ++ laterDefinitions root sources
  packages_ascend : snapshot.packages.Pairwise fun first second => first.name < second.name
  package_iff : ∀ name, (∃ package ∈ snapshot.packages, package.name = name) ↔
    (∃ c ∈ snapshot.classes, c.isNested = false ∧ c.package = name) ∨
      ∃ source ∈ sources, source.content.isPackageInfo = true ∧ source.content.package = name
  entries_eq : ∀ package ∈ snapshot.packages, package.classes =
    (snapshot.classes.filter fun c => !c.isNested && c.package = package.name).map fun c =>
      ⟨c.name, c.access⟩
  entries_ascend : ∀ package ∈ snapshot.packages,
    package.classes.Pairwise fun first second => first.name < second.name
  annotations_perm : ∀ package ∈ snapshot.packages, package.annotations.Perm
    ((sources.filter fun source =>
      source.content.isPackageInfo && source.content.package = package.name).flatMap
        fun source => source.content.annotations)

theorem indexes_snapshot (loaded : Loaded) :
    Indexes loaded.root loaded.sources loaded.failures loaded.snapshot := by
  refine
    { class?_eq := fun name => ?_
      classes_ascend := pairwise_classesOf loaded.sources
      noPackageInfo := fun c => isPackageInfo_of_mem_classes
      failures_eq := failures_ofSources loaded.root loaded.sources loaded.failures
      packages_ascend := loaded.pairwise_packages
      package_iff := loaded.exists_package_iff
      entries_eq := fun package => Loaded.classes_eq
      entries_ascend := fun package member => ?_
      annotations_perm := fun package member => ?_ }
  · rw [Loading.snapshot, class?_ofSources, firstSource?, ordinary, List.find?_filter]
    simp
  · rw [Loaded.classes_eq member]
    exact List.pairwise_map.mpr ((pairwise_classesOf loaded.sources).filter _)
  · have perm := Loaded.annotations_perm member
    rwa [infos, packageInfos, List.filter_map, List.filter_filter, List.flatMap_map,
      List.filter_congr fun source _ => Bool.and_comm _ _] at perm

end Snapshot

end JvmDiff
