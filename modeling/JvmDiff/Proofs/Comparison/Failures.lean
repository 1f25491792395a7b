import JvmDiff.Proofs.Comparison.Reports
import JvmDiff.Proofs.Matching.Plain

/-!
# Classes that failed

A class that failed to load on either side takes part in a comparison on neither, whether it is
compared with a class of its name or listed in a package.  What is reported is the same as if no
source had ever defined it.

Classes that stand for packages are an exception.  Their annotations enter the packages when the
snapshots are put together, so those of one side stay when the class fails on the other side.
-/

namespace JvmDiff

namespace Snapshot

/-! ## Sources without some classes -/

/-- The sources of the other classes. -/
def without (names : List String) (sources : List Source) : List Source :=
  sources.filter fun source => !names.contains source.content.name

section Without

variable (names : List String) (sources : List Source)

theorem ordinary_without :
    ordinary (without names sources) =
      (ordinary sources).filter fun source => !names.contains source.content.name :=
  List.filter_comm _ _ _

theorem infos_without :
    infos (without names sources) =
      (infos sources).filter fun info => !names.contains info.name := by
  rw [infos, infos, List.filter_map]
  exact congrArg (List.map Source.content) (List.filter_comm _ _ _)

theorem classesOf_without :
    classesOf (without names sources) =
      (classesOf sources).filter fun c => !names.contains c.name :=
  classesOf_filter (fun name => !names.contains name) (ordinary_without names sources)

theorem outer_without :
    outer (without names sources) =
      (outer sources).filter fun c => !names.contains c.name := by
  rw [outer, outer, classesOf_without, List.filter_comm]

theorem redefinitions_without :
    redefinitions (without names sources) =
      (redefinitions sources).filter fun again => !names.contains again.className := by
  rw [redefinitions, ordinary_without]
  exact redefinitionsAfter_filter (fun name => !names.contains name) (ordinary sources)
    fun _ _ => rfl

theorem packageNamesOf_without_subset :
    packageNamesOf (without names sources) ⊆ packageNamesOf sources := by
  intro name member
  rw [mem_packageNamesOf_iff, outer_without, infos_without] at member
  apply mem_packageNamesOf_iff.mpr
  refine member.imp ?_ ?_
  · rintro ⟨c, cMember, named⟩
    exact ⟨c, (List.mem_filter.mp cMember).1, named⟩
  · rintro ⟨info, infoMember, named⟩
    exact ⟨info, (List.mem_filter.mp infoMember).1, named⟩

/-- The packages with annotations that stand in a class with one of the names. -/
def annotatedBy : List String :=
  ((infos sources).filter fun info =>
    names.contains info.name && !info.annotations.isEmpty).map Class.package

theorem annotatedBy_append (others : List Source) :
    annotatedBy names (sources ++ others) =
      annotatedBy names sources ++ annotatedBy names others := by
  simp [annotatedBy, infos, packageInfos]

variable {names sources} in
theorem annotations_without {package : String}
    (unaffected : package ∉ annotatedBy names sources) :
    (((infos sources).filter fun info => !names.contains info.name).filter fun info =>
        info.package = package).flatMap Class.annotations =
      ((infos sources).filter fun info => info.package = package).flatMap Class.annotations := by
  rw [List.filter_comm]
  apply flatMap_filter_of_silent
  intro info member failed
  obtain ⟨isInfo, inPackage⟩ := List.mem_filter.mp member
  by_contra annotated
  apply unaffected
  refine List.mem_map.mpr ⟨info, List.mem_filter.mpr ⟨isInfo, ?_⟩, of_decide_eq_true inPackage⟩
  simpa [annotated] using failed

end Without

end Snapshot

namespace Loaded

open Snapshot

/-- What would have been loaded without the sources of the classes. -/
def without (names : List String) (loaded : Loaded) : Loaded where
  root := loaded.root
  sources := Snapshot.without names loaded.sources
  failures := loaded.failures
  isDotted source member := loaded.isDotted source (List.mem_filter.mp member).1

section Without

variable {names failed : List String} {loaded : Loaded}

/-- No class fails that did not fail with all sources there. -/
theorem failedNames_without_subset (names : List String) (loaded : Loaded) :
    (loaded.without names).snapshot.failedNames ⊆ loaded.snapshot.failedNames := by
  intro name member
  rw [Snapshot.failedNames, Text.mem_distinct] at member ⊢
  apply List.map_subset LoadFailure.className _ member
  refine List.append_subset.mpr ⟨List.subset_append_left _ _, ?_⟩
  rw [without, redefinitions_without]
  exact List.Subset.trans (List.map_subset _ (List.filter_subset_self _))
    (List.subset_append_right _ _)

theorem filter_without {classes : List Class} (fewer : failed ⊆ names) :
    (classes.filter fun c => !names.contains c.name).filter (fun c => !failed.contains c.name) =
      classes.filter fun c => !names.contains c.name := by
  apply List.filter_eq_self.mpr
  intro c member
  have remains := (List.mem_filter.mp member).2
  simp only [Bool.not_eq_true', List.contains_eq_mem, decide_eq_false_iff_not] at remains ⊢
  exact fun cFailed => remains (fewer cFailed)

/-- One side of a package is the same whether the failed classes are passed over or
were never there. -/
theorem sidePackage_without (fewer : failed ⊆ names)
    {name : String} (unaffected : name ∉ annotatedBy names loaded.sources) :
    Comparison.sidePackage (loaded.without names).snapshot failed name =
      Comparison.sidePackage loaded.snapshot names name := by
  rw [sidePackage_snapshot, sidePackage_snapshot, without, outer_without, infos_without,
    filter_without fewer, package, package, annotations_without unaffected]

theorem class?_without {name : String} (kept : name ∉ names) :
    (loaded.without names).snapshot.class? name = loaded.snapshot.class? name := by
  rw [class?, class?, Loading.snapshot, Loading.snapshot, without, ofSources, ofSources]
  simp only [classesOf_without, List.find?_filter]
  congr 1
  funext c
  by_cases named : c.name = name
  · subst named
    simp [kept]
  · simp [named]

end Without

end Loaded

namespace Comparison

open Snapshot

/-! ## What is compared -/

/-- The groups of some names are the same if their changes are, and if names without
changes only come and go. -/
theorem filter_nonempty_eq (keep : String → Bool) {names others : List String}
    {changes otherChanges : String → List Change}
    (namesAscend : names.Pairwise fun first second => first < second)
    (othersAscend : others.Pairwise fun first second => first < second)
    (sameChanges : ∀ name, keep name = true → changes name = otherChanges name)
    (sameNames : ∀ name, keep name = true → changes name ≠ [] → (name ∈ names ↔ name ∈ others)) :
    (nonempty (names.map fun name => ⟨name, changes name⟩)).filter (fun group => keep group.name) =
      (nonempty (others.map fun name => ⟨name, otherChanges name⟩)).filter
        fun group => keep group.name := by
  rw [nonempty, nonempty, List.filter_filter, List.filter_filter, List.filter_map, List.filter_map]
  have sameFilter : names.filter (fun name => keep name && !(changes name).isEmpty) =
      others.filter fun name => keep name && !(otherChanges name).isEmpty := by
    apply Text.eq_of_mem_iff (namesAscend.sublist List.filter_sublist)
      (othersAscend.sublist List.filter_sublist)
    intro name
    by_cases kept : keep name = true
    · by_cases silent : changes name = []
      · simp [← sameChanges name kept, silent]
      · simp [← sameChanges name kept, silent, kept, sameNames name kept silent]
    · simp [kept]
  refine Eq.trans ?_ (congrArg (List.map _) sameFilter)
  refine List.map_congr_left fun name member => ?_
  have kept := (Bool.and_eq_true_iff.mp (List.mem_filter.mp member).2).1
  exact congrArg (ChangeGroup.mk name) (sameChanges name kept)

theorem ofPackage_self (package : Package) : ofPackage package package = [] :=
  if_pos rfl

section Without

variable (previous next : Loaded)

theorem failedNames_without_subset (names : List String) :
    failedNames (previous.without names).snapshot (next.without names).snapshot ⊆
      failedOf previous next :=
  List.append_subset.mpr
    ⟨List.Subset.trans (Loaded.failedNames_without_subset names previous)
        (List.subset_append_left _ _),
      List.Subset.trans (Loaded.failedNames_without_subset names next)
        (List.subset_append_right _ _)⟩

theorem comparedClasses_without :
    comparedClasses (previous.without (failedOf previous next)).snapshot
        (next.without (failedOf previous next)).snapshot =
      comparedClasses previous.snapshot next.snapshot := by
  have previousClasses : (previous.without (failedOf previous next)).snapshot.classes =
      previous.snapshot.classes.filter fun c => !(failedOf previous next).contains c.name :=
    classesOf_without _ _
  rw [comparedClasses, comparedClasses, previousClasses,
    Loaded.filter_without (failedNames_without_subset previous next _)]
  apply List.filterMap_congr
  intro c member
  rw [Loaded.class?_without (by simpa using (List.mem_filter.mp member).2)]

theorem classGroups_without (minSeverity : Severity) :
    classGroups minSeverity (previous.without (failedOf previous next)).snapshot
        (next.without (failedOf previous next)).snapshot =
      classGroups minSeverity previous.snapshot next.snapshot := by
  rw [classGroups, classGroups, comparedClasses_without]

variable {previous next}

theorem packageGroups_without (minSeverity : Severity) :
    let affected := annotatedBy (failedOf previous next) (previous.sources ++ next.sources)
    (nonempty (packageGroups minSeverity (previous.without (failedOf previous next)).snapshot
        (next.without (failedOf previous next)).snapshot)).filter
          (fun group => !affected.contains group.name) =
      (nonempty (packageGroups minSeverity previous.snapshot next.snapshot)).filter
        fun group => !affected.contains group.name := by
  intro affected
  have fewer := failedNames_without_subset previous next (failedOf previous next)
  have apart : ∀ name, (!affected.contains name) = true →
      name ∉ annotatedBy (failedOf previous next) previous.sources ∧
        name ∉ annotatedBy (failedOf previous next) next.sources := by
    intro name unaffected
    rw [← not_or, ← List.mem_append, ← annotatedBy_append]
    simpa using unaffected
  apply filter_nonempty_eq (fun name => !affected.contains name) (pairwise_packageNames _ _)
    (pairwise_packageNames _ _)
  case sameChanges =>
    intro name unaffected
    obtain ⟨previousApart, nextApart⟩ := apart name unaffected
    rw [Loaded.sidePackage_without fewer previousApart,
      Loaded.sidePackage_without fewer nextApart, failedOf]
  case sameNames =>
    intro name _ changed
    rw [Loaded.mem_packageNames_iff, Loaded.mem_packageNames_iff]
    refine ⟨Or.imp (packageNamesOf_without_subset _ _ ·) (packageNamesOf_without_subset _ _ ·), ?_⟩
    intro _
    -- A package that is gone with the failed classes was left with nothing on both sides.
    by_contra gone
    obtain ⟨previousGone, nextGone⟩ := not_or.mp gone
    apply changed
    rw [Loaded.sidePackage_eq_empty _ previousGone, Loaded.sidePackage_eq_empty _ nextGone,
      ofPackage_self]
    rfl

end Without

end Comparison

end JvmDiff
