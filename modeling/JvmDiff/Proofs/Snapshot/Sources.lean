import JvmDiff.Comparison.Snapshots
import JvmDiff.Proofs.Content.Members
import JvmDiff.Proofs.Entity.Order
import JvmDiff.Snapshot.Loading
import Mathlib.Data.List.Basic

/-!
# What a snapshot holds of its sources

The classes of a snapshot are the first definitions of their names, in ascending order, and its
packages are determined by these and by the sources that stand for packages.  Both are told here in
terms of the sources, also for sources from which some classes have been taken out.
-/

namespace JvmDiff

/-! ## Names with dots -/

namespace Text

/-- A name as source code spells it. -/
def IsDotted (name : String) : Prop :=
  '/' ∉ name.toList

theorem isDotted_dotted (name : String) : IsDotted (dotted name) := by
  intro member
  rw [dotted, String.toList_ofList] at member
  obtain ⟨c, _, shown⟩ := List.mem_map.mp member
  by_cases slash : c = '/'
  · rw [if_pos slash] at shown
    exact absurd shown (by decide)
  · rw [if_neg slash] at shown
    exact slash shown

theorem dotted_eq_self {name : String} (isDotted : IsDotted name) : dotted name = name := by
  have kept : (name.toList.map fun c => if c = '/' then '.' else c) = name.toList := by
    refine (List.map_congr_left fun c member => if_neg ?_).trans (List.map_id _)
    rintro rfl
    exact isDotted member
  rw [dotted, kept, String.ofList_toList]

theorem isDotted_beforeLastDot {name : String} (isDotted : IsDotted name) :
    IsDotted (beforeLastDot name) := by
  intro member
  rw [beforeLastDot] at member
  split at member
  · rw [String.toList_ofList, List.mem_reverse] at member
    have inDropped := List.mem_of_mem_drop member
    exact isDotted (List.mem_reverse.mp ((List.dropWhile_sublist _).mem inDropped))
  · exact absurd member List.not_mem_nil

end Text

/-- Parts that write nothing may be left out. -/
theorem flatMap_filter_of_silent {α β : Type} {write : α → List β} {keep : α → Bool}
    {parts : List α} (silent : ∀ part ∈ parts, keep part = false → write part = []) :
    (parts.filter keep).flatMap write = parts.flatMap write := by
  induction parts with
  | nil => rfl
  | cons part parts inductionHypothesis =>
    obtain ⟨partSilent, partsSilent⟩ := List.forall_mem_cons.mp silent
    by_cases kept : keep part = true
    · rw [List.filter_cons_of_pos kept, List.flatMap_cons, List.flatMap_cons,
        inductionHypothesis partsSilent]
    · rw [List.filter_cons_of_neg kept, List.flatMap_cons,
        partSilent (Bool.eq_false_iff.mpr kept), List.nil_append, inductionHypothesis partsSilent]

/-- Every class that was built has a dotted name. -/
theorem Class.Declared.isDotted_name (declared : Declared) :
    Text.IsDotted declared.toClass.name :=
  Text.isDotted_dotted declared.name

theorem Class.isDotted_package {c : Class} (isDotted : Text.IsDotted c.name) :
    Text.IsDotted c.package :=
  Text.isDotted_beforeLastDot isDotted

theorem InnerClass.rank_injective : Function.Injective (Entity.rank (α := InnerClass)) :=
  fun _ _ same => eq_of_content_eq (congrArg Prod.snd same)

theorem InnerClass.sorted_eq_of_perm {first second : List InnerClass}
    (perm : first.Perm second) : Entity.sorted first = Entity.sorted second :=
  List.map_injective_iff.mpr rank_injective
    (Entity.map_rank_sorted_of_perm (perm.map Entity.rank))

namespace Snapshot

/-! ## First definitions -/

section Definitions

theorem definitions_sublist (earlier sources : List Source) :
    (definitions earlier sources).Sublist sources := by
  induction sources generalizing earlier with
  | nil => exact List.Sublist.refl []
  | cons source sources inductionHypothesis =>
    rw [definitions]
    split
    · exact (inductionHypothesis earlier).cons source
    · exact (inductionHypothesis _).cons_cons source

theorem name_ne_of_mem_definitions {earlier sources : List Source} {source other : Source}
    (member : source ∈ definitions earlier sources) (inFront : other ∈ earlier) :
    other.content.name ≠ source.content.name := by
  induction sources generalizing earlier with
  | nil => exact absurd member List.not_mem_nil
  | cons head sources inductionHypothesis =>
    rw [definitions] at member
    split at member
    case isTrue => exact inductionHypothesis member inFront
    case isFalse new =>
      rcases List.mem_cons.mp member with rfl | later
      · intro same
        exact new (List.any_eq_true.mpr ⟨other, inFront, decide_eq_true same⟩)
      · exact inductionHypothesis later (List.mem_cons_of_mem head inFront)

/-- No name is defined twice. -/
theorem pairwise_definitions (earlier sources : List Source) :
    (definitions earlier sources).Pairwise fun first second =>
      first.content.name ≠ second.content.name := by
  induction sources generalizing earlier with
  | nil => exact List.Pairwise.nil
  | cons source sources inductionHypothesis =>
    rw [definitions]
    split
    · exact inductionHypothesis earlier
    · refine List.pairwise_cons.mpr ⟨?_, inductionHypothesis _⟩
      intro other member
      exact name_ne_of_mem_definitions member List.mem_cons_self

/-- Taking out all definitions of some names leaves the first definitions of the
others. -/
theorem definitions_filter (keep : String → Bool) (sources : List Source)
    {earlier others : List Source}
    (alike : ∀ name, keep name = true →
      (others.any fun other => other.content.name = name) =
        earlier.any fun other => other.content.name = name) :
    definitions others (sources.filter fun source => keep source.content.name) =
      (definitions earlier sources).filter fun source => keep source.content.name := by
  induction sources generalizing earlier others with
  | nil => rfl
  | cons source sources inductionHypothesis =>
    by_cases kept : keep source.content.name = true
    · simp only [List.filter_cons, kept, if_true, definitions, alike _ kept]
      split
      · exact inductionHypothesis alike
      · simp only [List.filter_cons, kept, if_true, List.cons.injEq, true_and]
        apply inductionHypothesis
        intro name nameKept
        rw [List.any_cons, List.any_cons, alike name nameKept]
    · simp only [List.filter_cons, kept, Bool.false_eq_true, if_false, definitions]
      split
      · exact inductionHypothesis alike
      · simp only [List.filter_cons, kept, Bool.false_eq_true, if_false]
        apply inductionHypothesis
        intro name nameKept
        have different : source.content.name ≠ name := by
          rintro rfl
          exact kept nameKept
        rw [List.any_cons, decide_eq_false different, Bool.false_or]
        exact alike name nameKept

theorem redefinitionsAfter_filter (keep : String → Bool) (sources : List Source)
    {earlier others : List Source}
    (alike : ∀ name, keep name = true → firstSource? others name = firstSource? earlier name) :
    redefinitionsAfter others (sources.filter fun source => keep source.content.name) =
      (redefinitionsAfter earlier sources).filter fun again => keep again.className := by
  induction sources generalizing earlier others with
  | nil => rfl
  | cons source sources inductionHypothesis =>
    by_cases kept : keep source.content.name = true
    · simp only [List.filter_cons, kept, if_true, redefinitionsAfter, redefinition?,
        alike _ kept]
      cases firstSource? earlier source.content.name with
      | none =>
          apply inductionHypothesis
          intro name nameKept
          have rest := alike name nameKept
          simp only [firstSource?, List.find?_cons] at rest ⊢
          rw [rest]
      | some first =>
          simp only [Option.map_some, List.filter_cons, kept, if_true]
          rw [inductionHypothesis alike]
    · simp only [List.filter_cons, kept, Bool.false_eq_true, if_false, redefinitionsAfter,
        redefinition?]
      cases firstSource? earlier source.content.name with
      | none =>
          apply inductionHypothesis
          intro name nameKept
          have different : source.content.name ≠ name := by
            rintro rfl
            exact kept nameKept
          rw [alike name nameKept, firstSource?, firstSource?,
            List.find?_cons_of_neg (by simpa using different)]
      | some first =>
          simp only [Option.map_some, List.filter_cons, kept, Bool.false_eq_true, if_false]
          exact inductionHypothesis alike

end Definitions

/-! ## Classes -/

section Classes

variable (sources : List Source)

theorem classesOf_perm :
    (classesOf sources).Perm ((definitions [] (ordinary sources)).map Source.content) :=
  List.mergeSort_perm _ _

theorem pairwise_classesOf :
    (classesOf sources).Pairwise fun first second => first.name < second.name := by
  have ascends : (classesOf sources).Pairwise fun first second =>
      Text.le first.name second.name = true := by
    apply List.pairwise_mergeSort
    · intro first second third
      exact Text.le_trans
    · intro first second
      exact Text.le_total first.name second.name
  have apart : (classesOf sources).Pairwise fun first second => first.name ≠ second.name := by
    rw [(classesOf_perm sources).pairwise_iff fun different => Ne.symm different]
    exact List.pairwise_map.mpr (pairwise_definitions [] (ordinary sources))
  refine (ascends.and apart).imp fun {first second} both => ?_
  apply String.not_le.mp
  intro above
  exact both.2 (String.le_antisymm (of_decide_eq_true both.1) above)

theorem nodup_names_classesOf : ((classesOf sources).map Class.name).Nodup := by
  refine List.pairwise_map.mpr ((pairwise_classesOf sources).imp fun less same => ?_)
  exact String.lt_irrefl _ (same ▸ less)

variable {sources}

theorem exists_source_of_mem_classesOf {c : Class} (member : c ∈ classesOf sources) :
    ∃ source ∈ sources, source.content.isPackageInfo = false ∧ source.content = c := by
  obtain ⟨source, sourceMember, rfl⟩ :=
    List.mem_map.mp ((classesOf_perm sources).mem_iff.mp member)
  have isOrdinary := (definitions_sublist [] (ordinary sources)).mem sourceMember
  obtain ⟨inSources, notInfo⟩ := List.mem_filter.mp isOrdinary
  exact ⟨source, inSources, by simpa using notInfo, rfl⟩

/-- Taking classes out of the sources, all definitions of each, takes them out of
the snapshot. -/
theorem classesOf_filter (keep : String → Bool) {others : List Source}
    (kept : ordinary others =
      (ordinary sources).filter fun source => keep source.content.name) :
    classesOf others = (classesOf sources).filter fun c => keep c.name := by
  have perm : (classesOf others).Perm ((classesOf sources).filter fun c => keep c.name) := by
    apply (classesOf_perm others).trans
    rw [kept, definitions_filter keep (ordinary sources) fun _ _ => rfl]
    apply List.Perm.symm
    apply ((classesOf_perm sources).filter _).trans
    rw [List.filter_map]
    exact List.Perm.refl _
  apply perm.eq_of_pairwise _ (pairwise_classesOf others)
    ((pairwise_classesOf sources).sublist List.filter_sublist)
  intro first second _ _ less more
  exact absurd (String.lt_trans less more) (String.lt_irrefl _)

end Classes

/-! ## Packages -/

section Packages

variable (sources : List Source)

/-- The classes that stand for packages. -/
def infos : List Class :=
  (packageInfos sources).map Source.content

/-- The classes that are not declared inside others. -/
def outer : List Class :=
  (classesOf sources).filter fun c => !c.isNested

variable {sources}

theorem name_package {infos outer : List Class} {name : String} (isDotted : Text.IsDotted name) :
    (package infos outer name).name = name :=
  Text.dotted_eq_self isDotted

theorem package_eq_empty {infos outer : List Class} {name : String}
    (noInfo : ∀ info ∈ infos, info.package ≠ name) (noClass : ∀ c ∈ outer, c.package ≠ name) :
    package infos outer name = Package.empty name := by
  have noInfos : infos.filter (fun info => info.package = name) = [] := by
    simpa using noInfo
  have noClasses : outer.filter (fun c => c.package = name) = [] := by
    simpa using noClass
  rw [package, noInfos, noClasses]
  rfl

/-- The names of the packages of the sources, in ascending order. -/
def packageNamesOf (sources : List Source) : List String :=
  Text.distinct ((outer sources ++ infos sources).map Class.package)

theorem mem_packageNamesOf_iff {name : String} :
    name ∈ packageNamesOf sources ↔
      (∃ c ∈ outer sources, c.package = name) ∨ ∃ info ∈ infos sources, info.package = name := by
  simp only [packageNamesOf, Text.mem_distinct, List.mem_map, List.mem_append, or_and_right,
    exists_or]

theorem packages_ofSources (root : String) (sources : List Source)
    (failures : List LoadFailure) :
    (ofSources root sources failures).packages =
      (packageNamesOf sources).map (package (infos sources) (outer sources)) :=
  rfl

/-- The entries of a package without those of some classes are the entries of the
other classes. -/
theorem sorted_filter_entries (classes : List Class) (keep : String → Bool)
    (isDotted : ∀ c ∈ classes, Text.IsDotted c.name) :
    Entity.sorted ((Entity.sorted (classes.map entry)).filter fun e => keep e.name) =
      Entity.sorted ((classes.filter fun c => keep c.name).map entry) := by
  apply InnerClass.sorted_eq_of_perm
  apply ((Entity.sorted_perm (classes.map entry)).filter _).trans
  rw [List.filter_map]
  apply List.Perm.of_eq
  congr 1
  refine List.filter_congr fun c member => ?_
  exact congrArg keep (Text.dotted_eq_self (isDotted c member))

end Packages

end Snapshot

/-! ## What was loaded -/

/-- What was loaded for one side of a comparison.  The classes have been built, so their
names are dotted. -/
structure Loaded extends Loading where
  isDotted : ∀ source ∈ sources, Text.IsDotted source.content.name

/-- The source for a file with the class that it declares. -/
def Snapshot.sourceOf (file : String × Class.Declared) : Source :=
  ⟨file.1, file.2.toClass⟩

namespace Loaded

open Snapshot

/-- What is loaded of files with the classes that they declare. -/
def ofDeclared (root : String) (files : List (String × Class.Declared))
    (failures : List LoadFailure) : Loaded where
  root := root
  sources := files.map sourceOf
  failures := failures
  isDotted := by
    intro source member
    obtain ⟨file, _, rfl⟩ := List.mem_map.mp member
    exact file.2.isDotted_name

variable (loaded : Loaded)

theorem isDotted_of_mem_infos {info : Class} (member : info ∈ infos loaded.sources) :
    Text.IsDotted info.name := by
  obtain ⟨source, sourceMember, rfl⟩ := List.mem_map.mp member
  exact loaded.isDotted source (List.mem_filter.mp sourceMember).1

theorem isDotted_of_mem_classesOf {c : Class} (member : c ∈ classesOf loaded.sources) :
    Text.IsDotted c.name := by
  obtain ⟨source, sourceMember, _, rfl⟩ := exists_source_of_mem_classesOf member
  exact loaded.isDotted source sourceMember

theorem isDotted_of_mem_packageNamesOf {name : String}
    (member : name ∈ packageNamesOf loaded.sources) : Text.IsDotted name := by
  rcases mem_packageNamesOf_iff.mp member with ⟨c, cMember, rfl⟩ | ⟨info, infoMember, rfl⟩
  · exact Class.isDotted_package
      (loaded.isDotted_of_mem_classesOf (List.mem_filter.mp cMember).1)
  · exact Class.isDotted_package (loaded.isDotted_of_mem_infos infoMember)

theorem name_package_of_mem {name : String} (member : name ∈ packageNamesOf loaded.sources) :
    (package (infos loaded.sources) (outer loaded.sources) name).name = name :=
  name_package (loaded.isDotted_of_mem_packageNamesOf member)

theorem map_name_packages :
    loaded.snapshot.packages.map Package.name = packageNamesOf loaded.sources := by
  rw [Loading.snapshot, packages_ofSources, List.map_map]
  exact (List.map_congr_left fun _ member => loaded.name_package_of_mem member).trans
    (List.map_id _)

theorem package?_snapshot (name : String) :
    loaded.snapshot.package? name =
      if name ∈ packageNamesOf loaded.sources then
        some (package (infos loaded.sources) (outer loaded.sources) name)
      else none := by
  rw [package?, Loading.snapshot, packages_ofSources, List.find?_map]
  cases found : (packageNamesOf loaded.sources).find?
      ((fun package : Package => decide (package.name = name)) ∘
        package (infos loaded.sources) (outer loaded.sources)) with
  | none =>
      rw [if_neg, Option.map_none]
      intro member
      have missing := List.find?_eq_none.mp found name member
      simp [loaded.name_package_of_mem member] at missing
  | some other =>
      have member := List.mem_of_find?_eq_some found
      have sameName : other = name := by
        have shown := List.find?_some found
        rwa [Function.comp_apply, decide_eq_true_eq, loaded.name_package_of_mem member] at shown
      subst sameName
      rw [if_pos member, Option.map_some]

/-- One side of a package, whether the snapshot has the package or not. -/
theorem sidePackage_snapshot (failed : List String) (name : String) :
    Comparison.sidePackage loaded.snapshot failed name =
      package (infos loaded.sources)
        ((outer loaded.sources).filter fun c => !failed.contains c.name) name := by
  rw [Comparison.sidePackage, package?_snapshot]
  by_cases member : name ∈ packageNamesOf loaded.sources
  · rw [if_pos member]
    have annotations := Entity.sorted_of_ascends (Entity.ascends_sorted
      (((infos loaded.sources).filter fun info => info.package = name).flatMap Class.annotations))
    have classes := sorted_filter_entries ((outer loaded.sources).filter fun c => c.package = name)
      (fun name => !failed.contains name) fun c cMember =>
        loaded.isDotted_of_mem_classesOf
          (List.mem_filter.mp (List.mem_filter.mp cMember).1).1
    rw [List.filter_comm] at classes
    simp only [package, Package.build, annotations, classes]
  · rw [if_neg member]
    rw [mem_packageNamesOf_iff, not_or] at member
    apply (package_eq_empty _ _).symm
    · intro info infoMember same
      exact member.2 ⟨info, infoMember, same⟩
    · intro c cMember same
      exact member.1 ⟨c, (List.mem_filter.mp cMember).1, same⟩

variable {loaded} in
theorem sidePackage_eq_empty (failed : List String) {name : String}
    (notThere : name ∉ packageNamesOf loaded.sources) :
    Comparison.sidePackage loaded.snapshot failed name = Package.empty name := by
  rw [Comparison.sidePackage, package?_snapshot, if_neg notThere]

theorem mem_packageNames_iff {previous next : Loaded} {name : String} :
    name ∈ Comparison.packageNames previous.snapshot next.snapshot ↔
      name ∈ packageNamesOf previous.sources ∨ name ∈ packageNamesOf next.sources := by
  rw [Comparison.packageNames, Text.mem_distinct, List.map_append, List.mem_append,
    map_name_packages, map_name_packages]

end Loaded

/-- The names of the classes that failed on either side. -/
def Comparison.failedOf (previous next : Loaded) : List String :=
  failedNames previous.snapshot next.snapshot

end JvmDiff
