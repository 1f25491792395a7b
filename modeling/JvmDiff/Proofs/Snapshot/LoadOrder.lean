import JvmDiff.Proofs.Entity.Stability
import JvmDiff.Proofs.Matching.Plain
import JvmDiff.Proofs.Snapshot.Sources
import Mathlib.Data.List.TakeWhile

/-!
# The order of loading

A snapshot does not depend on the order in which its sources were loaded, if no class was loaded
twice.  There is one exception: the unnamed package takes the annotations of two classes, and of
these, two that differ although they have the same name and content stand in the order in which they
were loaded.
-/

namespace JvmDiff

namespace Text

/-! ## Names that end alike -/

theorem afterLastDot_eq_self {name : String} (noDot : '.' ∉ name.toList) :
    afterLastDot name = name := by
  have whole : name.toList.reverse.takeWhile (· ≠ '.') = name.toList.reverse := by
    rw [List.takeWhile_eq_self_iff]
    intro c member
    refine decide_eq_true ?_
    rintro rfl
    exact noDot (List.mem_reverse.mp member)
  rw [afterLastDot, whole, List.reverse_reverse, String.ofList_toList]

theorem beforeLastDot_append_afterLastDot {name : String} (hasDot : '.' ∈ name.toList) :
    beforeLastDot name ++ ("." ++ afterLastDot name) = name := by
  have split := List.takeWhile_append_dropWhile (p := (· ≠ '.')) (l := name.toList.reverse)
  cases dropped : name.toList.reverse.dropWhile (· ≠ '.') with
  | nil =>
    have noDot := List.dropWhile_eq_nil_iff.mp dropped '.' (List.mem_reverse.mpr hasDot)
    exact absurd rfl (of_decide_eq_true noDot)
  | cons first front =>
    have isDot : first = '.' := by
      have stops := List.find?_not_eq_head?_dropWhile (fun c => decide (c ≠ '.')) name.toList.reverse
      rw [dropped, List.head?_cons] at stops
      simpa using List.find?_some stops
    subst isDot
    rw [dropped] at split
    apply String.toList_inj.mp
    rw [beforeLastDot, if_pos hasDot, dropped, afterLastDot]
    have mirrored := congrArg List.reverse split
    simpa using mirrored

/-- A name is the last part of itself, or has a dot and the part before it. -/
theorem eq_of_lastDot {name other : String} (sameBefore : beforeLastDot name = beforeLastDot other)
    (sameAfter : afterLastDot name = afterLastDot other)
    (alike : '.' ∈ name.toList ↔ '.' ∈ other.toList) : name = other := by
  by_cases hasDot : '.' ∈ name.toList
  · rw [← beforeLastDot_append_afterLastDot hasDot, sameBefore, sameAfter,
      beforeLastDot_append_afterLastDot (alike.mp hasDot)]
  · rw [← afterLastDot_eq_self hasDot, sameAfter,
      afterLastDot_eq_self fun otherHas => hasDot (alike.mpr otherHas)]

end Text

namespace Class

/-- Two classes that stand for one package have one name, or they are the two that stand for
the unnamed package. -/
theorem name_eq_of_isPackageInfo {first second : Class} (firstStands : first.isPackageInfo = true)
    (secondStands : second.isPackageInfo = true) (samePackage : first.package = second.package) :
    first.name = second.name ∨
      (first.name = "package-info" ∧ second.name = ".package-info") ∨
      (first.name = ".package-info" ∧ second.name = "package-info") := by
  have firstEnds : Text.afterLastDot first.name = "package-info" := of_decide_eq_true firstStands
  have secondEnds : Text.afterLastDot second.name = "package-info" := of_decide_eq_true secondStands
  have plain : ∀ {name : String}, Text.afterLastDot name = "package-info" →
      '.' ∉ name.toList → name = "package-info" := fun ends noDot =>
    (Text.afterLastDot_eq_self noDot).symm.trans ends
  have dotted : ∀ {name other : String}, Text.afterLastDot name = "package-info" →
      Text.beforeLastDot name = Text.beforeLastDot other → '.' ∈ name.toList →
      '.' ∉ other.toList → name = ".package-info" := by
    intro name other ends same hasDot noDot
    have unnamed : Text.beforeLastDot other = "" := if_neg noDot
    rw [← Text.beforeLastDot_append_afterLastDot hasDot, ends, same, unnamed]
    decide
  by_cases firstDot : '.' ∈ first.name.toList
  · by_cases secondDot : '.' ∈ second.name.toList
    · exact Or.inl (Text.eq_of_lastDot samePackage (firstEnds.trans secondEnds.symm)
        (iff_of_true firstDot secondDot))
    · exact Or.inr (Or.inr ⟨dotted firstEnds samePackage firstDot secondDot,
        plain secondEnds secondDot⟩)
  · by_cases secondDot : '.' ∈ second.name.toList
    · exact Or.inr (Or.inl ⟨plain firstEnds firstDot,
        dotted secondEnds samePackage.symm secondDot firstDot⟩)
    · exact Or.inl ((plain firstEnds firstDot).trans (plain secondEnds secondDot).symm)

end Class

namespace Snapshot

/-! ## Sources that define no class twice -/

/-- No two sources have one name. -/
def Apart (sources : List Source) : Prop :=
  sources.Pairwise fun first second => first.content.name ≠ second.content.name

theorem definitions_of_apart {earlier sources : List Source} (apart : Apart sources)
    (new : ∀ source ∈ sources, ∀ other ∈ earlier, other.content.name ≠ source.content.name) :
    definitions earlier sources = sources := by
  induction sources generalizing earlier with
  | nil => rfl
  | cons source sources inductionHypothesis =>
    obtain ⟨different, apart⟩ := List.pairwise_cons.mp apart
    obtain ⟨sourceNew, othersNew⟩ := List.forall_mem_cons.mp new
    have first : (earlier.any fun other => other.content.name = source.content.name) = false := by
      simpa using sourceNew
    rw [definitions, first]
    refine congrArg (source :: ·) (inductionHypothesis apart fun later member => ?_)
    exact List.forall_mem_cons.mpr ⟨different later member, othersNew later member⟩

theorem redefinitionsAfter_of_apart {earlier sources : List Source} (apart : Apart sources)
    (new : ∀ source ∈ sources, ∀ other ∈ earlier, other.content.name ≠ source.content.name) :
    redefinitionsAfter earlier sources = [] := by
  induction sources generalizing earlier with
  | nil => rfl
  | cons source sources inductionHypothesis =>
    obtain ⟨different, apart⟩ := List.pairwise_cons.mp apart
    obtain ⟨sourceNew, othersNew⟩ := List.forall_mem_cons.mp new
    have first : firstSource? earlier source.content.name = none := by
      simpa [firstSource?] using sourceNew
    rw [redefinitionsAfter, redefinition?, first]
    refine inductionHypothesis apart fun later member => ?_
    exact List.forall_mem_cons.mpr ⟨different later member, othersNew later member⟩

section Reordered

variable {sources others : List Source}

theorem redefinitions_of_apart (apart : Apart sources) : redefinitions sources = [] :=
  redefinitionsAfter_of_apart (apart.filter _) fun _ _ _ none => absurd none List.not_mem_nil

theorem apart_of_perm (perm : sources.Perm others) (apart : Apart sources) : Apart others :=
  (perm.pairwise_iff fun different => Ne.symm different).mp apart

theorem classesOf_of_perm (apart : Apart sources) (perm : sources.Perm others) :
    classesOf sources = classesOf others := by
  have all : ∀ {sources : List Source}, Apart sources →
      (classesOf sources).Perm ((ordinary sources).map Source.content) := by
    intro sources apart
    have kept : definitions [] (ordinary sources) = ordinary sources :=
      definitions_of_apart (apart.filter _) fun _ _ _ none => absurd none List.not_mem_nil
    exact (classesOf_perm sources).trans (.of_eq (congrArg (List.map Source.content) kept))
  have sameClasses : (classesOf sources).Perm (classesOf others) :=
    ((all apart).trans ((perm.filter _).map _)).trans (all (apart_of_perm perm apart)).symm
  apply sameClasses.eq_of_pairwise _ (pairwise_classesOf sources) (pairwise_classesOf others)
  intro first second _ _ less more
  exact absurd (String.lt_trans less more) (String.lt_irrefl _)

theorem infos_perm (perm : sources.Perm others) : (infos sources).Perm (infos others) :=
  (perm.filter _).map _

theorem outer_of_perm (apart : Apart sources) (perm : sources.Perm others) :
    outer sources = outer others := by
  rw [outer, outer, classesOf_of_perm apart perm]

theorem packageNamesOf_of_perm (apart : Apart sources) (perm : sources.Perm others) :
    packageNamesOf sources = packageNamesOf others := by
  refine Text.eq_of_mem_iff (Text.pairwise_distinct _) (Text.pairwise_distinct _) fun name => ?_
  have sameInfos : (∃ info ∈ infos sources, info.package = name) ↔
      ∃ info ∈ infos others, info.package = name := by
    simp only [(infos_perm perm).mem_iff]
  exact (mem_packageNamesOf_iff.trans (or_congr (by rw [outer_of_perm apart perm]) sameInfos)).trans
    mem_packageNamesOf_iff.symm

/-! ## Packages -/

/-- What the two classes that stand for the unnamed package say of it: annotations that have
the same name and content are the same. -/
def UnnamedAgree (sources : List Source) : Prop :=
  ∀ first ∈ sources, ∀ second ∈ sources,
    first.content.name = "package-info" → second.content.name = ".package-info" →
      Entity.Agree first.content.annotations second.content.annotations

instance (sources : List Source) : Decidable (UnnamedAgree sources) :=
  inferInstanceAs (Decidable (∀ first ∈ sources, ∀ second ∈ sources,
    first.content.name = "package-info" → second.content.name = ".package-info" →
      Entity.Agree first.content.annotations second.content.annotations))

theorem agree_of_samePackage (agree : UnnamedAgree sources) {first second : Class}
    (firstMember : first ∈ infos sources) (secondMember : second ∈ infos sources)
    (different : first.name ≠ second.name) (samePackage : first.package = second.package) :
    Entity.Agree first.annotations second.annotations := by
  obtain ⟨firstSource, isFirst, rfl⟩ := List.mem_map.mp firstMember
  obtain ⟨secondSource, isSecond, rfl⟩ := List.mem_map.mp secondMember
  obtain ⟨firstLoaded, firstStands⟩ := List.mem_filter.mp isFirst
  obtain ⟨secondLoaded, secondStands⟩ := List.mem_filter.mp isSecond
  rcases Class.name_eq_of_isPackageInfo firstStands secondStands samePackage with
    same | ⟨firstNamed, secondNamed⟩ | ⟨firstNamed, secondNamed⟩
  · exact absurd same different
  · exact agree _ firstLoaded _ secondLoaded firstNamed secondNamed
  · exact (agree _ secondLoaded _ firstLoaded secondNamed firstNamed).symm

theorem pairwise_infos (apart : Apart sources) :
    (infos sources).Pairwise fun first second => first.name ≠ second.name :=
  List.pairwise_map.mpr (apart.filter _)

theorem package_of_perm (apart : Apart sources) (agree : UnnamedAgree sources)
    (perm : sources.Perm others) (outer : List Class) (name : String) :
    package (infos sources) outer name = package (infos others) outer name := by
  have agreeHere : ((infos sources).filter fun info => info.package = name).Pairwise
      fun first second => Entity.Agree first.annotations second.annotations := by
    refine ((pairwise_infos apart).filter _).imp_of_mem fun firstMember secondMember different => ?_
    obtain ⟨firstMember, firstHere⟩ := List.mem_filter.mp firstMember
    obtain ⟨secondMember, secondHere⟩ := List.mem_filter.mp secondMember
    exact agree_of_samePackage agree firstMember secondMember different
      ((of_decide_eq_true firstHere).trans (of_decide_eq_true secondHere).symm)
  have sameAnnotations := Entity.sorted_flatMap_of_perm ((infos_perm perm).filter _) agreeHere
  rw [package, package, Package.build, Package.build, sameAnnotations]

/-- What is shown of a package: its name, the names and contents of its annotations, and its
classes. -/
def shown (package : Package) : String × List (String × String) × List InnerClass :=
  (package.name, package.annotations.map Entity.rank, package.classes)

theorem shown_package_of_perm (perm : sources.Perm others) (outer : List Class) (name : String) :
    shown (package (infos sources) outer name) = shown (package (infos others) outer name) := by
  have sameAnnotations := Entity.map_rank_sorted_of_perm
    ((((infos_perm perm).filter fun info => info.package = name).flatMap_right
      Class.annotations).map Entity.rank)
  rw [shown, shown, package, package, Package.build, Package.build, sameAnnotations]

theorem ofSources_of_perm (root : String) (failures : List LoadFailure) (apart : Apart sources)
    (agree : UnnamedAgree sources) (perm : sources.Perm others) :
    ofSources root sources failures = ofSources root others failures := by
  have sameClasses := classesOf_of_perm apart perm
  have samePackages : (ofSources root sources failures).packages =
      (ofSources root others failures).packages := by
    rw [packages_ofSources, packages_ofSources, packageNamesOf_of_perm apart perm,
      ← outer_of_perm apart perm]
    exact List.map_congr_left fun name _ => package_of_perm apart agree perm _ name
  have noRedefinitions : redefinitions sources = redefinitions others := by
    rw [redefinitions_of_apart apart, redefinitions_of_apart (apart_of_perm perm apart)]
  simp only [ofSources, Snapshot.mk.injEq, true_and]
  exact ⟨sameClasses, samePackages, congrArg _ (congrArg _ noRedefinitions)⟩

end Reordered

/-- Sources without two of one name, loaded in any order, give the same classes, the same failures
and, as far as names and contents tell, the same packages.  If the two classes that can stand for
the unnamed package agree on annotations with the same name and content, then nothing shows the
order of loading: the snapshots are the same, and so are all reports on comparing them. -/
theorem ofSources_reordered (root : String) {sources others : List Source}
    (failures : List LoadFailure)
    (distinct : (sources.map fun source => source.content.name).Nodup)
    (perm : sources.Perm others) :
    let loaded := ofSources root sources failures
    let reordered := ofSources root others failures
    (loaded.classes = reordered.classes ∧ loaded.failures = reordered.failures ∧
        loaded.packages.map shown = reordered.packages.map shown) ∧
      (UnnamedAgree sources → loaded = reordered ∧
        ∀ runId minSeverity other,
          Comparison.ofSnapshots runId minSeverity loaded other =
              Comparison.ofSnapshots runId minSeverity reordered other ∧
            Comparison.ofSnapshots runId minSeverity other loaded =
              Comparison.ofSnapshots runId minSeverity other reordered) := by
  intro loaded reordered
  have apart : Apart sources := List.pairwise_map.mp distinct
  refine ⟨⟨classesOf_of_perm apart perm, ?failures, ?packages⟩, fun agree => ?same⟩
  case failures =>
    change _ ++ (redefinitions sources).map _ = _ ++ (redefinitions others).map _
    rw [redefinitions_of_apart apart, redefinitions_of_apart (apart_of_perm perm apart)]
  case packages =>
    rw [packages_ofSources, packages_ofSources, packageNamesOf_of_perm apart perm,
      ← outer_of_perm apart perm, List.map_map, List.map_map]
    exact List.map_congr_left fun name _ => shown_package_of_perm perm _ name
  case same =>
    have sameSnapshot : loaded = reordered := ofSources_of_perm root failures apart agree perm
    exact ⟨sameSnapshot, fun runId minSeverity other => by rw [sameSnapshot]; exact ⟨rfl, rfl⟩⟩

/-- A source that stands for a package and gives it one annotation with one element. -/
def tagged (name : String) (value : ElementValue) : Source where
  content := Class.Declared.toClass
    { name := name, annotations := [(AnnotationUse.ofDescriptor "LTag;").insert "v" value] }

/-- Two classes of one package and those that stand for it and for the unnamed package, from the
last to the first. -/
theorem ofSources_reordered_boxes :
    let box (name : String) : Source := { content := Class.Declared.toClass { name := name } }
    let sources : List Source :=
      [box "org/Box", tagged "org/package-info" (.leaf (.int 1)), box "org/Lid",
        tagged "package-info" (.leaf (.int 1)), tagged ".package-info" (.leaf (.int 2))]
    let loaded := ofSources "prev" sources []
    let reordered := ofSources "prev" sources.reverse []
    (sources.map fun source => source.content.name).Nodup ∧ sources.Perm sources.reverse ∧
      UnnamedAgree sources ∧ loaded = reordered ∧
      Comparison.ofSnapshots "run" .info loaded loaded =
        Comparison.ofSnapshots "run" .info loaded reordered := by
  intro box sources loaded reordered
  have distinct : (sources.map fun source => source.content.name).Nodup := by decide +kernel
  have perm : sources.Perm sources.reverse := (List.reverse_perm sources).symm
  have agree : UnnamedAgree sources := by decide +kernel
  have same := (ofSources_reordered "prev" [] distinct perm).2 agree
  exact ⟨distinct, perm, agree, same.1, (same.2 "run" .info loaded).2⟩

/-! ## The exception -/

/-- A snapshot of nothing but the unnamed package. -/
def unnamed (root : String) (usages : List AnnotationUse) : Snapshot :=
  ⟨root, [], [⟨"", usages, []⟩], []⟩

theorem distinct_unnamed : Text.distinct ["", ""] = [""] := by
  have sorted : Text.sorted ["", ""] = ["", ""] :=
    List.mergeSort_of_pairwise (List.pairwise_pair.mpr (by decide))
  rw [Text.distinct, sorted]
  rfl

theorem ofSources_unnamed (root : String) {first second : Source}
    (firstStands : first.content.isPackageInfo = true)
    (secondStands : second.content.isPackageInfo = true)
    (firstUnnamed : first.content.package = "") (secondUnnamed : second.content.package = "")
    (ascends : Entity.Ascends (first.content.annotations ++ second.content.annotations)) :
    ofSources root [first, second] [] =
      unnamed root (first.content.annotations ++ second.content.annotations) := by
  have noClasses : classesOf [first, second] = [] := by
    simp [classesOf, ordinary, firstStands, secondStands, definitions]
  have bothInfos : packageInfos [first, second] = [first, second] := by
    simp [packageInfos, firstStands, secondStands]
  have noRedefinitions : redefinitions [first, second] = [] := by
    simp [redefinitions, ordinary, firstStands, secondStands, redefinitionsAfter]
  have sorted := Entity.sorted_of_ascends ascends
  have noName : Text.dotted "" = "" := by decide
  simp [ofSources, noClasses, bothInfos, noRedefinitions, packagesOf, firstUnnamed, secondUnnamed,
    distinct_unnamed, package, Package.build, sorted, noName, unnamed]

theorem packages_ofSnapshots_unnamed {usages others : List AnnotationUse}
    (ascends : Entity.Ascends usages) (othersAscend : Entity.Ascends others) :
    (Comparison.ofSnapshots "run" .info (unnamed "prev" usages) (unnamed "next" others)).packages =
      Comparison.nonempty [⟨"", Comparison.retained .info
        (Comparison.ofPackage ⟨"", usages, []⟩ ⟨"", others, []⟩)⟩] := by
  have side : ∀ {root : String} {usages : List AnnotationUse} (failed : List String),
      Entity.Ascends usages →
        Comparison.sidePackage (unnamed root usages) failed "" = ⟨"", usages, []⟩ := by
    intro root usages failed ascends
    have sorted := Entity.sorted_of_ascends ascends
    have noName : Text.dotted "" = "" := by decide
    simp [Comparison.sidePackage, unnamed, package?, Package.build, sorted, noName]
  have names : Comparison.packageNames (unnamed "prev" usages) (unnamed "next" others) = [""] :=
    distinct_unnamed
  change Comparison.nonempty (Comparison.packageGroups .info _ _) = _
  simp only [Comparison.packageGroups, names, List.map_singleton, side _ ascends,
    side _ othersAscend]

/-- Annotations of the unnamed package that differ in the kind of a number only: which of them the
report tells as modified depends on the order of loading. -/
theorem load_order_reported :
    let plain := tagged "package-info" (.leaf (.int 1))
    let odd := tagged ".package-info" (.leaf (.byte 1))
    let next := ofSources "next" [tagged "package-info" (.leaf (.int 2))] []
    let reported (sources : List Source) : List ChangeGroup :=
      (Comparison.ofSnapshots "run" .info (ofSources "prev" sources []) next).packages
    ([plain, odd].map fun source => source.content.name).Nodup ∧ [plain, odd].Perm [odd, plain] ∧
      ofSources "prev" [plain, odd] [] ≠ ofSources "prev" [odd, plain] [] ∧
      reported [plain, odd] =
        [⟨"", [⟨.error, .modified, "annotation.value.modified",
            [.text "Tag", .text "v", .text "int", .text "1", .text "int", .text "2"]⟩,
          ⟨.error, .removed, "package.annotation.removed", [.text "", .text "@Tag"]⟩]⟩] ∧
      reported [odd, plain] =
        [⟨"", [⟨.error, .modified, "annotation.value.modified",
            [.text "Tag", .text "v", .text "byte", .text "1", .text "int", .text "2"]⟩,
          ⟨.error, .removed, "package.annotation.removed", [.text "", .text "@Tag"]⟩]⟩] := by
  intro plain odd next reported
  have ascends : Entity.Ascends (plain.content.annotations ++ odd.content.annotations) := by
    decide +kernel
  have ascendsBack : Entity.Ascends (odd.content.annotations ++ plain.content.annotations) := by
    decide +kernel
  have inOrder : ofSources "prev" [plain, odd] [] = unnamed "prev" _ :=
    ofSources_unnamed "prev" (by decide) (by decide) (by decide) (by decide) ascends
  have reversed : ofSources "prev" [odd, plain] [] = unnamed "prev" _ :=
    ofSources_unnamed "prev" (by decide) (by decide) (by decide) (by decide) ascendsBack
  have nextUnnamed : next = unnamed "next" (tagged "" (.leaf (.int 2))).content.annotations := by
    decide +kernel
  have nextAscends : Entity.Ascends (tagged "" (.leaf (.int 2))).content.annotations := by
    decide +kernel
  refine ⟨by decide +kernel, List.Perm.swap _ _ _, ?_, ?_, ?_⟩
  · rw [inOrder, reversed]
    decide +kernel
  · change (Comparison.ofSnapshots "run" .info (ofSources "prev" [plain, odd] []) next).packages = _
    rw [inOrder, nextUnnamed, packages_ofSnapshots_unnamed ascends nextAscends]
    simp only [Comparison.ofPackage, Comparison.ofEntities, Comparison.ofAnnotations,
      Matching.ofEntities, Matching.of_eq_plain]
    decide +kernel
  · change (Comparison.ofSnapshots "run" .info (ofSources "prev" [odd, plain] []) next).packages = _
    rw [reversed, nextUnnamed, packages_ofSnapshots_unnamed ascendsBack nextAscends]
    simp only [Comparison.ofPackage, Comparison.ofEntities, Comparison.ofAnnotations,
      Matching.ofEntities, Matching.of_eq_plain]
    decide +kernel

end Snapshot

end JvmDiff
