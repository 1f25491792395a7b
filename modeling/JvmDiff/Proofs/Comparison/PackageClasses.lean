import JvmDiff.Proofs.Comparison.Oversights
import JvmDiff.Proofs.Comparison.Reports
import JvmDiff.Proofs.Comparison.Vocabulary
import JvmDiff.Proofs.Matching.Symmetry

/-!
# Classes that come and go

A class that only one of two snapshots holds is told exactly once, by the package that it belongs
to.  On its way there it passes through the entries of its package, the removal of the classes
that failed, the union of the package names and the matching of the entries; the lemmas follow it
by its name.
-/

namespace JvmDiff

/-- The name of a class that is not declared inside another one and does not stand
for a package. -/
def Text.IsOuter (name : String) : Prop :=
  '$' ∉ (afterLastDot name).toList ∧ afterLastDot name ≠ "package-info"

/-! ## The classes that a package lists -/

namespace Loaded

open Snapshot

/-- The names of the classes that are not declared inside others and did not
fail. -/
def listed (failed : List String) (loaded : Loaded) : List String :=
  ((outer loaded.sources).map Class.name).filter fun name => !failed.contains name

variable {loaded : Loaded} {failed : List String} {name : String}

theorem nodup_listed : (loaded.listed failed).Nodup :=
  ((nodup_names_classesOf loaded.sources).sublist (List.filter_sublist.map Class.name)).sublist
    List.filter_sublist

theorem mem_listed_iff :
    name ∈ loaded.listed failed ↔
      name ∈ loaded.snapshot.classNames ∧ Text.IsOuter name ∧ name ∉ failed := by
  simp only [listed, List.mem_filter, List.mem_map, Snapshot.classNames, List.mem_toFinset]
  constructor
  · rintro ⟨⟨c, cOuter, rfl⟩, notFailed⟩
    obtain ⟨cMember, notNested⟩ := List.mem_filter.mp cOuter
    obtain ⟨_, _, notInfo, rfl⟩ := exists_source_of_mem_classesOf cMember
    refine ⟨⟨_, cMember, rfl⟩, ⟨?_, of_decide_eq_false notInfo⟩, by simpa using notFailed⟩
    simpa [Class.isNested] using notNested
  · rintro ⟨⟨c, cMember, rfl⟩, ⟨notNested, _⟩, notFailed⟩
    refine ⟨⟨c, List.mem_filter.mpr ⟨cMember, ?_⟩, rfl⟩, by simpa using notFailed⟩
    simpa [Class.isNested] using notNested

/-- A package lists the classes that belong to it. -/
theorem names_sidePackage_perm (loaded : Loaded) (failed : List String) (package : String) :
    ((Comparison.sidePackage loaded.snapshot failed package).classes.map Entity.name).Perm
      ((loaded.listed failed).filter fun name => Text.beforeLastDot name = package) := by
  rw [sidePackage_snapshot]
  apply ((Entity.sorted_perm _).map Entity.name).trans
  apply List.Perm.of_eq
  rw [listed, List.filter_map, List.filter_map, List.map_map]
  refine List.map_congr_left fun c member => ?_
  have cOuter := (List.mem_filter.mp (List.mem_filter.mp member).1).1
  exact Text.dotted_eq_self (loaded.isDotted_of_mem_classesOf (List.mem_filter.mp cOuter).1)

theorem mem_names_sidePackage_iff {package : String} :
    name ∈ (Comparison.sidePackage loaded.snapshot failed package).classes.map Entity.name ↔
      name ∈ loaded.listed failed ∧ Text.beforeLastDot name = package := by
  rw [(names_sidePackage_perm loaded failed package).mem_iff, List.mem_filter,
    decide_eq_true_eq]

theorem nodup_names_sidePackage (loaded : Loaded) (failed : List String) (package : String) :
    ((Comparison.sidePackage loaded.snapshot failed package).classes.map Entity.name).Nodup :=
  (names_sidePackage_perm loaded failed package).nodup_iff.mpr (nodup_listed.filter _)

theorem package_mem_of_mem_listed (member : name ∈ loaded.listed failed) :
    Text.beforeLastDot name ∈ packageNamesOf loaded.sources := by
  obtain ⟨c, cOuter, rfl⟩ := List.mem_map.mp (List.mem_filter.mp member).1
  exact mem_packageNamesOf_iff.mpr (Or.inl ⟨c, cOuter, rfl⟩)

theorem name_sidePackage (loaded : Loaded) (failed : List String) {package : String}
    (packageDotted : Text.IsDotted package) :
    (Comparison.sidePackage loaded.snapshot failed package).name = package := by
  rw [sidePackage_snapshot, name_package packageDotted]

end Loaded

namespace Comparison

/-! ## The records of a package about its classes -/

/-- The record that a class is gone from its package. -/
def gone (package name : String) : Change :=
  ⟨.error, .removed, "package.class.removed", [.text package, .text name]⟩

/-- The record that a class is new in its package. -/
def new (package name : String) : Change :=
  ⟨.info, .added, "package.class.added", [.text package, .text name]⟩

end Comparison

/-- The key begins as those of the records about classes in packages do. -/
def Change.isOfPackageClass (change : Change) : Bool :=
  "package.class.".toList.isPrefixOf change.key.toList

/-- The change names the part as its second argument. -/
def Change.isAbout (name : String) (change : Change) : Bool :=
  change.arguments[1]? = some (.text name)

namespace Comparison

/-- The records that are due for a class, from whether the earlier and the later
version have it. -/
def due (package name : String) : Bool → Bool → List Change
  | true, false => [gone package name]
  | false, true => [new package name]
  | _, _ => []

theorem isAbout_gone (package name wanted : String) :
    (gone package name).isAbout wanted = decide (name = wanted) := by
  simp [Change.isAbout, gone]

theorem isAbout_new (package name wanted : String) :
    (new package name).isAbout wanted = decide (name = wanted) := by
  simp [Change.isAbout, new]

theorem isAbout_of_mem_due {package name wanted : String} {inPrevious inNext : Bool}
    {change : Change} (member : change ∈ due package name inPrevious inNext) :
    change.isAbout wanted = decide (name = wanted) := by
  match inPrevious, inNext with
  | true, false =>
    rw [List.mem_singleton.mp member, isAbout_gone]
  | false, true =>
    rw [List.mem_singleton.mp member, isAbout_new]
  | true, true | false, false => exact absurd member List.not_mem_nil

/-- The records on the classes that only one of two lists of entries has. -/
def classRecords (package : String) (previous next : List InnerClass) : List Change :=
  ((Matching.ofEntities previous next).removed.map Entity.name).map (gone package) ++
    ((Matching.ofEntities previous next).added.map Entity.name).map (new package)

theorem ofEntities_packageClasses (package : String) (previous next : List InnerClass) :
    ofEntities Topic.packageClasses package (fun _ _ => []) previous next =
      classRecords package previous next := by
  have unmatched : ∀ pairs : List (InnerClass × InnerClass),
      (pairs.flatMap fun _ => ([] : List Change)) = [] :=
    fun pairs => List.flatMap_eq_nil_iff.mpr fun _ _ => rfl
  rw [ofEntities, ofMatching, unmatched, List.nil_append, classRecords, List.map_map, List.map_map]
  rfl

theorem isOfPackageClass_of_mem_classRecords {package : String} {previous next : List InnerClass}
    {change : Change} (member : change ∈ classRecords package previous next) :
    change.isOfPackageClass = true := by
  have removedKey : "package.class.".toList.isPrefixOf "package.class.removed".toList = true := by
    decide
  have addedKey : "package.class.".toList.isPrefixOf "package.class.added".toList = true := by
    decide
  rcases List.mem_append.mp member with removed | added
  · obtain ⟨name, _, rfl⟩ := List.mem_map.mp removed
    exact removedKey
  · obtain ⟨name, _, rfl⟩ := List.mem_map.mp added
    exact addedKey

theorem filter_isOfPackageClass_of_told {parts : List PartTopics} {changes : List Change}
    (others : ∀ topic ∈ topicsOf parts,
      "package.class.".toList.isPrefixOf topic.key.toList = false)
    (told : AllTold parts changes) : changes.filter Change.isOfPackageClass = [] := by
  apply List.filter_eq_nil_iff.mpr
  intro change member
  obtain ⟨topic, isTopic, key⟩ := (told change member).exists_topic
  rw [Change.isOfPackageClass, key, others topic isTopic]
  exact Bool.false_ne_true

theorem filter_ofClass (previous next : Class) :
    (ofClass previous next).filter Change.isOfPackageClass = [] :=
  filter_isOfPackageClass_of_told (by decide +kernel) (allTold_ofClass previous next)

theorem filter_ofAnnotations_package (owner : String) (previous next : List AnnotationUse) :
    (ofAnnotations Topic.packageAnnotations owner previous next).filter Change.isOfPackageClass =
      [] := by
  have told : AllTold [Topic.packageAnnotations, Topic.annotationValues]
      (ofAnnotations Topic.packageAnnotations owner previous next) :=
    allTold_ofAnnotations (by decide) (by decide) owner previous next
  exact filter_isOfPackageClass_of_told (by decide +kernel) told

/-- Digests tell the classes of two packages apart: packages with one digest list
the same classes, and entries with one digest have one name. -/
structure ToldApart (previous next : Package) : Prop where
  packages : Entity.hash previous = Entity.hash next → previous.classes = next.classes
  entries : ∀ first ∈ previous.classes, ∀ second ∈ next.classes,
    Entity.hash first = Entity.hash second → Entity.name first = Entity.name second

instance (previous next : Package) : Decidable (ToldApart previous next) :=
  decidable_of_iff
    ((Entity.hash previous = Entity.hash next → previous.classes = next.classes) ∧
      ∀ first ∈ previous.classes, ∀ second ∈ next.classes,
        Entity.hash first = Entity.hash second → Entity.name first = Entity.name second)
    ⟨fun ⟨packages, entries⟩ => ⟨packages, entries⟩,
      fun told => ⟨told.packages, told.entries⟩⟩

section Packages

variable {previous next : Package}

theorem filter_ofPackage (told : ToldApart previous next) :
    (ofPackage previous next).filter Change.isOfPackageClass =
      classRecords previous.name previous.classes next.classes := by
  rw [ofPackage, unlessSame]
  split
  case isTrue same =>
    rw [told.packages same, ← ofEntities_packageClasses, ofEntities_of_perm (List.Perm.refl _)]
    rfl
  case isFalse =>
    rw [List.filter_append, filter_ofAnnotations_package, List.nil_append,
      ofEntities_packageClasses]
    exact List.filter_eq_self.mpr fun _ => isOfPackageClass_of_mem_classRecords

theorem filter_isAbout_map {names : List String} (distinct : names.Nodup)
    {record : String → Change} {wanted : String}
    (about : ∀ name, (record name).isAbout wanted = decide (name = wanted)) :
    (names.map record).filter (Change.isAbout wanted) =
      if wanted ∈ names then [record wanted] else [] := by
  have found : names.filter (fun name => decide (name = wanted)) =
      if wanted ∈ names then [wanted] else [] := by
    rw [List.filter_eq, distinct.count]
    split <;> rfl
  have same : Change.isAbout wanted ∘ record = fun name => decide (name = wanted) :=
    funext about
  rw [List.filter_map, same, found]
  split <;> rfl

variable (told : ToldApart previous next)
  (previousDistinct : (previous.classes.map Entity.name).Nodup)
  (nextDistinct : (next.classes.map Entity.name).Nodup)

include told previousDistinct nextDistinct

theorem filter_isAbout_classRecords (package wanted : String) :
    (classRecords package previous.classes next.classes).filter (Change.isAbout wanted) =
      due package wanted (decide (wanted ∈ previous.classes.map Entity.name))
        (decide (wanted ∈ next.classes.map Entity.name)) := by
  rw [classRecords, Matching.ofEntities, List.filter_append,
    filter_isAbout_map (Matching.nodup_names_removed previousDistinct) fun name =>
      isAbout_gone package name wanted,
    filter_isAbout_map (Matching.nodup_names_added nextDistinct) fun name =>
      isAbout_new package name wanted]
  simp only [Matching.mem_names_removed previousDistinct told.entries,
    Matching.mem_names_added nextDistinct told.entries]
  by_cases inPrevious : wanted ∈ previous.classes.map Entity.name <;>
    by_cases inNext : wanted ∈ next.classes.map Entity.name <;>
      simp [inPrevious, inNext, due]

/-- Every record is on a name that one of the sides has. -/
theorem exists_of_mem_classRecords {package : String} {change : Change}
    (member : change ∈ classRecords package previous.classes next.classes) :
    ∃ name ∈ previous.classes.map Entity.name ++ next.classes.map Entity.name,
      change ∈ due package name (decide (name ∈ previous.classes.map Entity.name))
        (decide (name ∈ next.classes.map Entity.name)) := by
  obtain ⟨name, about, isName⟩ : ∃ name, change.isAbout name = true ∧
      name ∈ previous.classes.map Entity.name ++ next.classes.map Entity.name := by
    rcases List.mem_append.mp member with removed | added
    · obtain ⟨name, isRemoved, rfl⟩ := List.mem_map.mp removed
      refine ⟨name, (isAbout_gone _ _ _).trans (decide_eq_true rfl), List.mem_append_left _ ?_⟩
      exact ((Matching.mem_names_removed previousDistinct told.entries).mp isRemoved).1
    · obtain ⟨name, isAdded, rfl⟩ := List.mem_map.mp added
      refine ⟨name, (isAbout_new _ _ _).trans (decide_eq_true rfl), List.mem_append_right _ ?_⟩
      exact ((Matching.mem_names_added nextDistinct told.entries).mp isAdded).1
  refine ⟨name, isName, ?_⟩
  rw [← filter_isAbout_classRecords told previousDistinct nextDistinct]
  exact List.mem_filter.mpr ⟨member, about⟩

end Packages

/-! ## Reports -/

theorem flatMap_ite_eq {names : List String} (distinct : names.Nodup) (wanted : String)
    (records : List Change) :
    (names.flatMap fun name => if wanted = name then records else []) =
      if wanted ∈ names then records else [] := by
  induction names with
  | nil => rfl
  | cons name names inductionHypothesis =>
    obtain ⟨notAgain, distinct⟩ := List.nodup_cons.mp distinct
    rw [List.flatMap_cons, inductionHypothesis distinct]
    by_cases same : wanted = name
    · subst same
      simp [notAgain]
    · simp [same]

theorem filter_changes_ofSnapshots (runId : String) (previous next : Snapshot) :
    (ofSnapshots runId .info previous next).changes.filter Change.isOfPackageClass =
      (packageNames previous next).flatMap fun package =>
        (ofPackage (sidePackage previous (failedNames previous next) package)
          (sidePackage next (failedNames previous next) package)).filter
            Change.isOfPackageClass := by
  have classes : ((comparedClasses previous next).flatMap fun pair =>
      ofClass pair.1 pair.2).filter Change.isOfPackageClass = [] := by
    simp only [List.filter_flatMap, filter_ofClass]
    exact List.flatMap_eq_nil_iff.mpr fun _ _ => rfl
  rw [changes_ofSnapshots, kept_info, found, List.filter_append, classes, List.append_nil,
    List.filter_flatMap]

/-- The records that are due for a class of two snapshots. -/
def dueFor (previous next : Snapshot) (name : String) : List Change :=
  due (Text.beforeLastDot name) name (decide (name ∈ previous.classNames))
    (decide (name ∈ next.classNames))

/-- The report tells exactly once that a class is gone or new, in the group of the
package of the class, and no other records have such keys.  Classes that failed on
either side are left out. -/
structure TellsClasses (previous next : Snapshot) (report : Report) : Prop where
  once : ∀ name, Text.IsOuter name → name ∉ failedNames previous next →
    (report.changes.filter Change.isOfPackageClass).filter (Change.isAbout name) =
      dueFor previous next name
  placed : ∀ name, Text.IsOuter name → name ∉ failedNames previous next →
    ∀ change ∈ dueFor previous next name,
      ∃ group ∈ report.packages, group.name = Text.beforeLastDot name ∧ change ∈ group.changes
  only : ∀ change ∈ report.changes, change.isOfPackageClass = true →
    ∃ name, Text.IsOuter name ∧ name ∉ failedNames previous next ∧
      change ∈ dueFor previous next name

section Loaded

variable {previous next : Loaded}

/-- What is due for the entries of a package is due for the classes, and nothing is
due for classes of other packages. -/
theorem due_sidePackage {package name : String} (isOuter : Text.IsOuter name)
    (notFailed : name ∉ failedOf previous next) :
    due package name
        (decide (name ∈ (sidePackage previous.snapshot (failedOf previous next) package).classes.map
          Entity.name))
        (decide (name ∈ (sidePackage next.snapshot (failedOf previous next) package).classes.map
          Entity.name)) =
      if Text.beforeLastDot name = package then dueFor previous.snapshot next.snapshot name
      else [] := by
  simp only [Loaded.mem_names_sidePackage_iff, Loaded.mem_listed_iff, isOuter, notFailed,
    not_false_eq_true, and_true]
  by_cases same : Text.beforeLastDot name = package
  · subst same
    simp only [and_true, if_true, dueFor]
  · simp [same, due]

/-- Nothing is due for a class of a package that neither side has. -/
theorem dueFor_eq_nil {name : String} (isOuter : Text.IsOuter name)
    (notFailed : name ∉ failedOf previous next)
    (notThere : Text.beforeLastDot name ∉ packageNames previous.snapshot next.snapshot) :
    dueFor previous.snapshot next.snapshot name = [] := by
  rw [Loaded.mem_packageNames_iff, not_or] at notThere
  have absent : ∀ {loaded : Loaded},
      Text.beforeLastDot name ∉ Snapshot.packageNamesOf loaded.sources →
        name ∉ loaded.snapshot.classNames := by
    intro loaded noPackage member
    exact noPackage
      (Loaded.package_mem_of_mem_listed (Loaded.mem_listed_iff.mpr ⟨member, isOuter, notFailed⟩))
  simp [dueFor, due, absent notThere.1, absent notThere.2]

variable (told : ∀ package ∈ packageNames previous.snapshot next.snapshot,
  ToldApart (sidePackage previous.snapshot (failedOf previous next) package)
    (sidePackage next.snapshot (failedOf previous next) package))

include told

theorem filter_ofPackage_sidePackage {package : String}
    (member : package ∈ packageNames previous.snapshot next.snapshot) :
    (ofPackage (sidePackage previous.snapshot (failedOf previous next) package)
        (sidePackage next.snapshot (failedOf previous next) package)).filter
          Change.isOfPackageClass =
      classRecords package (sidePackage previous.snapshot (failedOf previous next) package).classes
        (sidePackage next.snapshot (failedOf previous next) package).classes := by
  have isDotted : Text.IsDotted package := by
    rcases Loaded.mem_packageNames_iff.mp member with inPrevious | inNext
    · exact previous.isDotted_of_mem_packageNamesOf inPrevious
    · exact next.isDotted_of_mem_packageNamesOf inNext
  rw [filter_ofPackage (told package member), previous.name_sidePackage _ isDotted]

theorem filter_isAbout_changes (runId : String) {name : String} (isOuter : Text.IsOuter name)
    (notFailed : name ∉ failedOf previous next) :
    ((ofSnapshots runId .info previous.snapshot next.snapshot).changes.filter
        Change.isOfPackageClass).filter (Change.isAbout name) =
      dueFor previous.snapshot next.snapshot name := by
  have perPackage : ∀ package ∈ packageNames previous.snapshot next.snapshot,
      ((ofPackage (sidePackage previous.snapshot (failedOf previous next) package)
        (sidePackage next.snapshot (failedOf previous next) package)).filter
          Change.isOfPackageClass).filter (Change.isAbout name) =
        if Text.beforeLastDot name = package then dueFor previous.snapshot next.snapshot name
        else [] := by
    intro package member
    rw [filter_ofPackage_sidePackage told member,
      filter_isAbout_classRecords (told package member)
        (previous.nodup_names_sidePackage _ package) (next.nodup_names_sidePackage _ package),
      due_sidePackage isOuter notFailed]
  have distinct : (packageNames previous.snapshot next.snapshot).Nodup := by
    refine (pairwise_packageNames previous.snapshot next.snapshot).imp ?_
    rintro first _ less rfl
    exact String.lt_irrefl first less
  rw [filter_changes_ofSnapshots, List.filter_flatMap, ← failedOf, List.flatMap_congr perPackage,
    flatMap_ite_eq distinct]
  split
  case isTrue => rfl
  case isFalse notThere =>
    exact (dueFor_eq_nil isOuter notFailed notThere).symm

/-- Every record with such a key is due for some class and stands in the group of
its package. -/
theorem exists_class_of_mem_changes (runId : String) {change : Change}
    (member : change ∈ (ofSnapshots runId .info previous.snapshot next.snapshot).changes)
    (isRecord : change.isOfPackageClass = true) :
    ∃ name, Text.IsOuter name ∧ name ∉ failedOf previous next ∧
      change ∈ dueFor previous.snapshot next.snapshot name ∧
      ∃ group ∈ (ofSnapshots runId .info previous.snapshot next.snapshot).packages,
        group.name = Text.beforeLastDot name ∧ change ∈ group.changes := by
  have inPackages := List.mem_filter.mpr ⟨member, isRecord⟩
  rw [filter_changes_ofSnapshots, ← failedOf] at inPackages
  obtain ⟨package, packageMember, inPackage⟩ := List.mem_flatMap.mp inPackages
  have inChanges := (List.mem_filter.mp inPackage).1
  rw [filter_ofPackage_sidePackage told packageMember] at inPackage
  obtain ⟨name, isName, isDue⟩ := exists_of_mem_classRecords (told package packageMember)
    (previous.nodup_names_sidePackage _ package) (next.nodup_names_sidePackage _ package) inPackage
  obtain ⟨isOuter, notFailed, samePackage⟩ : Text.IsOuter name ∧ name ∉ failedOf previous next ∧
      Text.beforeLastDot name = package := by
    rw [List.mem_append, Loaded.mem_names_sidePackage_iff, Loaded.mem_names_sidePackage_iff,
      Loaded.mem_listed_iff, Loaded.mem_listed_iff] at isName
    rcases isName with ⟨⟨_, isOuter, notFailed⟩, samePackage⟩ | ⟨⟨_, isOuter, notFailed⟩, samePackage⟩
    · exact ⟨isOuter, notFailed, samePackage⟩
    · exact ⟨isOuter, notFailed, samePackage⟩
  rw [due_sidePackage isOuter notFailed, if_pos samePackage] at isDue
  refine ⟨name, isOuter, notFailed, isDue, ⟨package, retained .info (ofPackage
    (sidePackage previous.snapshot (failedOf previous next) package)
    (sidePackage next.snapshot (failedOf previous next) package))⟩, ?_, samePackage.symm, ?_⟩
  · refine List.mem_filter.mpr ⟨List.mem_map.mpr ⟨package, packageMember, rfl⟩, ?_⟩
    rw [retained_info]
    simpa using List.ne_nil_of_mem inChanges
  · rwa [retained_info]

end Loaded

end Comparison

end JvmDiff
