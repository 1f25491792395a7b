import JvmDiff.CommandLine.Run
import JvmDiff.Proofs.Snapshot.Sources
import Mathlib.Data.Finset.Card

/-!
# Reports and the severity that is asked for

A report on the changes from some severity on is the report on all changes without those that are
milder, and the report on all changes tells whatever the comparison finds.  The numbers of a report
are the numbers of what it lists, and whether a run ends with an error does not depend on the
severity that is asked for.

What counts at a severity is said by the list of the milder severities, and not by the ranks that
the comparison goes by.
-/

namespace JvmDiff

/-- The severities that are milder than the given one. -/
def Severity.milder : Severity → List Severity
  | .info => []
  | .warning => [.info]
  | .error => [.info, .warning]

theorem Severity.atLeast_eq (severity least : Severity) :
    severity.atLeast least = decide (severity ∉ least.milder) := by
  cases severity <;> cases least <;> rfl

theorem Severity.error_notMem_milder (severity : Severity) : .error ∉ severity.milder := by
  cases severity <;> decide

namespace Comparison

/-! ## Changes of a severity -/

/-- The changes without those that are milder than a severity. -/
def kept (minSeverity : Severity) (changes : List Change) : List Change :=
  changes.filter fun change => change.severity ∉ minSeverity.milder

/-- The groups without the milder changes; a group with no other changes is gone. -/
def keptGroups (minSeverity : Severity) (groups : List ChangeGroup) : List ChangeGroup :=
  (groups.map fun group => ⟨group.name, kept minSeverity group.changes⟩).filter
    fun group => group.changes ≠ []

theorem retained_eq_kept (minSeverity : Severity) (changes : List Change) :
    retained minSeverity changes = kept minSeverity changes :=
  List.filter_congr fun change _ => change.severity.atLeast_eq minSeverity

theorem keptGroups_eq (minSeverity : Severity) (groups : List ChangeGroup) :
    keptGroups minSeverity groups =
      nonempty (groups.map fun group => ⟨group.name, retained minSeverity group.changes⟩) := by
  simp only [retained_eq_kept]
  refine List.filter_congr fun group _ => ?_
  rw [Bool.eq_iff_iff]
  simp

theorem kept_info (changes : List Change) : kept .info changes = changes :=
  List.filter_eq_self.mpr fun _ _ => decide_eq_true List.not_mem_nil

theorem retained_info (changes : List Change) : retained .info changes = changes :=
  (retained_eq_kept .info changes).trans (kept_info changes)

theorem countP_error_kept (minSeverity : Severity) (changes : List Change) :
    (kept minSeverity changes).countP (fun change => change.severity = .error) =
      changes.countP fun change => change.severity = .error := by
  rw [kept, List.countP_filter]
  refine List.countP_congr fun change _ => ?_
  by_cases isError : change.severity = .error
  · simp [isError, minSeverity.error_notMem_milder]
  · simp [isError]

theorem countOf_add (changes : List Change) :
    countOf .error changes + countOf .warning changes + countOf .info changes =
      changes.length := by
  induction changes with
  | nil => rfl
  | cons change changes inductionHypothesis =>
    simp only [countOf, List.countP_cons, List.length_cons] at inductionHypothesis ⊢
    cases change.severity <;> simp <;> omega

/-! ## Groups -/

theorem flatMap_changes_nonempty (groups : List ChangeGroup) :
    (nonempty groups).flatMap ChangeGroup.changes = groups.flatMap ChangeGroup.changes := by
  apply flatMap_filter_of_silent
  intro group _ empty
  simpa using empty

/-- Groups that are empty from the start are not missed. -/
theorem keptGroups_nonempty (minSeverity : Severity) (groups : List ChangeGroup) :
    keptGroups minSeverity (nonempty groups) = keptGroups minSeverity groups := by
  rw [keptGroups_eq, keptGroups_eq, nonempty, nonempty, nonempty, List.filter_map,
    List.filter_map, List.filter_filter]
  congr 1
  refine List.filter_congr fun group _ => ?_
  by_cases empty : group.changes = []
  · simp [empty, retained]
  · simp [empty]

theorem ne_nil_of_mem_nonempty {groups : List ChangeGroup} {group : ChangeGroup}
    (member : group ∈ nonempty groups) : group.changes ≠ [] := by
  simpa using (List.mem_filter.mp member).2

section Snapshots

variable (minSeverity : Severity) (previous next : Snapshot)

theorem nonempty_packageGroups :
    nonempty (packageGroups minSeverity previous next) =
      keptGroups minSeverity (nonempty (packageGroups .info previous next)) := by
  rw [keptGroups_nonempty, keptGroups_eq, packageGroups, packageGroups, List.map_map]
  simp only [Function.comp_def, retained_info]

theorem nonempty_classGroups :
    nonempty (classGroups minSeverity previous next) =
      keptGroups minSeverity (nonempty (classGroups .info previous next)) := by
  rw [keptGroups_nonempty, keptGroups_eq, classGroups, classGroups, List.map_map]
  simp only [Function.comp_def, retained_info]

theorem pairwise_packageNames :
    (packageNames previous next).Pairwise fun first second => first < second :=
  Text.pairwise_distinct _

theorem pairwise_packageGroups :
    (packageGroups minSeverity previous next).Pairwise fun first second =>
      first.name < second.name := by
  rw [packageGroups, List.pairwise_map]
  exact pairwise_packageNames previous next

variable {previous} in
theorem pairwise_classGroups
    (ascends : previous.classes.Pairwise fun first second => first.name < second.name) :
    (classGroups minSeverity previous next).Pairwise fun first second =>
      first.name < second.name := by
  rw [classGroups, List.pairwise_map, comparedClasses]
  refine (ascends.sublist List.filter_sublist).filterMap _ ?_
  intro first second less firstPair firstFound secondPair secondFound
  obtain ⟨_, _, rfl⟩ := Option.map_eq_some_iff.mp firstFound
  obtain ⟨_, _, rfl⟩ := Option.map_eq_some_iff.mp secondFound
  exact less

end Snapshots

end Comparison

/-- The names of the classes that a snapshot holds. -/
def Snapshot.classNames (snapshot : Snapshot) : Finset String :=
  (snapshot.classes.map Class.name).toFinset

/-- The names of the classes that failed to load. -/
def Snapshot.failedClassNames (snapshot : Snapshot) : Finset String :=
  (snapshot.failures.map LoadFailure.className).toFinset

theorem Snapshot.isSome_class?_iff (snapshot : Snapshot) (name : String) :
    (snapshot.class? name).isSome = true ↔ name ∈ snapshot.classNames := by
  simp [class?, classNames]

namespace Comparison

theorem mem_failedNames_iff {previous next : Snapshot} {name : String} :
    name ∈ failedNames previous next ↔
      name ∈ previous.failedClassNames ∪ next.failedClassNames := by
  simp only [failedNames, Snapshot.failedNames, List.mem_append, Text.mem_distinct,
    Finset.mem_union, Snapshot.failedClassNames, List.mem_toFinset]

theorem length_comparedClasses {previous next : Snapshot}
    (distinct : (previous.classes.map Class.name).Nodup) :
    (comparedClasses previous next).length =
      ((previous.classNames ∩ next.classNames) \
        (previous.failedClassNames ∪ next.failedClassNames)).card := by
  have counted : (comparedClasses previous next).length =
      ((previous.classes.map Class.name).filter fun name =>
        !(failedNames previous next).contains name && (next.class? name).isSome).length := by
    rw [comparedClasses, List.length_filterMap_eq_countP, List.countP_filter,
      List.countP_eq_length_filter, List.filter_map, List.length_map]
    congr 2
    funext c
    simp [Bool.and_comm]
  rw [counted, ← List.toFinset_card_of_nodup (distinct.filter _)]
  congr 1
  ext name
  simp only [List.mem_toFinset, List.mem_filter, Bool.and_eq_true, Bool.not_eq_true',
    Finset.mem_sdiff, Finset.mem_inter, Snapshot.isSome_class?_iff, List.contains_eq_mem,
    decide_eq_false_iff_not, mem_failedNames_iff, Snapshot.classNames, and_assoc]
  exact and_congr_right fun _ => and_comm

end Comparison

/-! ## Reports -/

namespace Report

open Comparison

/-- The report without the changes that are milder than a severity: groups that they
leave empty are gone, and the changes are counted anew. -/
def keeping (minSeverity : Severity) (report : Report) : Report :=
  let packages := keptGroups minSeverity report.packages
  let classes := keptGroups minSeverity report.classes
  let changes := packages.flatMap ChangeGroup.changes ++ classes.flatMap ChangeGroup.changes
  { report with
    minSeverity := minSeverity
    packages := packages
    classes := classes
    summary :=
      { report.summary with
        errors := changes.countP fun change => change.severity = .error
        warnings := changes.countP fun change => change.severity = .warning
        infos := changes.countP fun change => change.severity = .info } }

/-- The lists of a report are in order and tell no change that is too mild, its failures
are those of the two snapshots, and its numbers count what there is. -/
structure Consistent (previous next : Snapshot) (report : Report) : Prop where
  noMilder : ∀ change ∈ report.changes, change.severity ∉ report.minSeverity.milder
  packagesNonempty : ∀ group ∈ report.packages, group.changes ≠ []
  packagesAscend : report.packages.Pairwise fun first second => first.name < second.name
  classesNonempty : ∀ group ∈ report.classes, group.changes ≠ []
  classesAscend : report.classes.Pairwise fun first second => first.name < second.name
  errors : report.summary.errors = report.changes.countP fun change => change.severity = .error
  warnings : report.summary.warnings =
    report.changes.countP fun change => change.severity = .warning
  infos : report.summary.infos = report.changes.countP fun change => change.severity = .info
  changeCount : report.changeCount = report.changes.length
  failures : report.failures =
    previous.failures.map (SidedFailure.mk .previous) ++ next.failures.map (SidedFailure.mk .next)
  failureCount : report.summary.failures = report.failures.length
  /-- The names that are loaded on both sides and failed on neither. -/
  classesCompared : report.summary.classesCompared =
    ((previous.classNames ∩ next.classNames) \
      (previous.failedClassNames ∪ next.failedClassNames)).card

theorem Consistent.hasErrors_iff {previous next : Snapshot} {report : Report}
    (consistent : report.Consistent previous next) :
    report.hasErrors = true ↔
      (∃ change ∈ report.changes, change.severity = .error) ∨ report.failures ≠ [] := by
  rw [hasErrors, consistent.errors]
  simp [List.countP_pos_iff]

end Report

namespace Comparison

/-- What the comparison finds in the packages of either snapshot and in the classes that
are compared. -/
def found (previous next : Snapshot) : List Change :=
  ((packageNames previous next).flatMap fun name =>
      ofPackage (sidePackage previous (failedNames previous next) name)
        (sidePackage next (failedNames previous next) name)) ++
    (comparedClasses previous next).flatMap fun pair => ofClass pair.1 pair.2

section Snapshots

variable (runId fullRunId : String) (minSeverity : Severity) (previous next : Snapshot)

theorem ofSnapshots_eq_keeping :
    ofSnapshots runId minSeverity previous next =
      { (ofSnapshots fullRunId .info previous next).keeping minSeverity with runId := runId } := by
  simp only [ofSnapshots, Report.keeping, countOf, ← nonempty_packageGroups minSeverity,
    ← nonempty_classGroups minSeverity]

theorem changes_ofSnapshots :
    (ofSnapshots runId minSeverity previous next).changes =
      kept minSeverity (found previous next) := by
  change (nonempty (packageGroups minSeverity previous next)).flatMap ChangeGroup.changes ++
    (nonempty (classGroups minSeverity previous next)).flatMap ChangeGroup.changes = _
  rw [flatMap_changes_nonempty, flatMap_changes_nonempty, packageGroups, classGroups,
    List.flatMap_map, List.flatMap_map, found, kept, List.filter_append, List.filter_flatMap,
    List.filter_flatMap]
  simp only [retained_eq_kept, kept]

variable {previous next} in
theorem consistent_ofSnapshots
    (ascends : previous.classes.Pairwise fun first second => first.name < second.name) :
    (ofSnapshots runId minSeverity previous next).Consistent previous next where
  noMilder change member := by
    rw [changes_ofSnapshots] at member
    exact of_decide_eq_true (List.mem_filter.mp member).2
  packagesNonempty _ member := ne_nil_of_mem_nonempty member
  packagesAscend := (pairwise_packageGroups minSeverity previous next).sublist List.filter_sublist
  classesNonempty _ member := ne_nil_of_mem_nonempty member
  classesAscend := (pairwise_classGroups minSeverity next ascends).sublist List.filter_sublist
  errors := rfl
  warnings := rfl
  infos := rfl
  changeCount := countOf_add _
  failures := rfl
  failureCount := rfl
  classesCompared := by
    apply length_comparedClasses
    refine List.pairwise_map.mpr (ascends.imp fun less same => ?_)
    exact String.lt_irrefl _ (same ▸ less)

/-- Asking for more severe changes does not hide an error. -/
theorem hasErrors_ofSnapshots :
    (ofSnapshots runId minSeverity previous next).hasErrors =
      (ofSnapshots fullRunId .info previous next).hasErrors := by
  have sameCount : countOf .error (ofSnapshots runId minSeverity previous next).changes =
      countOf .error (ofSnapshots fullRunId .info previous next).changes := by
    rw [countOf, countOf, changes_ofSnapshots, changes_ofSnapshots, countP_error_kept,
      countP_error_kept]
  exact congrArg (fun count => decide (0 < count) || _) sameCount

end Snapshots

/-- The report on the changes from some severity on is the report on all changes
without the milder ones, so it tells what the comparison finds of this severity or a
higher one, and nothing else.  It is consistent, and whether it has errors, and with
them the exit code of a run, is the same for every severity: it has them if some
change at all is an error or some class failed to load. -/
theorem ofSnapshots_keeps_verdict (runId fullRunId : String) (minSeverity : Severity)
    (previous next : Loading) :
    let report := ofSnapshots runId minSeverity previous.snapshot next.snapshot
    let full := ofSnapshots fullRunId .info previous.snapshot next.snapshot
    report = { full.keeping minSeverity with runId := runId } ∧
      report.changes = kept minSeverity (found previous.snapshot next.snapshot) ∧
      report.Consistent previous.snapshot next.snapshot ∧
      report.hasErrors = full.hasErrors ∧
      (∀ format, (Outcome.reported format report).exitCode =
        (Outcome.reported format full).exitCode) ∧
      (report.hasErrors = true ↔
        (∃ change ∈ full.changes, change.severity = .error) ∨ report.failures ≠ []) := by
  intro report full
  have ascends := Snapshot.pairwise_classesOf previous.sources
  have sameVerdict : report.hasErrors = full.hasErrors :=
    hasErrors_ofSnapshots runId fullRunId minSeverity previous.snapshot next.snapshot
  refine ⟨ofSnapshots_eq_keeping runId fullRunId minSeverity previous.snapshot next.snapshot,
    changes_ofSnapshots runId minSeverity previous.snapshot next.snapshot,
    consistent_ofSnapshots runId minSeverity ascends, sameVerdict, ?_, ?_⟩
  · intro format
    rw [Outcome.reported, Outcome.reported, sameVerdict]
  · rw [sameVerdict]
    exact (consistent_ofSnapshots fullRunId .info ascends).hasErrors_iff

end Comparison

end JvmDiff
