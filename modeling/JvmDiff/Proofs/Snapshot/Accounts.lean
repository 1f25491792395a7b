import JvmDiff.Proofs.ClassFile.Outcome
import JvmDiff.Proofs.Snapshot.Fates
import JvmDiff.Proofs.Snapshot.Index

/-!
# Snapshots account for the class files

A snapshot that is loaded holds what comes of the fates of the class files, and nothing else: no
file is lost and none counts twice.
-/

namespace JvmDiff

/-! ## Snapshots by fates -/

namespace Snapshot

/-- The snapshot holds what comes of the fates, and nothing else. -/
structure Comprises (snapshot : Snapshot) (fates : List Fate) : Prop where
  classes : snapshot.classes.Perm (fates.filterMap Fate.kept?)
  classNames : (snapshot.classes.map Class.name).Nodup
  failures : snapshot.failures = fates.filterMap Fate.unread? ++ fates.filterMap Fate.redeclared?
  packageNames : (snapshot.packages.map Package.name).Nodup
  /-- There is a package for each class that is not declared inside another one, and for each class
  that stands for a package. -/
  packages : ∀ name, name ∈ snapshot.packages.map Package.name ↔
    (∃ c ∈ snapshot.classes, c.isNested = false ∧ c.package = name) ∨
      ∃ info ∈ fates.filterMap Fate.packageInfo?, info.package = name
  annotations : ∀ package ∈ snapshot.packages, package.annotations.Perm
    (((fates.filterMap Fate.packageInfo?).filter fun info => info.package = package.name).flatMap
      Class.annotations)
  entries : ∀ package ∈ snapshot.packages, package.classes.Perm
    ((snapshot.classes.filter fun c => !c.isNested && c.package = package.name).map entry)

/-- The snapshot has what a fate asks for. -/
def Has (snapshot : Snapshot) : Fate → Prop
  | .kept c => snapshot.class? c.name = some c
  | .packageInfo info =>
      ∃ package, snapshot.package? info.package = some package ∧
        info.annotations ⊆ package.annotations
  | .unread failure | .redeclared failure => failure ∈ snapshot.failures

theorem nodup_packageNamesOf (sources : List Source) : (packageNamesOf sources).Nodup := by
  refine (Text.pairwise_distinct _).imp ?_
  rintro first _ less rfl
  exact String.lt_irrefl first less

theorem comprises_ofEntries (root : String) (filter : ClassFilter)
    (found : List ClassFileEntry) :
    (Loading.ofEntries root filter found).snapshot.Comprises
      (ClassFileEntry.fatesAfter root [] (Loading.candidates filter found)) := by
  let loaded := Loaded.ofEntries root filter found
  have tally := tally_fates root (Loading.candidates filter found)
  change loaded.snapshot.Comprises _
  constructor
  case classes =>
    rw [← tally.kept]
    exact classesOf_perm loaded.sources
  case classNames => exact nodup_names_classesOf loaded.sources
  case failures =>
    rw [← tally.unread, ← tally.redeclared]
    rfl
  case packageNames => rw [loaded.map_name_packages]; exact nodup_packageNamesOf _
  case packages =>
    intro name
    rw [loaded.map_name_packages, mem_packageNamesOf_iff, ← tally.packageInfos]
    simp only [outer, List.mem_filter, Bool.not_eq_true', and_assoc]
    rfl
  case annotations =>
    intro made member
    rw [← tally.packageInfos]
    exact Loaded.annotations_perm member
  case entries =>
    intro made member
    have classes := congrArg Package.classes (Loaded.eq_package_of_mem_packages member)
    rw [classes]
    apply (Entity.sorted_perm _).trans
    rw [outer, List.filter_filter]
    apply List.Perm.of_eq
    refine congrArg (List.map entry) (List.filter_congr fun c _ => ?_)
    exact Bool.and_comm _ _

namespace Comprises

variable {snapshot : Snapshot} {fates : List Fate}

theorem has (comprises : snapshot.Comprises fates) {fate : Fate} (member : fate ∈ fates) :
    snapshot.Has fate := by
  cases fate with
  | kept c =>
      apply class?_eq_some comprises.classNames
      exact comprises.classes.mem_iff.mpr (List.mem_filterMap.mpr ⟨_, member, rfl⟩)
  | packageInfo info =>
      have infoMember : info ∈ fates.filterMap Fate.packageInfo? :=
        List.mem_filterMap.mpr ⟨_, member, rfl⟩
      have named := (comprises.packages info.package).mpr (.inr ⟨info, infoMember, rfl⟩)
      obtain ⟨made, madeMember, sameName⟩ := List.mem_map.mp named
      rw [Has, package?]
      cases found : snapshot.packages.find? fun package => package.name = info.package with
      | none => simpa [sameName] using List.find?_eq_none.mp found made madeMember
      | some package =>
          have packageName : package.name = info.package := by simpa using List.find?_some found
          refine ⟨package, rfl, fun usage usageMember => ?_⟩
          apply (comprises.annotations package (List.mem_of_find?_eq_some found)).mem_iff.mpr
          refine List.mem_flatMap.mpr ⟨info, List.mem_filter.mpr ⟨infoMember, ?_⟩, usageMember⟩
          exact decide_eq_true packageName.symm
  | unread failure =>
      rw [Has, comprises.failures]
      exact List.mem_append_left _ (List.mem_filterMap.mpr ⟨_, member, rfl⟩)
  | redeclared failure =>
      rw [Has, comprises.failures]
      exact List.mem_append_right _ (List.mem_filterMap.mpr ⟨_, member, rfl⟩)

end Comprises

end Snapshot

/-! ## The failures of a file -/

namespace Fate

theorem failures_perm (fates : List Fate) :
    (fates.filterMap unread? ++ fates.filterMap redeclared?).Perm (fates.filterMap failure?) := by
  induction fates with
  | nil => exact .nil
  | cons fate fates inductionHypothesis =>
    cases fate with
    | kept | packageInfo => exact inductionHypothesis
    | unread failure => exact inductionHypothesis.cons failure
    | redeclared failure => exact List.perm_middle.trans (inductionHypothesis.cons failure)

/-- Each fate is of one of four kinds. -/
theorem length_eq (fates : List Fate) :
    fates.length = (fates.filterMap kept?).length +
      (fates.filterMap unread? ++ fates.filterMap redeclared?).length +
        (fates.filterMap packageInfo?).length := by
  induction fates with
  | nil => rfl
  | cons fate fates inductionHypothesis =>
    rw [List.length_append] at inductionHypothesis ⊢
    cases fate <;>
      simp only [List.filterMap_cons, kept?, unread?, redeclared?, packageInfo?,
        List.length_cons] <;>
      omega

end Fate

namespace ClassFileEntry

variable {root : String} {inFront files : List ClassFileEntry} {file : ClassFileEntry}

theorem length_fatesAfter (root : String) (inFront files : List ClassFileEntry) :
    (fatesAfter root inFront files).length = files.length := by
  induction files generalizing inFront with
  | nil => rfl
  | cons file files inductionHypothesis =>
      rw [fatesAfter, List.length_cons, List.length_cons, inductionHypothesis]

/-- Every failure carries the path of its file. -/
theorem path_of_fate {failure : LoadFailure}
    (fails : (fate root inFront file).failure? = some failure) :
    failure.path = file.path.display root := by
  rcases outcome_cases root inFront file with
    ⟨other, _, _, becomes, isPath⟩ | ⟨c, _, _, becomes⟩
  · rw [becomes] at fails
    cases fails
    exact isPath
  · rw [becomes] at fails
    split at fails
    case isTrue => cases fails
    case isFalse =>
      split at fails
      case h_1 => cases fails
      case h_2 =>
        cases fails
        exact if_neg (ClassFilePath.display_ne_empty root file.path)

theorem exists_of_mem_fatesAfter {becomes : Fate}
    (member : becomes ∈ fatesAfter root inFront files) :
    ∃ before, ∃ file ∈ files, becomes = fate root before file := by
  induction files generalizing inFront with
  | nil => exact absurd member List.not_mem_nil
  | cons file files inductionHypothesis =>
    rcases List.mem_cons.mp member with rfl | later
    · exact ⟨inFront, file, List.mem_cons_self, rfl⟩
    · obtain ⟨before, other, otherMember, known⟩ := inductionHypothesis later
      exact ⟨before, other, List.mem_cons_of_mem file otherMember, known⟩

theorem exists_file_of_failure {failure : LoadFailure}
    (member : failure ∈ (fatesAfter root inFront files).filterMap Fate.failure?) :
    ∃ file ∈ files, failure.path = file.path.display root := by
  obtain ⟨becomes, fateMember, fails⟩ := List.mem_filterMap.mp member
  obtain ⟨before, file, fileMember, rfl⟩ := exists_of_mem_fatesAfter fateMember
  exact ⟨file, fileMember, path_of_fate fails⟩

/-- The failures with the path of a file. -/
def failuresAt (root : String) (file : ClassFileEntry) (failures : List LoadFailure) :
    List LoadFailure :=
  failures.filter fun failure => failure.path = file.path.display root

theorem failuresAt_eq_nil
    (others : ∀ other ∈ files, other.path.display root ≠ file.path.display root) :
    failuresAt root file ((fatesAfter root inFront files).filterMap Fate.failure?) = [] := by
  rw [failuresAt, List.filter_eq_nil_iff]
  intro failure member
  obtain ⟨other, otherMember, isPath⟩ := exists_file_of_failure member
  rw [isPath, decide_eq_true_eq]
  exact others other otherMember

theorem failuresAt_fate :
    failuresAt root file (fate root inFront file).failure?.toList =
      (fate root inFront file).failure?.toList := by
  rw [failuresAt, List.filter_eq_self]
  intro failure member
  exact decide_eq_true (path_of_fate (Option.mem_toList.mp member))

/-- Among the failures of all files, those with the path of one file are the failure of
this file, if it is one. -/
theorem failuresAt_fates {before after : List ClassFileEntry}
    (distinct : ((before ++ file :: after).map fun other => other.path.display root).Nodup) :
    failuresAt root file
        ((fatesAfter root [] (before ++ file :: after)).filterMap Fate.failure?) =
      (fate root before file).failure?.toList := by
  rw [List.map_append, List.map_cons, List.nodup_append, List.nodup_cons] at distinct
  obtain ⟨_, ⟨notAfter, _⟩, apart⟩ := distinct
  have noneBefore : ∀ other ∈ before, other.path.display root ≠ file.path.display root :=
    fun other member => apart _ (List.mem_map_of_mem member) _ List.mem_cons_self
  have noneAfter : ∀ other ∈ after, other.path.display root ≠ file.path.display root :=
    fun other member same => notAfter (List.mem_map.mpr ⟨other, member, same⟩)
  -- The failures of the files in front, of the file, and of the files behind it.
  have parts : (fatesAfter root [] (before ++ file :: after)).filterMap Fate.failure? =
      (fatesAfter root [] before).filterMap Fate.failure? ++
        ((fate root before file).failure?.toList ++
          (fatesAfter root (before ++ [file]) after).filterMap Fate.failure?) := by
    rw [fatesAfter_append, List.filterMap_append, List.nil_append, fatesAfter, List.filterMap_cons]
    cases (fate root before file).failure? <;> rfl
  rw [parts, failuresAt, List.filter_append, List.filter_append, ← failuresAt, ← failuresAt,
    ← failuresAt, failuresAt_eq_nil noneBefore, failuresAt_eq_nil noneAfter, failuresAt_fate,
    List.nil_append, List.append_nil]

end ClassFileEntry

/-! ## The account of a snapshot -/

open ClassFileEntry

/-- The snapshot accounts for the files, which are in their order. -/
structure Accounts (root : String) (files : List ClassFileEntry) (snapshot : Snapshot) : Prop where
  comprises : snapshot.Comprises (fatesAfter root [] files)
  /-- What the snapshot has of each file; its path is on its own failure only, if it is one. -/
  each : ∀ before file after, files = before ++ file :: after →
    snapshot.Has (fate root before file) ∧
      failuresAt root file snapshot.failures = (fate root before file).failure?.toList
  count : files.length = snapshot.classes.length + snapshot.failures.length +
    ((fatesAfter root [] files).filterMap Fate.packageInfo?).length

namespace Snapshot

theorem Comprises.accounts {root : String} {files : List ClassFileEntry} {snapshot : Snapshot}
    (comprises : snapshot.Comprises (fatesAfter root [] files))
    (distinct : (files.map fun file => file.path.display root).Nodup) :
    Accounts root files snapshot := by
  refine ⟨comprises, ?_, ?_⟩
  · rintro before file after rfl
    constructor
    · apply comprises.has
      rw [fatesAfter_append]
      exact List.mem_append_right _ List.mem_cons_self
    · have perm : (failuresAt root file snapshot.failures).Perm
          (fate root before file).failure?.toList := by
        rw [← failuresAt_fates distinct, comprises.failures]
        exact (Fate.failures_perm _).filter _
      cases known : (fate root before file).failure? with
      | none => rw [known] at perm; exact perm.eq_nil
      | some failure => rw [known] at perm; exact List.perm_singleton.mp perm
  · rw [← length_fatesAfter root [] files, Fate.length_eq, ← comprises.failures,
      ← comprises.classes.length_eq]

/-- A class file below the root whose name the filter admits. -/
def IsCandidate (filter : ClassFilter) (entries : List (String × DirEntry))
    (file : ClassFileEntry) : Prop :=
  DirEntry.StandsIn [] entries file ∧ HasClassExtension file.path.fileName ∧
    filter.admits file.path.className = true

section Load

variable {filter : ClassFilter} {entries : List (String × DirEntry)} {found : List ClassFileEntry}

theorem mem_candidates_iff (walk : classFilesIn [] entries = .ok found) (file : ClassFileEntry) :
    file ∈ Loading.candidates filter found ↔ IsCandidate filter entries file := by
  rw [Loading.mem_candidates, mem_classFilesIn walk, and_assoc, IsCandidate]

theorem pairwise_candidates_of_isTree (isTree : (DirEntry.directory entries).IsTree)
    (walk : classFilesIn [] entries = .ok found) :
    (Loading.candidates filter found).Pairwise fun first second =>
      first.path.le second.path = true ∧ first.path ≠ second.path := by
  obtain _ | _ | _ | ⟨distinct, _, trees⟩ := isTree
  have paths := nodup_paths_classFiles.2 [] entries distinct trees found walk
  exact Loading.pairwise_candidates.and
    (List.pairwise_map.mp (Loading.nodup_paths_candidates paths))

theorem nodup_displays_candidates (root : String) (isTree : (DirEntry.directory entries).IsTree)
    (walk : classFilesIn [] entries = .ok found) :
    ((Loading.candidates filter found).map fun file => file.path.display root).Nodup := by
  have ordered : (Loading.candidates filter found).Pairwise _ :=
    pairwise_candidates_of_isTree isTree walk
  obtain _ | _ | _ | ⟨_, namesFree, trees⟩ := isTree
  have free : ∀ file ∈ Loading.candidates filter found,
      ∀ name ∈ file.path.names, '/' ∉ name.toList := by
    intro file member
    obtain ⟨⟨entry, entryMember, stands⟩, _⟩ := (mem_candidates_iff walk file).mp member
    apply names_free_of_stands stands (trees entry entryMember)
    intro name nameMember
    obtain rfl := List.mem_singleton.mp nameMember
    exact namesFree entry entryMember
  refine List.pairwise_map.mpr (ordered.imp_of_mem ?_)
  intro first second firstMember secondMember different same
  exact different.2 (ClassFilePath.display_injective (free first firstMember)
    (free second secondMember) same)

end Load

/-- Loading a directory tree accounts for each class file that the filter admits, and fails only
when the root is no directory or some directory cannot be listed. -/
theorem load_accounts_for_each_file (root : String) (filter : ClassFilter)
    (found : Option DirEntry) (isTree : ∀ entry ∈ found, entry.IsTree) :
    match load root filter found with
    | .ok snapshot =>
        ∃ entries files, found = some (.directory entries) ∧ ¬DirEntry.AnyUnlistable entries ∧
          (files.Pairwise fun first second =>
            first.path.le second.path = true ∧ first.path ≠ second.path) ∧
          (∀ file, file ∈ files ↔ IsCandidate filter entries file) ∧ Accounts root files snapshot
    | .error _ =>
        (∀ entries, found ≠ some (.directory entries)) ∨ ∃ entry ∈ found, entry.HasUnlistable := by
  match found with
  | none | some (.file _) | some (.unreadable _) | some (.unlistable _) =>
      exact .inl fun entries => nofun
  | some (.directory entries) =>
    have tree := isTree _ rfl
    have walked := walked_classFiles.2 [] entries
    rw [load, Loading.ofRoot]
    cases walk : classFilesIn [] entries with
    | error fault =>
        rw [walk] at walked
        exact .inr ⟨_, rfl, DirEntry.hasUnlistable_directory_iff.mpr walked⟩
    | ok files =>
        rw [walk] at walked
        have comprises := comprises_ofEntries root filter files
        exact ⟨entries, Loading.candidates filter files, rfl, walked.1,
          pairwise_candidates_of_isTree tree walk, mem_candidates_iff walk,
          comprises.accounts (nodup_displays_candidates root tree walk)⟩

/-- A class and a copy of it further down, a file that cannot be read and one that is no class
file. -/
def boxes : List (String × DirEntry) :=
  [("org", .directory
      [("notes.txt", .file []), ("Box.class", .file (ClassFile.named "org/Box").bytes)]),
    ("Locked.class", .unreadable .tooManyLinks),
    ("Broken.class", .file [0xCA]),
    ("Box.class", .file (ClassFile.named "org/Box").bytes)]

theorem load_accounts_for_each_file_boxes :
    (∀ entry ∈ some (DirEntry.directory boxes), entry.IsTree) ∧
      ∃ snapshot files, load "in" {} (some (.directory boxes)) = .ok snapshot ∧
        ⟨⟨["org"], "Box.class"⟩, .ok (ClassFile.named "org/Box").bytes⟩ ∈ files ∧
        Accounts "in" files snapshot := by
  have isTree : ∀ entry ∈ some (DirEntry.directory boxes), entry.IsTree := by
    rintro _ ⟨⟩
    refine .directory (by decide) (by decide) ?_
    simp only [boxes, List.forall_mem_cons]
    refine ⟨.directory (by decide) (by decide) ?_, .unreadable _, .file _, .file _,
      List.forall_mem_nil _⟩
    simp only [List.forall_mem_cons]
    exact ⟨.file _, .file _, List.forall_mem_nil _⟩
  have accounts := load_accounts_for_each_file "in" {} (some (.directory boxes)) isTree
  cases loads : load "in" {} (some (.directory boxes)) with
  | error problem =>
      have succeeds : (load "in" {} (some (.directory boxes))).toOption.isSome = true := by
        decide +kernel
      rw [loads] at succeeds
      cases succeeds
  | ok snapshot =>
      rw [loads] at accounts
      obtain ⟨entries, files, isDirectory, _, _, candidates, accounted⟩ := accounts
      cases isDirectory
      refine ⟨isTree, snapshot, files, rfl, (candidates _).mpr ⟨?_, ?_, by decide⟩, accounted⟩
      · exact ⟨_, List.mem_cons_self, .inside (List.mem_cons_of_mem _ List.mem_cons_self)
          (.readable _ _ _)⟩
      · exact ⟨"Box", by decide, rfl⟩

end Snapshot

end JvmDiff
