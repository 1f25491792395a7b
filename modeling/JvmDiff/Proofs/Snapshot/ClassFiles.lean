import JvmDiff.Snapshot.Loading
import JvmDiff.Proofs.Entity.Order
import Mathlib.Data.List.Basic

/-!
# The class files of a directory tree

A walk through a directory tree either meets a directory that cannot be listed, or it finds all
files with the extension of class files.  In a tree no two entries of one directory have the same
name, so no two files have the same path, and paths are shown by different texts.
-/

namespace JvmDiff

namespace DirEntry

/-! ## Directory trees -/

/-- The names are those of a file system: the entries of a directory have different
names without slashes. -/
inductive IsTree : DirEntry → Prop where
  | file (bytes : List UInt8) : IsTree (.file bytes)
  | unreadable (fault : AccessFault) : IsTree (.unreadable fault)
  | unlistable (fault : AccessFault) : IsTree (.unlistable fault)
  | directory {entries : List (String × DirEntry)} :
      (entries.map Prod.fst).Nodup → (∀ entry ∈ entries, '/' ∉ entry.1.toList) →
      (∀ entry ∈ entries, IsTree entry.2) → IsTree (.directory entries)

/-- A directory that cannot be listed stands at the entry or inside it. -/
inductive HasUnlistable : DirEntry → Prop where
  | here (fault : AccessFault) : HasUnlistable (.unlistable fault)
  | inside {entries : List (String × DirEntry)} {entry : String × DirEntry} :
      entry ∈ entries → HasUnlistable entry.2 → HasUnlistable (.directory entries)

/-- A file, with the outcome of reading it, stands at the entry or inside it; the entry
stands under the name in the directories. -/
inductive StandsAt : List String → String → DirEntry → ClassFileEntry → Prop where
  | readable (directories : List String) (name : String) (bytes : List UInt8) :
      StandsAt directories name (.file bytes) ⟨⟨directories, name⟩, .ok bytes⟩
  | unreadable (directories : List String) (name : String) (fault : AccessFault) :
      StandsAt directories name (.unreadable fault) ⟨⟨directories, name⟩, .error fault⟩
  | inside {directories : List String} {name : String} {entries : List (String × DirEntry)}
      {entry : String × DirEntry} {file : ClassFileEntry} :
      entry ∈ entries → StandsAt (directories ++ [name]) entry.1 entry.2 file →
      StandsAt directories name (.directory entries) file

/-- The entries of a directory hold an unlistable one. -/
def AnyUnlistable (entries : List (String × DirEntry)) : Prop :=
  ∃ entry ∈ entries, entry.2.HasUnlistable

/-- A file stands at one of the entries of a directory, or inside it. -/
def StandsIn (directories : List String) (entries : List (String × DirEntry))
    (file : ClassFileEntry) : Prop :=
  ∃ entry ∈ entries, StandsAt directories entry.1 entry.2 file

theorem hasUnlistable_directory_iff {entries : List (String × DirEntry)} :
    (DirEntry.directory entries).HasUnlistable ↔ AnyUnlistable entries := by
  constructor
  · rintro (_ | ⟨member, unlistable⟩)
    exact ⟨_, member, unlistable⟩
  · rintro ⟨entry, member, unlistable⟩
    exact .inside member unlistable

theorem standsAt_directory_iff {directories : List String} {name : String}
    {entries : List (String × DirEntry)} {file : ClassFileEntry} :
    StandsAt directories name (.directory entries) file ↔
      StandsIn (directories ++ [name]) entries file := by
  constructor
  · rintro (_ | _ | ⟨member, stands⟩)
    exact ⟨_, member, stands⟩
  · rintro ⟨entry, member, stands⟩
    exact .inside member stands

theorem StandsAt.names_prefix {directories : List String} {name : String} {entry : DirEntry}
    {file : ClassFileEntry} (stands : StandsAt directories name entry file) :
    directories ++ [name] <+: file.path.names := by
  induction stands with
  | readable => exact List.prefix_rfl
  | unreadable => exact List.prefix_rfl
  | inside _ _ inductionHypothesis =>
      exact (List.prefix_append _ _).trans inductionHypothesis

end DirEntry

open DirEntry

/-- The file name is something with the extension of class files. -/
def HasClassExtension (fileName : String) : Prop :=
  ∃ stem, stem ≠ "" ∧ fileName = stem ++ ".class"

namespace ClassFilePath

theorem isClassFile_iff {fileName : String} :
    isClassFile fileName = true ↔ HasClassExtension fileName := by
  rw [isClassFile, stem?, HasClassExtension]
  constructor
  · intro named
    let stem := fileName.toList.take (fileName.toList.length - ending.length)
    by_cases parts : stem ≠ [] ∧ fileName.toList = stem ++ ending
    · refine ⟨String.ofList stem, ?_, ?_⟩
      · intro empty
        rw [← String.toList_inj, String.toList_ofList] at empty
        exact parts.1 empty
      · rw [← String.toList_inj, String.toList_append, String.toList_ofList]
        exact parts.2
    · rw [if_neg parts] at named
      cases named
  · rintro ⟨stem, nonempty, rfl⟩
    have cut : (stem ++ ".class").toList.take ((stem ++ ".class").toList.length - ending.length) =
        stem.toList := by
      rw [String.toList_append, List.length_append, ending, Nat.add_sub_cancel, List.take_left]
    have filled : stem.toList ≠ [] := fun empty => nonempty (String.toList_inj.mp empty)
    simp only [cut]
    rw [if_pos ⟨filled, String.toList_append⟩]
    rfl

theorem names_injective {first second : ClassFilePath} (same : first.names = second.names) :
    first = second := by
  obtain ⟨directories, fileName⟩ := first
  obtain ⟨others, other⟩ := second
  obtain ⟨rfl, last⟩ := List.append_inj' same rfl
  obtain rfl := List.singleton_inj.mp last
  rfl

theorem display_eq (root : String) (path : ClassFilePath) :
    path.display root =
      root ++ (if root.toList.getLast? = some '/' then "" else "/") ++
        "/".intercalate path.names := by
  cases known : path.names with
  | nil => simp [names] at known
  | cons name more => rw [display, known, below]; exact List.cons_ne_nil _ _

theorem display_ne_empty (root : String) (path : ClassFilePath) : path.display root ≠ "" := by
  intro empty
  rw [display_eq, String.append_eq_empty_iff, String.append_eq_empty_iff] at empty
  obtain ⟨⟨rfl, noSlash⟩, _⟩ := empty
  revert noSlash
  decide

/-- Different paths below a root are shown by different texts. -/
theorem display_injective {root : String} {first second : ClassFilePath}
    (firstFree : ∀ name ∈ first.names, '/' ∉ name.toList)
    (secondFree : ∀ name ∈ second.names, '/' ∉ name.toList)
    (same : first.display root = second.display root) : first = second := by
  -- The names of a path are what stands between the slashes of its text.
  have split : ∀ {path : ClassFilePath}, (∀ name ∈ path.names, '/' ∉ name.toList) →
      ("/".toList.intercalate (path.names.map String.toList)).splitOn '/' =
        path.names.map String.toList := by
    intro path free
    change (['/'].intercalate (path.names.map String.toList)).splitOn '/' = _
    apply List.splitOn_intercalate
    · intro text member
      obtain ⟨name, nameMember, rfl⟩ := List.mem_map.mp member
      exact free name nameMember
    · simp [names]
  rw [display_eq, display_eq] at same
  have sameNames := congrArg String.toList same
  simp only [String.toList_append] at sameNames
  have sameText := List.append_cancel_left sameNames
  rw [String.toList_intercalate, String.toList_intercalate] at sameText
  have sameSplit := congrArg (List.splitOn '/') sameText
  rw [split firstFree, split secondFree] at sameSplit
  exact names_injective ((List.map_inj_right fun _ _ => String.toList_inj.mp).mp sameSplit)

end ClassFilePath

/-! ## The walk -/

/-- What a walk makes of the files that `stands` describes: without an unlistable directory on its
way it finds all class files among them. -/
def Walked (unlistable : Prop) (stands : ClassFileEntry → Prop) :
    Except ListingFault (List ClassFileEntry) → Prop
  | .error _ => unlistable
  | .ok files =>
      ¬unlistable ∧
        ∀ file, file ∈ files ↔ stands file ∧ HasClassExtension file.path.fileName

namespace Walked

theorem of_iff {unlistable other : Prop} {stands found : ClassFileEntry → Prop}
    {outcome : Except ListingFault (List ClassFileEntry)}
    (walked : Walked unlistable stands outcome)
    (sameFault : unlistable ↔ other) (sameFiles : ∀ file, stands file ↔ found file) :
    Walked other found outcome := by
  obtain rfl : unlistable = other := propext sameFault
  obtain rfl : stands = found := funext fun file => propext (sameFiles file)
  exact walked

theorem append {firstUnlistable restUnlistable : Prop}
    {firstStands restStands : ClassFileEntry → Prop}
    {first rest : Except ListingFault (List ClassFileEntry)}
    (firstWalked : Walked firstUnlistable firstStands first)
    (restWalked : Walked restUnlistable restStands rest) :
    Walked (firstUnlistable ∨ restUnlistable) (fun file => firstStands file ∨ restStands file)
      (do return (← first) ++ (← rest)) := by
  cases first with
  | error fault => exact .inl firstWalked
  | ok files =>
    cases rest with
    | error fault => exact .inr restWalked
    | ok more =>
      refine ⟨not_or.mpr ⟨firstWalked.1, restWalked.1⟩, fun file => ?_⟩
      rw [List.mem_append, firstWalked.2, restWalked.2, or_and_right]

theorem single (file : ClassFileEntry) :
    Walked False (fun other => other = file)
      (if ClassFilePath.isClassFile file.path.fileName then .ok [file] else .ok []) := by
  by_cases named : ClassFilePath.isClassFile file.path.fileName = true
  · rw [if_pos named]
    refine ⟨not_false, fun other => ?_⟩
    rw [List.mem_singleton]
    refine ⟨?_, And.left⟩
    rintro rfl
    exact ⟨rfl, ClassFilePath.isClassFile_iff.mp named⟩
  · rw [if_neg named]
    refine ⟨not_false, fun other => ?_⟩
    refine iff_of_false List.not_mem_nil ?_
    rintro ⟨rfl, extension⟩
    exact named (ClassFilePath.isClassFile_iff.mpr extension)

end Walked

section Walk

theorem walked_leaf {directories : List String} {name : String} {entry : DirEntry}
    {content : Except AccessFault (List UInt8)} (listable : ¬entry.HasUnlistable)
    (here : StandsAt directories name entry ⟨⟨directories, name⟩, content⟩)
    (only : ∀ file, StandsAt directories name entry file →
      file = ⟨⟨directories, name⟩, content⟩) :
    Walked entry.HasUnlistable (StandsAt directories name entry)
      (if ClassFilePath.isClassFile name then .ok [⟨⟨directories, name⟩, content⟩] else .ok []) := by
  apply (Walked.single ⟨⟨directories, name⟩, content⟩).of_iff
  · exact iff_of_false not_false listable
  · intro file
    constructor
    · rintro rfl
      exact here
    · exact only file

theorem walked_cons {directories : List String} {name : String} {entry : DirEntry}
    {entries : List (String × DirEntry)}
    (here : Walked entry.HasUnlistable (StandsAt directories name entry)
      (classFilesAt directories name entry))
    (there : Walked (AnyUnlistable entries) (StandsIn directories entries)
      (classFilesIn directories entries)) :
    Walked (AnyUnlistable ((name, entry) :: entries))
      (StandsIn directories ((name, entry) :: entries))
      (classFilesIn directories ((name, entry) :: entries)) := by
  rw [classFilesIn]
  apply (here.append there).of_iff
  · simp only [AnyUnlistable, List.exists_mem_cons_iff]
  · intro file
    simp only [StandsIn, List.exists_mem_cons_iff]

theorem walked_classFiles :
    (∀ directories name entry,
      Walked (HasUnlistable entry) (StandsAt directories name entry)
        (classFilesAt directories name entry)) ∧
    ∀ directories entries,
      Walked (AnyUnlistable entries) (StandsIn directories entries)
        (classFilesIn directories entries) := by
  -- On the two walks at once, at an entry and along the entries of a directory.
  apply classFilesAt.mutual_induct
  case case1 =>
    intro directories name entries inside
    rw [classFilesAt]
    exact inside.of_iff hasUnlistable_directory_iff.symm fun file => standsAt_directory_iff.symm
  case case2 =>
    intro directories name fault
    exact HasUnlistable.here fault
  case case3 | case4 =>
    intro directories name bytes _
    rw [classFilesAt]
    refine walked_leaf nofun (.readable directories name bytes) ?_
    rintro file ⟨⟩
    rfl
  case case5 | case6 =>
    intro directories name fault _
    rw [classFilesAt]
    refine walked_leaf nofun (.unreadable directories name fault) ?_
    rintro file ⟨⟩
    rfl
  case case7 =>
    intro directories
    rw [classFilesIn]
    refine ⟨nofun, fun file => iff_of_false List.not_mem_nil ?_⟩
    rintro ⟨⟨_, member, _⟩, _⟩
    exact List.not_mem_nil member
  case case8 =>
    intro directories name entry entries here there
    exact walked_cons here there

theorem mem_classFilesIn {directories : List String} {entries : List (String × DirEntry)}
    {files : List ClassFileEntry} (found : classFilesIn directories entries = .ok files)
    {file : ClassFileEntry} :
    file ∈ files ↔ StandsIn directories entries file ∧ HasClassExtension file.path.fileName := by
  have walked := walked_classFiles.2 directories entries
  rw [found] at walked
  exact walked.2 file

theorem stands_of_mem_classFilesAt {directories : List String} {name : String} {entry : DirEntry}
    {files : List ClassFileEntry} (found : classFilesAt directories name entry = .ok files)
    {file : ClassFileEntry} (member : file ∈ files) : StandsAt directories name entry file := by
  have walked := walked_classFiles.1 directories name entry
  rw [found] at walked
  exact ((walked.2 file).mp member).1

theorem exists_of_classFilesIn_cons {directories : List String} {name : String} {entry : DirEntry}
    {entries : List (String × DirEntry)} {files : List ClassFileEntry}
    (found : classFilesIn directories ((name, entry) :: entries) = .ok files) :
    ∃ first rest, classFilesAt directories name entry = .ok first ∧
      classFilesIn directories entries = .ok rest ∧ files = first ++ rest := by
  rw [classFilesIn] at found
  cases here : classFilesAt directories name entry with
  | error fault => rw [here] at found; cases found
  | ok first =>
    cases there : classFilesIn directories entries with
    | error fault => rw [here, there] at found; cases found
    | ok rest =>
      rw [here, there] at found
      cases found
      exact ⟨first, rest, rfl, rfl, rfl⟩

/-- Under different names of one directory no two files have the same path. -/
theorem path_ne_of_stands {directories : List String} {name other : String}
    {entry otherEntry : DirEntry} {file otherFile : ClassFileEntry} (different : name ≠ other)
    (stands : StandsAt directories name entry file)
    (otherStands : StandsAt directories other otherEntry otherFile) :
    file.path ≠ otherFile.path := by
  intro same
  have inFront := stands.names_prefix
  have otherInFront := otherStands.names_prefix
  rw [← same] at otherInFront
  have names : directories ++ [name] = directories ++ [other] := by
    refine (List.prefix_of_prefix_length_le inFront otherInFront ?_).eq_of_length ?_
    all_goals simp only [List.length_append, List.length_singleton, Nat.le_refl]
  exact different (List.singleton_inj.mp (List.append_cancel_left names))

theorem nodup_paths_classFiles :
    (∀ directories name entry, IsTree entry → ∀ files,
      classFilesAt directories name entry = .ok files →
        (files.map ClassFileEntry.path).Nodup) ∧
    ∀ directories entries, (entries.map Prod.fst).Nodup → (∀ entry ∈ entries, IsTree entry.2) →
      ∀ files, classFilesIn directories entries = .ok files →
        (files.map ClassFileEntry.path).Nodup := by
  apply classFilesAt.mutual_induct
  case case1 =>
    rintro directories name entries inside (_ | _ | _ | ⟨distinct, _, trees⟩) files found
    exact inside distinct trees files found
  case case2 =>
    intro directories name fault _ files found
    cases found
  case case3 | case5 =>
    intro directories name content named _ files found
    rw [classFilesAt, if_pos named] at found
    cases found
    exact List.nodup_singleton _
  case case4 | case6 =>
    intro directories name content named _ files found
    rw [classFilesAt, if_neg named] at found
    cases found
    exact List.nodup_nil
  case case7 =>
    intro directories _ _ files found
    cases found
    exact List.nodup_nil
  case case8 =>
    intro directories name entry entries here there distinct trees files found
    obtain ⟨first, rest, foundFirst, foundRest, rfl⟩ := exists_of_classFilesIn_cons found
    obtain ⟨new, distinctRest⟩ := List.nodup_cons.mp distinct
    obtain ⟨tree, treesRest⟩ := List.forall_mem_cons.mp trees
    -- What is found at the first entry begins with its name, which no other entry has.
    rw [List.map_append, List.nodup_append]
    refine ⟨here tree first foundFirst, there distinctRest treesRest rest foundRest, ?_⟩
    intro path member otherPath otherMember
    obtain ⟨file, fileMember, rfl⟩ := List.mem_map.mp member
    obtain ⟨otherFile, otherFileMember, rfl⟩ := List.mem_map.mp otherMember
    obtain ⟨⟨other, otherEntryMember, otherStands⟩, _⟩ :=
      (mem_classFilesIn foundRest).mp otherFileMember
    refine path_ne_of_stands ?_ (stands_of_mem_classFilesAt foundFirst fileMember) otherStands
    rintro rfl
    exact new (List.mem_map.mpr ⟨other, otherEntryMember, rfl⟩)

theorem names_free_of_stands {directories : List String} {name : String} {entry : DirEntry}
    {file : ClassFileEntry} (stands : StandsAt directories name entry file) (isTree : entry.IsTree)
    (free : ∀ part ∈ directories ++ [name], '/' ∉ part.toList) :
    ∀ part ∈ file.path.names, '/' ∉ part.toList := by
  induction stands with
  | readable | unreadable => exact free
  | inside member _ inductionHypothesis =>
    obtain _ | _ | _ | ⟨_, namesFree, trees⟩ := isTree
    apply inductionHypothesis (trees _ member)
    intro part partMember
    rcases List.mem_append.mp partMember with inFront | last
    · exact free part inFront
    · obtain rfl := List.mem_singleton.mp last
      exact namesFree _ member

end Walk

/-! ## The order of the files -/

namespace ClassFilePath

theorem namesLe_trans {first second third : List String} (below : namesLe first second = true)
    (above : namesLe second third = true) : namesLe first third = true := by
  induction first generalizing second third with
  | nil => rfl
  | cons name names inductionHypothesis =>
    match second, third with
    | other :: others, last :: lasts =>
      rw [namesLe] at below above ⊢
      by_cases sameBelow : name = other
      · subst sameBelow
        rw [if_pos rfl] at below
        by_cases sameAbove : name = last
        · rw [if_pos sameAbove] at above ⊢
          exact inductionHypothesis below above
        · rw [if_neg sameAbove] at above ⊢
          exact above
      · rw [if_neg sameBelow] at below
        by_cases sameAbove : other = last
        · subst sameAbove
          rwa [if_neg sameBelow]
        · rw [if_neg sameAbove] at above
          split
          case isTrue same =>
            subst same
            exact absurd (String.le_antisymm (of_decide_eq_true below) (of_decide_eq_true above))
              sameBelow
          case isFalse => exact Text.le_trans below above

theorem namesLe_total (first second : List String) :
    (namesLe first second || namesLe second first) = true := by
  induction first generalizing second with
  | nil => rfl
  | cons name names inductionHypothesis =>
    match second with
    | [] => rfl
    | other :: others =>
      rw [namesLe, namesLe]
      by_cases same : name = other
      · rw [if_pos same, if_pos same.symm]
        exact inductionHypothesis others
      · rw [if_neg same, if_neg (Ne.symm same)]
        exact Text.le_total name other

end ClassFilePath

namespace Loading

variable {filter : ClassFilter} {entries : List ClassFileEntry}

theorem mem_candidates {file : ClassFileEntry} :
    file ∈ candidates filter entries ↔
      file ∈ entries ∧ filter.admits file.path.className = true := by
  rw [candidates, List.mem_filter, List.mem_mergeSort]

theorem pairwise_candidates :
    (candidates filter entries).Pairwise fun first second => first.path.le second.path = true := by
  apply List.Pairwise.filter
  apply List.pairwise_mergeSort
  · intro first second third
    exact ClassFilePath.namesLe_trans
  · intro first second
    exact ClassFilePath.namesLe_total first.path.names second.path.names

theorem nodup_paths_candidates (distinct : (entries.map ClassFileEntry.path).Nodup) :
    ((candidates filter entries).map ClassFileEntry.path).Nodup := by
  apply List.Nodup.sublist (List.filter_sublist.map ClassFileEntry.path)
  exact ((List.mergeSort_perm entries _).map ClassFileEntry.path).nodup_iff.mpr distinct

end Loading

end JvmDiff
