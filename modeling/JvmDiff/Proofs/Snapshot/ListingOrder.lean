import JvmDiff.Proofs.Snapshot.Accounts

/-!
# The order of directory listings

A file system lists the entries of a directory in an order of its own.  The walk meets the files in
this order, but they are sorted by their paths before any of them is read, and no two files of a tree
have the same path.  So nothing that is loaded depends on how the directories were listed.
-/

namespace JvmDiff

namespace DirEntry

/-! ## Trees that are listed in another order -/

mutual

/-- The second entry is the first one, except that directories, at any depth, list
their entries in another order. -/
inductive Relisted : DirEntry → DirEntry → Prop
  | file (bytes : List UInt8) : Relisted (.file bytes) (.file bytes)
  | unreadable (fault : AccessFault) : Relisted (.unreadable fault) (.unreadable fault)
  | unlistable (fault : AccessFault) : Relisted (.unlistable fault) (.unlistable fault)
  | directory {entries changed others : List (String × DirEntry)}
      (each : RelistedEntries entries changed) (perm : changed.Perm others) :
      Relisted (.directory entries) (.directory others)

/-- Under each name stands what stood there, listed in another order. -/
inductive RelistedEntries : List (String × DirEntry) → List (String × DirEntry) → Prop
  | nil : RelistedEntries [] []
  | cons (name : String) {entry other : DirEntry} {entries others : List (String × DirEntry)}
      (head : Relisted entry other) (tail : RelistedEntries entries others) :
      RelistedEntries ((name, entry) :: entries) ((name, other) :: others)

end

theorem RelistedEntries.names_eq {entries others : List (String × DirEntry)}
    (relisted : RelistedEntries entries others) :
    entries.map Prod.fst = others.map Prod.fst := by
  induction entries generalizing others with
  | nil =>
    obtain _ | _ := relisted
    rfl
  | cons entry entries inductionHypothesis =>
    obtain _ | ⟨name, _, tail⟩ := relisted
    exact congrArg (name :: ·) (inductionHypothesis tail)

section Perm

variable {entries others : List (String × DirEntry)}

theorem standsIn_iff_of_perm (perm : entries.Perm others) {directories : List String}
    {file : ClassFileEntry} :
    StandsIn directories entries file ↔ StandsIn directories others file := by
  simp only [StandsIn, perm.mem_iff]

theorem anyUnlistable_iff_of_perm (perm : entries.Perm others) :
    AnyUnlistable entries ↔ AnyUnlistable others := by
  simp only [AnyUnlistable, perm.mem_iff]

end Perm

mutual

/-- The same files stand at the same places. -/
theorem Relisted.standsAt_iff {directories : List String} {name : String}
    {file : ClassFileEntry} :
    ∀ {first second : DirEntry}, Relisted first second →
      (StandsAt directories name first file ↔ StandsAt directories name second file)
  | _, _, .file _ => Iff.rfl
  | _, _, .unreadable _ => Iff.rfl
  | _, _, .unlistable _ => Iff.rfl
  | _, _, .directory each perm => by
      rw [standsAt_directory_iff, standsAt_directory_iff, each.standsIn_iff,
        standsIn_iff_of_perm perm]

theorem RelistedEntries.standsIn_iff {directories : List String} {file : ClassFileEntry} :
    ∀ {entries others : List (String × DirEntry)}, RelistedEntries entries others →
      (StandsIn directories entries file ↔ StandsIn directories others file)
  | _, _, .nil => Iff.rfl
  | _, _, .cons _ head tail => by
      have rest : StandsIn directories _ file ↔ StandsIn directories _ file := tail.standsIn_iff
      simp only [StandsIn] at rest
      simp only [StandsIn, List.exists_mem_cons_iff, head.standsAt_iff, rest]

end

mutual

/-- What cannot be listed in one order cannot be listed in another. -/
theorem Relisted.hasUnlistable_iff :
    ∀ {first second : DirEntry}, Relisted first second →
      (HasUnlistable first ↔ HasUnlistable second)
  | _, _, .file _ => Iff.rfl
  | _, _, .unreadable _ => Iff.rfl
  | _, _, .unlistable _ => Iff.rfl
  | _, _, .directory each perm => by
      rw [hasUnlistable_directory_iff, hasUnlistable_directory_iff, each.anyUnlistable_iff,
        anyUnlistable_iff_of_perm perm]

theorem RelistedEntries.anyUnlistable_iff :
    ∀ {entries others : List (String × DirEntry)}, RelistedEntries entries others →
      (AnyUnlistable entries ↔ AnyUnlistable others)
  | _, _, .nil => Iff.rfl
  | _, _, .cons _ head tail => by
      have rest := tail.anyUnlistable_iff
      simp only [AnyUnlistable] at rest
      simp only [AnyUnlistable, List.exists_mem_cons_iff, head.hasUnlistable_iff, rest]

end

mutual

theorem Relisted.isTree :
    ∀ {first second : DirEntry}, Relisted first second → IsTree first → IsTree second
  | _, _, .file bytes, _ => .file bytes
  | _, _, .unreadable fault, _ => .unreadable fault
  | _, _, .unlistable fault, _ => .unlistable fault
  | _, _, .directory each perm, .directory distinct free trees => by
      have namesPerm := each.names_eq ▸ perm.map Prod.fst
      refine .directory (namesPerm.nodup_iff.mp distinct) ?_ fun other member =>
        each.trees trees other (perm.mem_iff.mpr member)
      intro other member
      obtain ⟨entry, entryMember, sameName⟩ :=
        List.mem_map.mp (namesPerm.mem_iff.mpr (List.mem_map_of_mem member))
      exact sameName ▸ free entry entryMember

theorem RelistedEntries.trees :
    ∀ {entries others : List (String × DirEntry)}, RelistedEntries entries others →
      (∀ entry ∈ entries, IsTree entry.2) → ∀ other ∈ others, IsTree other.2
  | _, _, .nil, _ => List.forall_mem_nil _
  | _, _, .cons _ head tail, trees => by
      obtain ⟨first, rest⟩ := List.forall_mem_cons.mp trees
      exact List.forall_mem_cons.mpr ⟨head.isTree first, tail.trees rest⟩

end

end DirEntry

/-! ## Files in the order of their paths -/

theorem ClassFilePath.namesLe_antisymm {first second : List String}
    (below : namesLe first second = true) (above : namesLe second first = true) :
    first = second := by
  induction first generalizing second with
  | nil =>
    cases second with
    | nil => rfl
    | cons => cases above
  | cons name names inductionHypothesis =>
    cases second with
    | nil => cases below
    | cons other others =>
      rw [namesLe] at below above
      by_cases same : name = other
      · rw [if_pos same] at below
        rw [if_pos same.symm] at above
        rw [same, inductionHypothesis below above]
      · rw [if_neg same] at below
        rw [if_neg (Ne.symm same)] at above
        exact absurd (String.le_antisymm (of_decide_eq_true below) (of_decide_eq_true above)) same

namespace Loading

/-- Files with different paths are taken in one order, however they were found. -/
theorem candidates_eq_of_perm (filter : ClassFilter) {entries others : List ClassFileEntry}
    (distinct : (entries.map ClassFileEntry.path).Nodup) (perm : entries.Perm others) :
    candidates filter entries = candidates filter others := by
  apply @List.Perm.eq_of_pairwise _ fun first second => first.path.le second.path = true
  · intro first second firstMember secondMember below above
    have samePath : first.path = second.path :=
      ClassFilePath.names_injective (ClassFilePath.namesLe_antisymm below above)
    exact List.inj_on_of_nodup_map distinct (mem_candidates.mp firstMember).1
      (perm.mem_iff.mpr (mem_candidates.mp secondMember).1) samePath
  · exact pairwise_candidates
  · exact pairwise_candidates
  · refine List.Perm.filter _ ?_
    exact (List.mergeSort_perm entries _).trans (perm.trans (List.mergeSort_perm others _).symm)

/-- What the walk makes of two directories with the same files is the same, up to
the order in which the files are found. -/
theorem exists_perm_of_walk {entries others : List (String × DirEntry)}
    (isTree : (DirEntry.directory entries).IsTree)
    (othersTree : (DirEntry.directory others).IsTree)
    (sameFault : DirEntry.AnyUnlistable entries ↔ DirEntry.AnyUnlistable others)
    (sameFiles : ∀ file, DirEntry.StandsIn [] entries file ↔ DirEntry.StandsIn [] others file)
    {found : List ClassFileEntry} (walk : classFilesIn [] entries = .ok found) :
    ∃ again, classFilesIn [] others = .ok again ∧
      (found.map ClassFileEntry.path).Nodup ∧ found.Perm again := by
  have walked := walked_classFiles.2 [] entries
  rw [walk] at walked
  have otherWalked := walked_classFiles.2 [] others
  cases otherWalk : classFilesIn [] others with
  | error fault =>
    rw [otherWalk] at otherWalked
    exact absurd (sameFault.mpr otherWalked) walked.1
  | ok again =>
    obtain _ | _ | _ | ⟨distinct, _, trees⟩ := isTree
    obtain _ | _ | _ | ⟨otherDistinct, _, otherTrees⟩ := othersTree
    have paths := nodup_paths_classFiles.2 [] entries distinct trees found walk
    have otherPaths := nodup_paths_classFiles.2 [] others otherDistinct otherTrees again otherWalk
    refine ⟨again, rfl, paths, ?_⟩
    rw [List.perm_ext_iff_of_nodup paths.of_map otherPaths.of_map]
    intro file
    rw [mem_classFilesIn walk, mem_classFilesIn otherWalk, sameFiles]

/-- Directories with the same files are loaded to the same. -/
theorem ofRoot_of_same_files (root : String) (filter : ClassFilter)
    {entries others : List (String × DirEntry)}
    (isTree : (DirEntry.directory entries).IsTree)
    (othersTree : (DirEntry.directory others).IsTree)
    (sameFault : DirEntry.AnyUnlistable entries ↔ DirEntry.AnyUnlistable others)
    (sameFiles : ∀ file, DirEntry.StandsIn [] entries file ↔ DirEntry.StandsIn [] others file)
    {loading : Loading} (loads : ofRoot root filter (some (.directory entries)) = .ok loading) :
    ofRoot root filter (some (.directory others)) = .ok loading := by
  rw [ofRoot] at loads ⊢
  cases walk : classFilesIn [] entries with
  | error fault =>
    rw [walk] at loads
    cases loads
  | ok found =>
    obtain ⟨again, otherWalk, distinct, perm⟩ :=
      exists_perm_of_walk isTree othersTree sameFault sameFiles walk
    rw [walk] at loads
    rw [otherWalk]
    rw [← loads]
    simp only [ofEntries, candidates_eq_of_perm filter distinct perm]

theorem ofRoot_relisted (root : String) (filter : ClassFilter) {first second : DirEntry}
    (isTree : first.IsTree) (relisted : first.Relisted second) (loading : Loading) :
    ofRoot root filter (some first) = .ok loading ↔
      ofRoot root filter (some second) = .ok loading := by
  have otherTree := relisted.isTree isTree
  cases relisted with
  | file | unreadable | unlistable => exact Iff.rfl
  | @directory entries _ others each perm =>
    have sameFault := each.anyUnlistable_iff.trans (DirEntry.anyUnlistable_iff_of_perm perm)
    have sameFiles : ∀ file,
        DirEntry.StandsIn [] entries file ↔ DirEntry.StandsIn [] others file :=
      fun file => each.standsIn_iff.trans (DirEntry.standsIn_iff_of_perm perm)
    constructor
    · exact ofRoot_of_same_files root filter isTree otherTree sameFault sameFiles
    · exact ofRoot_of_same_files root filter otherTree isTree sameFault.symm
        fun file => (sameFiles file).symm

end Loading

namespace Snapshot

/-- A tree whose directories are listed in another order is loaded if it is loaded in
the first one, and to the same: the same files are read in the same order, and the snapshots
have the same classes, packages and failures. -/
theorem load_relisted (root : String) (filter : ClassFilter) {first second : DirEntry}
    (isTree : first.IsTree) (relisted : first.Relisted second) :
    (∀ loading, Loading.ofRoot root filter (some first) = .ok loading ↔
      Loading.ofRoot root filter (some second) = .ok loading) ∧
    ∀ snapshot, load root filter (some first) = .ok snapshot ↔
      load root filter (some second) = .ok snapshot := by
  have sameLoading := Loading.ofRoot_relisted root filter isTree relisted
  refine ⟨sameLoading, fun snapshot => ?_⟩
  have loads : ∀ entry, load root filter (some entry) = .ok snapshot ↔
      ∃ loading, Loading.ofRoot root filter (some entry) = .ok loading ∧
        loading.snapshot = snapshot := by
    intro entry
    rw [load]
    cases Loading.ofRoot root filter (some entry) <;> simp [Except.map]
  simp only [loads, sameLoading]

/-- Two files with one class, in the order of their paths. -/
def twinFiles : List ClassFileEntry :=
  [⟨⟨["new"], "Box.class"⟩, .ok (ClassFile.named "org/Box").bytes⟩,
    ⟨⟨["old"], "Box.class"⟩, .ok (ClassFile.named "org/Box").bytes⟩]

/-- The two files in a tree, and another one that is no class file. -/
def twins : DirEntry :=
  .directory
    [("new", .directory
        [("Box.class", .file (ClassFile.named "org/Box").bytes), ("notes.txt", .file [])]),
      ("old", .directory [("Box.class", .file (ClassFile.named "org/Box").bytes)])]

/-- The same tree in another order. -/
def twinsRelisted : DirEntry :=
  .directory
    [("old", .directory [("Box.class", .file (ClassFile.named "org/Box").bytes)]),
      ("new", .directory
        [("notes.txt", .file []), ("Box.class", .file (ClassFile.named "org/Box").bytes)])]

theorem candidates_twinFiles : Loading.candidates {} twinFiles = twinFiles := by
  have ascend : twinFiles.mergeSort (fun first second => first.path.le second.path) = twinFiles :=
    List.mergeSort_of_pairwise (List.pairwise_pair.mpr (by decide))
  rw [Loading.candidates, ascend]
  rfl

/-- In both orders the first file by its path counts. -/
theorem load_relisted_twins :
    twins.IsTree ∧ twins.Relisted twinsRelisted ∧
      ∃ snapshot, load "in" {} (some twins) = .ok snapshot ∧
        load "in" {} (some twinsRelisted) = .ok snapshot ∧
          snapshot.failures.map LoadFailure.path = ["in/old/Box.class"] := by
  have isTree : twins.IsTree := by
    refine .directory (by decide) (by decide) ?_
    simp only [List.forall_mem_cons]
    refine ⟨.directory (by decide) (by decide) ?_, .directory (by decide) (by decide) ?_,
      List.forall_mem_nil _⟩
    · simp only [List.forall_mem_cons]
      exact ⟨.file _, .file _, List.forall_mem_nil _⟩
    · simp only [List.forall_mem_cons]
      exact ⟨.file _, List.forall_mem_nil _⟩
  have relisted : twins.Relisted twinsRelisted :=
    .directory
      (.cons "new" (.directory (.cons _ (.file _) (.cons _ (.file _) .nil)) (.swap _ _ _))
        (.cons "old" (.directory (.cons _ (.file _) .nil) (.refl _)) .nil))
      (.swap _ _ _)
  have loads : load "in" {} (some twins) = .ok (Loading.ofEntries "in" {} twinFiles).snapshot := rfl
  have again := ((load_relisted "in" {} isTree relisted).2 _).mp loads
  refine ⟨isTree, relisted, _, loads, again, ?_⟩
  rw [Loading.ofEntries, candidates_twinFiles]
  decide +kernel

end Snapshot

end JvmDiff
