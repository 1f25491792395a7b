import JvmDiff.Proofs.Snapshot.Accounts

/-!
# Which classes a filter lets through

A filter is asked before a file is read, so it is asked about the name that the path of the file
stands for, and not about the name that the class in the file has.  The two are one where the root
of a snapshot is the root of the packages.  Elsewhere a class is let through by the places of its
files.
-/

namespace JvmDiff.Snapshot

/-! ## Declarations in a directory tree -/

/-- A class file of the tree, anywhere below the root, declares the class. -/
structure Declares (entries : List (String × DirEntry)) (file : ClassFileEntry) (c : Class) :
    Prop where
  stands : DirEntry.StandsIn [] entries file
  extension : HasClassExtension file.path.fileName
  holds : file.class? = some c

theorem mem_names_classesOf_iff {sources : List Source} {name : String} :
    name ∈ (classesOf sources).map Class.name ↔
      ∃ source ∈ sources, source.content.isPackageInfo = false ∧ source.content.name = name := by
  constructor
  · intro member
    obtain ⟨c, classMember, rfl⟩ := List.mem_map.mp member
    obtain ⟨source, sourceMember, notInfo, rfl⟩ := exists_source_of_mem_classesOf classMember
    exact ⟨source, sourceMember, notInfo, rfl⟩
  · rintro ⟨source, sourceMember, notInfo, named⟩
    have isOrdinary : source ∈ ordinary sources :=
      List.mem_filter.mpr ⟨sourceMember, by simp [notInfo]⟩
    cases first : firstSource? (ordinary sources) name with
    | none => simpa [named] using List.find?_eq_none.mp first source isOrdinary
    | some other =>
      have sameName : other.content.name = name := by simpa using List.find?_some first
      rw [← sameName]
      refine List.mem_map_of_mem ((classesOf_perm sources).mem_iff.mpr ?_)
      exact List.mem_map_of_mem (mem_definitions_of_first (by simp) first)

/-- The sources that are loaded are the classes of the files that can be read. -/
theorem mem_loadedOf_iff {root : String} {files : List ClassFileEntry} {source : Source} :
    source ∈ loadedOf (files.map (Loading.loadEntry root)) ↔
      ∃ file ∈ files, file.class? = some source.content ∧
        source.path = file.path.display root := by
  have single : ∀ file : ClassFileEntry, (Loading.loadEntry root file).toOption = some source ↔
      file.class? = some source.content ∧ source.path = file.path.display root := by
    intro file
    rcases file.outcome_cases root [] with ⟨failure, loaded, holds, _⟩ | ⟨c, loaded, holds, _⟩
    · simp [loaded, holds, Except.toOption]
    · obtain ⟨path, content⟩ := source
      simp [loaded, holds, Except.toOption, and_comm, eq_comm]
  simp [loadedOf, single]

section Load

variable {root : String} {filter : ClassFilter} {entries : List (String × DirEntry)}
  {snapshot : Snapshot}

theorem exists_found_of_load (loads : load root filter (some (.directory entries)) = .ok snapshot) :
    ∃ found, classFilesIn [] entries = .ok found ∧
      snapshot = (Loading.ofEntries root filter found).snapshot := by
  rw [load, Loading.ofRoot] at loads
  cases walk : classFilesIn [] entries with
  | error fault => rw [walk] at loads; cases loads
  | ok found =>
    rw [walk] at loads
    cases loads
    exact ⟨found, rfl, rfl⟩

/-- A name is that of a class of the snapshot just when a file whose path the filter
admits declares a class of the name, and this does not stand for a package. -/
theorem mem_names_load_iff (loads : load root filter (some (.directory entries)) = .ok snapshot)
    (name : String) :
    name ∈ snapshot.classes.map Class.name ↔
      ∃ file c, Declares entries file c ∧ c.name = name ∧ c.isPackageInfo = false ∧
        filter.admits file.path.className = true := by
  obtain ⟨found, walk, rfl⟩ := exists_found_of_load loads
  have loaded : name ∈ (Loading.ofEntries root filter found).snapshot.classes.map Class.name ↔
      ∃ source ∈ loadedOf ((Loading.candidates filter found).map (Loading.loadEntry root)),
        source.content.isPackageInfo = false ∧ source.content.name = name :=
    mem_names_classesOf_iff
  rw [loaded]
  constructor
  · rintro ⟨source, sourceMember, notInfo, named⟩
    obtain ⟨file, candidate, holds, _⟩ := mem_loadedOf_iff.mp sourceMember
    obtain ⟨stands, extension, admitted⟩ := (mem_candidates_iff walk file).mp candidate
    exact ⟨file, source.content, ⟨stands, extension, holds⟩, named, notInfo, admitted⟩
  · rintro ⟨file, c, declares, named, notInfo, admitted⟩
    refine ⟨⟨file.path.display root, c⟩, mem_loadedOf_iff.mpr ⟨file, ?_, declares.holds, rfl⟩,
      notInfo, named⟩
    exact (mem_candidates_iff walk file).mpr ⟨declares.stands, declares.extension, admitted⟩

end Load

/-- The classes of a snapshot are those that are declared, and stand for no package,
in a file that the filter admits for the name that its path stands for.  So where the
filter makes no difference between this name and the declared one, a declared class
is in the snapshot just when the filter admits its name and it stands for no package. -/
theorem class_loaded_iff_admitted {root : String} {filter : ClassFilter}
    {entries : List (String × DirEntry)} {snapshot : Snapshot}
    (loads : load root filter (some (.directory entries)) = .ok snapshot) :
    (∀ name, name ∈ snapshot.classes.map Class.name ↔
      ∃ file c, Declares entries file c ∧ c.name = name ∧ c.isPackageInfo = false ∧
        filter.admits file.path.className = true) ∧
      ∀ file c, Declares entries file c →
        (∀ other again, Declares entries other again → again.name = c.name →
          filter.admits other.path.className = filter.admits c.name) →
        (c.name ∈ snapshot.classes.map Class.name ↔
          filter.admits c.name = true ∧ c.isPackageInfo = false) := by
  refine ⟨mem_names_load_iff loads, fun file c declares alike => ?_⟩
  rw [mem_names_load_iff loads]
  constructor
  · rintro ⟨other, again, otherDeclares, named, notInfo, admitted⟩
    refine ⟨(alike other again otherDeclares named).symm.trans admitted, ?_⟩
    rwa [Class.isPackageInfo, ← named]
  · rintro ⟨admitted, notInfo⟩
    exact ⟨file, c, declares, rfl, notInfo, (alike file c declares rfl).trans admitted⟩

/-- A class at the place of its name. -/
def placed : List (String × DirEntry) :=
  [("org", .directory [("Box.class", .file (ClassFile.named "org/Box").bytes)])]

theorem class_loaded_iff_admitted_placed :
    ∃ snapshot file c, load "in" ⟨["org."], []⟩ (some (.directory placed)) = .ok snapshot ∧
      Declares placed file c ∧
      (∀ other again, Declares placed other again → again.name = c.name →
        ClassFilter.admits ⟨["org."], []⟩ other.path.className =
          ClassFilter.admits ⟨["org."], []⟩ c.name) ∧
      c.name ∈ snapshot.classes.map Class.name := by
  let file : ClassFileEntry :=
    ⟨⟨["org"], "Box.class"⟩, .ok (ClassFile.named "org/Box").bytes⟩
  have known : file.class?.map Class.name = some "org.Box" := by decide +kernel
  obtain ⟨c, holds, named⟩ := Option.map_eq_some_iff.mp known
  have declares : Declares placed file c :=
    ⟨⟨_, List.mem_cons_self, .inside List.mem_cons_self (.readable _ _ _)⟩,
      ⟨"Box", by decide, rfl⟩, holds⟩
  have only : ∀ other, DirEntry.StandsIn [] placed other → other = file := by
    rintro other ⟨entry, member, stands⟩
    obtain rfl := List.mem_singleton.mp member
    obtain ⟨inner, innerMember, innerStands⟩ := DirEntry.standsAt_directory_iff.mp stands
    obtain rfl := List.mem_singleton.mp innerMember
    cases innerStands
    rfl
  have alike : ∀ other again, Declares placed other again → again.name = c.name →
      ClassFilter.admits ⟨["org."], []⟩ other.path.className =
        ClassFilter.admits ⟨["org."], []⟩ c.name := by
    intro other again otherDeclares _
    rw [only other otherDeclares.stands, named]
    decide
  cases loads : load "in" ⟨["org."], []⟩ (some (.directory placed)) with
  | error problem =>
    have succeeds :
        (load "in" ⟨["org."], []⟩ (some (.directory placed))).toOption.isSome = true := by
      decide +kernel
    rw [loads] at succeeds
    cases succeeds
  | ok snapshot =>
    have loaded := (class_loaded_iff_admitted loads).2 file c declares alike
    refine ⟨snapshot, file, c, rfl, declares, alike, loaded.mpr ⟨?_, ?_⟩⟩
    · rw [named]
      decide
    · rw [Class.isPackageInfo, named]
      decide

/-- A class below the place of its name. -/
def displaced : List (String × DirEntry) :=
  [("classes", .directory placed)]

/-- A class that is not at the place of its name is left out although the filter
admits its name. -/
theorem admitted_class_left_out :
    ¬∀ (root : String) (filter : ClassFilter) (entries : List (String × DirEntry))
        (snapshot : Snapshot), load root filter (some (.directory entries)) = .ok snapshot →
      ∀ file c, Declares entries file c →
        (c.name ∈ snapshot.classes.map Class.name ↔
          filter.admits c.name = true ∧ c.isPackageInfo = false) := by
  intro claimed
  let file : ClassFileEntry :=
    ⟨⟨["classes", "org"], "Box.class"⟩, .ok (ClassFile.named "org/Box").bytes⟩
  have known : file.class?.map Class.name = some "org.Box" := by decide +kernel
  obtain ⟨c, holds, named⟩ := Option.map_eq_some_iff.mp known
  have declares : Declares displaced file c :=
    ⟨⟨_, List.mem_cons_self, .inside List.mem_cons_self
      (.inside List.mem_cons_self (.readable _ _ _))⟩, ⟨"Box", by decide, rfl⟩, holds⟩
  have nothing : (load "in" ⟨["org."], []⟩ (some (.directory displaced))).toOption.map
      Snapshot.classes = some [] := by
    decide +kernel
  cases loads : load "in" ⟨["org."], []⟩ (some (.directory displaced)) with
  | error problem => rw [loads] at nothing; cases nothing
  | ok snapshot =>
    rw [loads] at nothing
    have none : snapshot.classes = [] := Option.some.inj nothing
    have claimedHere := claimed "in" ⟨["org."], []⟩ displaced snapshot loads file c declares
    have listed := claimedHere.mpr
      ⟨by rw [named]; decide, by rw [Class.isPackageInfo, named]; decide⟩
    rw [none] at listed
    exact List.not_mem_nil listed

end JvmDiff.Snapshot
